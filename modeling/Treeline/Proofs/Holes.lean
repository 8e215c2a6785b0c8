import Treeline.Proofs.Counting
import Treeline.Proofs.Printing
import Treeline.Proofs.Sink

namespace Treeline

-- A place that must be filled and is empty. The printing pass does not look into the initial values of parameters, so
-- it is noted whether the place lies there.
structure Hole where
  missing : Missing
  inParameter : Bool
deriving DecidableEq, Repr

namespace Outline

def isParameterOf (parent : Node) : Outline → Bool
  | .hole _ => false
  | .node child _ => parent.isParameterOf child

mutual

-- All holes in the order of the passes; nothing ends the search.
def holes (inParameter : Bool) : Outline → List Hole
  | .hole missing => [⟨missing, inParameter⟩]
  | .node parent children => holesOf inParameter parent children
termination_by structural outline => outline

def holesOf (inParameter : Bool) (parent : Node) : List Outline → List Hole
  | [] => []
  | child :: children =>
    child.holes (inParameter || child.isParameterOf parent) ++ holesOf inParameter parent children
termination_by structural children => children

end

theorem holesOf_eq_flatMap (inParameter : Bool) (parent : Node) (children : List Outline) :
    holesOf inParameter parent children =
      children.flatMap fun child => child.holes (inParameter || child.isParameterOf parent) := by
  induction children with
  | nil => rfl
  | cons child children ih => simp [holesOf, ih]

@[simp] theorem holes_hole (inParameter : Bool) (missing : Missing) :
    (hole missing).holes inParameter = [⟨missing, inParameter⟩] := rfl

@[simp] theorem holes_node (inParameter : Bool) (parent : Node) (children : List Outline) :
    (node parent children).holes inParameter =
      children.flatMap fun child => child.holes (inParameter || child.isParameterOf parent) := by
  rw [holes, holesOf_eq_flatMap]

theorem inParameter_of_mem_holes (outline : Outline) : ∀ hole ∈ outline.holes true, hole.inParameter = true := by
  induction outline with
  | hole missing => simp
  | node parent children ih =>
    intro hole member
    obtain ⟨child, present, inside⟩ := List.mem_flatMap.mp (holes_node true parent children ▸ member)
    exact ih child present hole (by simpa using inside)

end Outline

-- All holes of a node, and those that the printing pass can come to.
def Node.holes (node : Node) : List Hole := node.outline.holes false

def Node.printedHoles (node : Node) : List Hole := node.holes.filter fun hole => !hole.inParameter

-- What the first of some holes is reported as.
def firstMissing (holes : List Hole) : Option Missing := holes.head?.map Hole.missing

theorem firstMissing_append (first second : List Hole) :
    firstMissing (first ++ second) = (firstMissing first).or (firstMissing second) := by
  cases first <;> simp [firstMissing]

-- The counting pass stops at the first hole.

-- Whatever was counted before, a count ends well if nothing is missing, and else with what is missing first.
def Surveying.StopsAt (counting : Counting) : Option Missing → Prop
  | none => ∀ tally, ∃ after, counting tally = .ok after
  | some missing => ∀ tally, counting tally = .error missing

theorem Surveying.StopsAt.andThen {first second : Counting} {missing next : Option Missing}
    (one : first.StopsAt missing) (two : second.StopsAt next) : (first.andThen second).StopsAt (missing.or next) := by
  cases missing with
  | some found =>
    intro tally
    simp [Surveying.andThen, one tally, bind, Except.bind]
  | none =>
    cases next with
    | none =>
      intro tally
      obtain ⟨middle, entered⟩ := one tally
      obtain ⟨after, left⟩ := two middle
      exact ⟨after, by simp [Surveying.andThen, entered, bind, Except.bind, left]⟩
    | some found =>
      intro tally
      obtain ⟨middle, entered⟩ := one tally
      simp [Surveying.andThen, entered, bind, Except.bind, two middle]

theorem enterNode_stopsAt (kind : Kind) (depth : Depth) : (enterNode kind depth).StopsAt none :=
  fun tally => ⟨tally.enter kind.category depth, rfl⟩

theorem countAll_stopsAt {α : Type} {count : α → Counting} {holes : α → List Hole} {children : List α}
    (each : ∀ child ∈ children, (count child).StopsAt (firstMissing (holes child))) :
    (countAll count children).StopsAt (firstMissing (children.flatMap holes)) := by
  induction children with
  | nil => exact fun tally => ⟨tally, rfl⟩
  | cons child children ih =>
    obtain ⟨first, others⟩ := List.forall_mem_cons.mp each
    rw [List.flatMap_cons, firstMissing_append]
    exact first.andThen (ih others)

theorem Outline.count_stopsAt (outline : Outline) (depth : Depth) (inParameter : Bool) :
    (outline.count depth).StopsAt (firstMissing (outline.holes inParameter)) := by
  induction outline generalizing depth inParameter with
  | hole missing => exact fun _ => rfl
  | node parent children ih =>
    rw [Outline.count_node, Outline.holes_node]
    exact (enterNode_stopsAt _ _).andThen (countAll_stopsAt fun child present => ih child present _ _)

-- The printing pass stops at the first hole outside of parameters.

-- The holes that the printing pass comes to, up to what is reported of them.
def printedMissing (holes : List Hole) : Option Missing := firstMissing (holes.filter fun hole => !hole.inParameter)

theorem printedMissing_append (first second : List Hole) :
    printedMissing (first ++ second) = (printedMissing first).or (printedMissing second) := by
  rw [printedMissing, List.filter_append, firstMissing_append, printedMissing, printedMissing]

theorem printedMissing_parameter (outline : Outline) : printedMissing (outline.holes true) = none := by
  have none_left : (outline.holes true).filter (fun hole => !hole.inParameter) = [] := by
    rw [List.filter_eq_nil_iff]
    intro hole member
    simp [outline.inParameter_of_mem_holes hole member]
  rw [printedMissing, none_left]
  rfl

theorem Outline.isParameterOf_of_ne {parent : Node} (other : parent.kind ≠ .statement .functionDecl) (child : Outline) :
    child.isParameterOf parent = false := by
  cases child with
  | hole => rfl
  | node child => exact Node.isParameterOf_of_ne other child

theorem Outline.holes_node_of_ne {parent : Node} (other : parent.kind ≠ .statement .functionDecl)
    (inParameter : Bool) (children : List Outline) :
    (Outline.node parent children).holes inParameter = children.flatMap (Outline.holes inParameter) := by
  simp [Outline.isParameterOf_of_ne other]

theorem missing_requiredTrace {α : Type} {missing : Missing} {render : α → Trace} {outline : α → Outline}
    {place : Option α} (same : ∀ child ∈ place, (render child).missing = printedMissing ((outline child).holes false)) :
    (requiredTrace missing render place).missing =
      printedMissing ((requiredOutline missing outline place).holes false) := by
  cases place with
  | none => rfl
  | some child => exact same child rfl

theorem missing_optionalTrace {α : Type} {render : α → Trace} {outline : α → Outline} {place : Option α}
    (same : ∀ child ∈ place, (render child).missing = printedMissing ((outline child).holes false)) :
    (optionalTrace render place).missing =
      printedMissing ((place.toList.map outline).flatMap (Outline.holes false)) := by
  cases place with
  | none => rfl
  | some child => simpa [optionalTrace] using same child rfl

theorem missing_traceAll {α : Type} {render : α → Trace} {outline : α → Outline} {children : List α}
    (same : ∀ child ∈ children, (render child).missing = printedMissing ((outline child).holes false)) :
    (traceAll render children).missing = printedMissing ((children.map outline).flatMap (Outline.holes false)) := by
  induction children with
  | nil => rfl
  | cons child children ih =>
    obtain ⟨first, others⟩ := List.forall_mem_cons.mp same
    rw [traceAll, Trace.missing_append, first, ih others, List.map_cons, List.flatMap_cons, printedMissing_append]

theorem Expression.missing_render (level : Nat) (e : Expression) :
    (e.render level).missing = printedMissing (e.outline.holes false) := by
  induction e generalizing level with
  | integer | double | string | boolean | identifier => rfl
  | unary operator operand ih =>
    rw [Expression.render, Trace.missing_append, Expression.renderSlot_eq,
      missing_requiredTrace fun child present => ih child present _, Expression.outline,
      Outline.holes_node_of_ne (by simp [Node.kind]), Expression.outlineSlot_eq]
    simp
  | binary operator left right ihLeft ihRight | comparison operator left right ihLeft ihRight =>
    rw [Expression.render, Trace.missing_append, Trace.missing_append, Expression.renderSlot_eq,
      Expression.renderSlot_eq, missing_requiredTrace fun child present => ihLeft child present _,
      missing_requiredTrace fun child present => ihRight child present _, Expression.outline,
      Outline.holes_node_of_ne (by simp [Node.kind]), Expression.outlineSlot_eq, Expression.outlineSlot_eq]
    simp [printedMissing_append]
  | call callee arguments ih =>
    rw [Expression.render, Trace.missing_append, Trace.missing_append, Expression.renderList_eq,
      missing_traceAll fun child present => ih child present _, Expression.outline,
      Outline.holes_node_of_ne (by simp [Node.kind]), Expression.outlines_eq_map]
    cases arguments <;> simp

theorem Comparison.missing_render (level : Nat) (c : Comparison) :
    (c.render level).missing = printedMissing (c.outline.holes false) := by
  rw [Comparison.render, Expression.missing_render, Comparison.outline, Outline.holes_node_of_ne (by simp [Node.kind]),
    Comparison.toExpression, Expression.outline, Outline.holes_node_of_ne (by simp [Node.kind])]
  rfl

theorem Assignment.missing_renderBelow (level : Nat) (a : Assignment) :
    (a.renderBelow level).missing = printedMissing (a.below.flatMap (Outline.holes false)) := by
  rw [Assignment.renderBelow, Expression.renderSlot_eq, missing_requiredTrace fun e _ => e.missing_render _,
    Assignment.below, Expression.outlineSlot_eq]
  simp

theorem Assignment.missing_render (level : Nat) (a : Assignment) :
    (a.render level).missing = printedMissing (a.outline.holes false) := by
  rw [Assignment.render, Trace.missing_append, Assignment.missing_renderBelow, Assignment.outline,
    Outline.holes_node_of_ne (by simp [Node.kind])]
  simp

theorem Variable.missing_renderBelow (level : Nat) (v : Variable) :
    (v.renderBelow level).missing = printedMissing (v.below.flatMap (Outline.holes false)) :=
  missing_optionalTrace fun a _ => a.missing_render _

theorem Variable.missing_render (level : Nat) (v : Variable) :
    (v.render level).missing = printedMissing (v.outline.holes false) := by
  rw [Variable.render, Trace.missing_append, Variable.missing_renderBelow, Variable.outline,
    Outline.holes_node_of_ne (by simp [Node.kind])]
  simp

-- What stands for an empty place of a block, where a block may be left out and where it may not.
theorem missing_empty_eq : Trace.empty.missing = printedMissing ([].flatMap (Outline.holes false)) := rfl

theorem missing_stop_eq (missing : Missing) :
    (Trace.stop missing).missing = printedMissing ([Outline.hole missing].flatMap (Outline.holes false)) := rfl

-- A block's own two lines stop nothing, so with or without them the statements decide.
theorem Statement.missing_renderInside (level : Nat) {absent : Trace} {outlines : List Outline} {block : Option Block}
    (empty : absent.missing = printedMissing (outlines.flatMap (Outline.holes false)))
    (same : ∀ b ∈ block, ∀ s ∈ b, ∀ level, (s.render level).missing = printedMissing (s.outline.holes false)) :
    (Statement.renderInside level absent block).missing =
      printedMissing ((Statement.outlineBlock outlines block).flatMap (Outline.holes false)) := by
  cases block with
  | none => exact empty
  | some statements =>
    rw [Statement.renderInside, Statement.renderList_eq,
      missing_traceAll fun s present => same statements rfl s present _, Statement.outlineBlock, List.flatMap_singleton,
      Outline.holes_node_of_ne (by simp [Node.kind]), Statement.outlines_eq_map]

theorem Statement.missing_renderBlock (level : Nat) {absent : Trace} {outlines : List Outline} {block : Option Block}
    (empty : absent.missing = printedMissing (outlines.flatMap (Outline.holes false)))
    (same : ∀ b ∈ block, ∀ s ∈ b, ∀ level, (s.render level).missing = printedMissing (s.outline.holes false)) :
    (Statement.renderBlock level absent block).missing =
      printedMissing ((Statement.outlineBlock outlines block).flatMap (Outline.holes false)) := by
  have inside := Statement.missing_renderInside (level + 1) empty same
  cases block with
  | none => exact empty
  | some statements =>
    rw [Statement.renderBlock, Trace.missing_append, Trace.missing_append, ← inside, Statement.renderInside]
    simp

-- Below a function only the body is looked into.
theorem printedMissing_function (returnType name : String) (parameters : List Variable) (body : Option Block) :
    printedMissing ((Statement.functionDecl returnType name parameters body).outline.holes false) =
      printedMissing ((Statement.outlineBlock [.hole ⟨(Statement.functionDecl returnType name parameters body).label,
        .body⟩] body).flatMap (Outline.holes false)) := by
  have skipped (vs : List Variable) : printedMissing ((vs.map Variable.outline).flatMap fun child => child.holes
      (false || child.isParameterOf (.statement (.functionDecl returnType name parameters body)))) = none := by
    induction vs with
    | nil => rfl
    | cons v vs ih =>
      rw [List.map_cons, List.flatMap_cons, printedMissing_append, ih]
      exact congrArg (Option.or · none) (printedMissing_parameter v.outline)
  rw [Statement.outline, Outline.holes_node, List.flatMap_append, printedMissing_append, skipped]
  cases body <;> rfl

theorem Statement.missing_render (level : Nat) (s : Statement) :
    (s.render level).missing = printedMissing (s.outline.holes false) := by
  induction s generalizing level with
  | expression e =>
    rw [Statement.render, Trace.missing_append, Expression.renderSlot_eq,
      missing_requiredTrace fun child _ => child.missing_render _, Statement.outline,
      Outline.holes_node_of_ne (by simp [Node.kind, Statement.kind]), Expression.outlineSlot_eq]
    simp
  | assignment a =>
    rw [Statement.render, Trace.missing_append, Assignment.missing_renderBelow, Statement.outline,
      Outline.holes_node_of_ne (by simp [Node.kind, Statement.kind])]
    simp
  | variableDecl v =>
    rw [Statement.render, Trace.missing_append, Variable.missing_renderBelow, Statement.outline,
      Outline.holes_node_of_ne (by simp [Node.kind, Statement.kind])]
    simp
  | returning e =>
    rw [Statement.render, Trace.missing_append, missing_optionalTrace fun child _ => child.missing_render _,
      Statement.outline, Outline.holes_node_of_ne (by simp [Node.kind, Statement.kind])]
    simp
  | block statements ih =>
    rw [Statement.render, Trace.missing_append, Trace.missing_append, Statement.renderList_eq,
      missing_traceAll fun s present => ih s present _, Statement.outline,
      Outline.holes_node_of_ne (by simp [Node.kind, Statement.kind]), Statement.outlines_eq_map]
    simp
  | conditional condition thenBlock elseBlock ihThen ihElse =>
    simp only [Statement.render, Trace.missing_append]
    rw [missing_requiredTrace fun c _ => c.missing_render _, Statement.missing_renderBlock _ missing_empty_eq ihThen,
      Statement.missing_renderBlock _ missing_empty_eq ihElse, Statement.outline,
      Outline.holes_node_of_ne (by simp [Node.kind, Statement.kind])]
    simp [printedMissing_append, Option.or_assoc]
  | whileLoop condition body elseBlock ihBody ihElse =>
    have marker :
        (if elseBlock.isSome then Trace.line (level + 1) Trace.elseBodyMarker else .empty).missing = none := by
      split <;> rfl
    simp only [Statement.render, Trace.missing_append, Expression.renderSlot_eq]
    rw [missing_requiredTrace fun e _ => e.missing_render _,
      Statement.missing_renderBlock _ (missing_stop_eq _) ihBody, marker,
      Statement.missing_renderBlock _ missing_empty_eq ihElse, Statement.outline,
      Outline.holes_node_of_ne (by simp [Node.kind, Statement.kind]), Expression.outlineSlot_eq]
    simp [printedMissing_append, Option.or_assoc]
  | forLoop init condition body update ihBody =>
    simp only [Statement.render, Trace.missing_append, Expression.renderSlot_eq]
    rw [missing_requiredTrace fun a _ => a.missing_render _, missing_requiredTrace fun e _ => e.missing_render _,
      Statement.missing_renderBlock _ (missing_stop_eq _) ihBody, missing_requiredTrace fun a _ => a.missing_render _,
      Statement.outline, Outline.holes_node_of_ne (by simp [Node.kind, Statement.kind]), Expression.outlineSlot_eq]
    simp [printedMissing_append, Option.or_assoc]
  | functionDecl returnType name parameters body ihBody =>
    rw [Statement.render, Trace.missing_append, Trace.missing_append,
      Statement.missing_renderInside _ (missing_stop_eq _) ihBody, printedMissing_function]
    simp
  | classDecl name body ihBody =>
    rw [Statement.render, Trace.missing_append, Statement.missing_renderBlock _ missing_empty_eq ihBody,
      Statement.outline, Outline.holes_node_of_ne (by simp [Node.kind, Statement.kind])]
    simp

theorem Node.missing_render (level : Nat) (node : Node) :
    (node.render level).missing = printedMissing (node.outline.holes false) := by
  cases node with
  | expression e => exact e.missing_render level
  | comparison c => exact c.missing_render level
  | assignment a => exact a.missing_render level
  | variableDecl v => exact v.missing_render level
  | block b =>
    have same := (Statement.block b).missing_render level
    rw [Statement.outline, Outline.holes_node_of_ne (by simp [Node.kind, Statement.kind])] at same
    rw [Node.render, Block.render, same, Node.outline, Block.outline, Outline.holes_node_of_ne (by simp [Node.kind])]
  | statement s => exact s.missing_render level

theorem Node.missing_render_of_whole {node : Node} (whole : node.holes = []) (level : Nat) :
    (node.render level).missing = none := by
  have stops := node.missing_render level
  unfold Node.holes at whole
  rw [whole] at stops
  exact stops

end Treeline
