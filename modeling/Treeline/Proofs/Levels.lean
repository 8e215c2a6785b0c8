import Treeline.Proofs.Counting
import Treeline.Proofs.Labels
import Treeline.Proofs.Printing
import Treeline.Proofs.Sink

namespace Treeline

-- Every node is printed once, parents before their children, and its level follows from its place in the tree alone.

-- A node with the nodes above it, the nearest first.
structure Place where
  node : Node
  ancestors : List Node

mutual

def Outline.places (ancestors : List Node) : Outline → List Place
  | .hole _ => []
  | .node parent children => ⟨parent, ancestors⟩ :: Outline.placesOf (parent :: ancestors) children
termination_by structural outline => outline

def Outline.placesOf (ancestors : List Node) : List Outline → List Place
  | [] => []
  | child :: children => child.places ancestors ++ Outline.placesOf ancestors children
termination_by structural children => children

end

def Node.places (node : Node) : List Place := node.outline.places []

-- The body is the only block that stands directly below a function.
def Node.isBodyOf (parent : Node) : Node → Bool
  | .block _ => parent.kind = .statement .functionDecl
  | _ => false

def Node.isComparison (node : Node) : Bool := node.kind = .expression .comparison

namespace Place

def depth (place : Place) : Nat := place.ancestors.length

-- The steps from the node up to the root, each from a child to its parent.
def steps (place : Place) : List (Node × Node) := (place.node :: place.ancestors).zip place.ancestors

def inParameter (place : Place) : Bool := place.steps.any fun step => step.2.isParameterOf step.1

def isBody (place : Place) : Bool := place.ancestors.head?.any fun parent => parent.isBodyOf place.node

def isPrinted (place : Place) : Bool := !place.inParameter && !place.isBody

-- The comparisons above the node.
def comparisons (place : Place) : Nat := place.ancestors.countP Node.isComparison

-- The functions that have the node in their body.
def functions (place : Place) : Nat := place.steps.countP fun step => step.2.isBodyOf step.1

-- The level of the node's line when the root is printed at `start`.
def level (start : Nat) (place : Place) : Int := start + place.depth - place.comparisons - place.functions

end Place

namespace Trace

-- The other lines that stand for no node.
def markers : List String := [argumentsMarker, loopBodyMarker, elseBodyMarker, endPrefix ++ Block.label]

-- The lines of nodes, as the lines themselves tell: what is indented below a header of parameters is left out with it,
-- and so are the markers. `header` is the level of the header that has been read last.
def nodeLines (header : Option Nat) : List Line → List Line
  | [] => []
  | line :: lines =>
    if header.any (· < line.level) then nodeLines header lines
    else if line.text = parametersMarker then nodeLines (some line.level) lines
    else if line.text ∈ markers then nodeLines none lines
    else line :: nodeLines none lines

-- A header at `level` or deeper leaves nothing out at this level.
def Open (level : Nat) (header : Option Nat) : Prop := header.any (· < level) = false

theorem open_iff {level : Nat} {header : Option Nat} : Open level header ↔ ∀ above ∈ header, level ≤ above := by
  cases header <;> simp [Open]

theorem nodeLines_parameters {level : Nat} {header : Option Nat} (isOpen : Open level header) (lines : List Line) :
    nodeLines header (⟨level, parametersMarker⟩ :: lines) = nodeLines (some level) lines := by
  rw [nodeLines, isOpen]
  rfl

theorem nodeLines_marker {level : Nat} {header : Option Nat} (isOpen : Open level header) {text : String}
    (marker : text ∈ markers) (lines : List Line) :
    nodeLines header (⟨level, text⟩ :: lines) = nodeLines none lines := by
  have other : text ≠ parametersMarker := by
    rintro rfl
    revert marker
    decide
  rw [nodeLines, isOpen]
  simp only [Bool.false_eq_true, if_false, if_neg other, if_pos marker]

theorem nodeLines_create {level : Nat} {header : Option Nat} (isOpen : Open level header) (node : Node)
    (lines : List Line) :
    nodeLines header (⟨level, createPrefix ++ node.label⟩ :: lines) =
      ⟨level, createPrefix ++ node.label⟩ :: nodeLines none lines := by
  have begins : ∀ text : String, text.toList.head? ≠ some 'C' → createPrefix ++ node.label ≠ text := by
    rintro text other rfl
    exact other (by simp [createPrefix])
  have label : ∀ text : String, ':' ∉ text.toList → Vocabulary.ofText? Kind text = none →
      createPrefix ++ node.label ≠ createPrefix ++ text := by
    intro text plain unknown same
    exact node.label_ne plain unknown ((String.append_right_inj _).mp same)
  have noMarker : createPrefix ++ node.label ∉ markers := by
    intro member
    simp only [markers, List.mem_cons, List.not_mem_nil, or_false] at member
    rcases member with same | same | same | same
    · exact begins _ (by decide) same
    · exact label "Loop Body" (by decide) (by decide +kernel) same
    · exact label "Else Body" (by decide) (by decide +kernel) same
    · exact begins _ (by decide) same
  rw [nodeLines, isOpen]
  simp only [Bool.false_eq_true, if_false, if_neg (begins parametersMarker (by decide)), if_neg noMarker]

def kept (header : Option Nat) (lines : List Line) : List (String × Int) :=
  (nodeLines header lines).map fun line => (line.text, (line.level : Int))

-- All that is kept of a trace at `level` is `lines`, whatever comes before and after it at this level.
def Keeps (level : Nat) (trace : Trace) (lines : List (String × Int)) : Prop :=
  trace.missing = none → ∀ header more, Open level header →
    ∃ after, Open level after ∧ kept header (trace.lines ++ more) = lines ++ kept after more

namespace Keeps

theorem empty (level : Nat) : Keeps level .empty [] := by
  intro _ header more isOpen
  exact ⟨header, isOpen, rfl⟩

theorem stop (level : Nat) (missing : Missing) (lines : List (String × Int)) : Keeps level (.stop missing) lines := by
  intro through
  cases through

theorem append {level : Nat} {first second : Trace} {lines lines' : List (String × Int)}
    (keepsFirst : Keeps level first lines) (keepsSecond : Keeps level second lines') :
    Keeps level (first ++ second) (lines ++ lines') := by
  intro through header more isOpen
  rw [missing_append, Option.or_eq_none_iff] at through
  obtain ⟨between, openBetween, keptFirst⟩ := keepsFirst through.1 header (second.lines ++ more) isOpen
  obtain ⟨after, openAfter, keptSecond⟩ := keepsSecond through.2 between more openBetween
  refine ⟨after, openAfter, ?_⟩
  obtain ⟨own, missing⟩ := first
  cases through.1
  rw [List.append_assoc, ← keptSecond, ← keptFirst, ← List.append_assoc]
  rfl

theorem create {level inner : Nat} (node : Node) {below : Trace} {lines : List (String × Int)}
    (keeps : Keeps inner below lines) (le : level ≤ inner) :
    Keeps level (.create level node.label ++ below) ((createPrefix ++ node.label, (level : Int)) :: lines) := by
  intro through header more isOpen
  have stands : kept header (⟨level, createPrefix ++ node.label⟩ :: (below.lines ++ more)) =
      (createPrefix ++ node.label, (level : Int)) :: kept none (below.lines ++ more) := by
    rw [kept, nodeLines_create isOpen, List.map_cons]
    rfl
  obtain ⟨after, openAfter, keptBelow⟩ := keeps through none more rfl
  refine ⟨after, ?_, ?_⟩
  · rw [open_iff] at openAfter ⊢
    exact fun above member => Nat.le_trans le (openAfter above member)
  · rw [List.cons_append, ← keptBelow, ← stands]
    rfl

theorem marker {text : String} (marker : text ∈ markers) (level : Nat) : Keeps level (.line level text) [] := by
  intro _ header more isOpen
  exact ⟨none, rfl, congrArg (List.map _) (nodeLines_marker isOpen marker more)⟩

theorem parameters (level : Nat) (vs : List Variable) : Keeps level (parametersTrace level vs) [] := by
  intro _ header more isOpen
  cases vs with
  | nil => exact ⟨header, isOpen, rfl⟩
  | cons v vs =>
    refine ⟨some level, open_iff.mpr (by simp), congrArg (List.map _) ?_⟩
    refine (nodeLines_parameters isOpen _).trans ?_
    generalize v :: vs = parameters
    induction parameters with
    | nil => rfl
    | cons v vs ih => simpa [nodeLines] using ih

end Keeps

end Trace

namespace Outline

theorem placesOf_eq_flatMap (ancestors : List Node) (children : List Outline) :
    placesOf ancestors children = children.flatMap (places ancestors) := by
  induction children with
  | nil => rfl
  | cons child children ih => rw [placesOf, ih, List.flatMap_cons]

theorem places_node (ancestors : List Node) (parent : Node) (children : List Outline) :
    (node parent children).places ancestors =
      ⟨parent, ancestors⟩ :: children.flatMap (places (parent :: ancestors)) := by
  rw [places, placesOf_eq_flatMap]

theorem map_node_places (ancestors : List Node) (outline : Outline) :
    (outline.places ancestors).map Place.node = outline.nodes := by
  induction outline generalizing ancestors with
  | hole missing => rfl
  | node parent children ih =>
    rw [places_node, List.map_cons, List.map_flatMap, nodes_node]
    congr 1
    induction children with
    | nil => rfl
    | cons child children step =>
      obtain ⟨first, others⟩ := List.forall_mem_cons.mp ih
      rw [List.flatMap_cons, List.flatMap_cons, first, step others]

theorem inParameter_of_mem_places (outline : Outline) (ancestors : List Node)
    (inside : ∀ parent children, outline = node parent children → Place.inParameter ⟨parent, ancestors⟩ = true) :
    ∀ place ∈ outline.places ancestors, place.inParameter = true := by
  induction outline generalizing ancestors with
  | hole missing =>
    intro place member
    cases member
  | node parent children ih =>
    intro place member
    have above := inside parent children rfl
    rw [places_node] at member
    rcases List.mem_cons.mp member with rfl | below
    · exact above
    · obtain ⟨child, present, inChild⟩ := List.mem_flatMap.mp below
      refine ih child present (parent :: ancestors) (fun node _ _ => ?_) place inChild
      simp only [Place.inParameter, Place.steps, List.zip_cons_cons, List.any_cons] at above ⊢
      rw [above, Bool.or_true]

-- The lines of nodes of a tree when the root of the whole is printed at `start`.
def printed (start : Nat) (ancestors : List Node) (outline : Outline) : List (String × Int) :=
  ((outline.places ancestors).filter Place.isPrinted).map fun place =>
    (Trace.createPrefix ++ place.node.label, place.level start)

theorem printed_below (start : Nat) (ancestors : List Node) (children : List Outline) :
    (((children.flatMap (places ancestors)).filter Place.isPrinted).map fun place =>
      (Trace.createPrefix ++ place.node.label, place.level start)) = children.flatMap (printed start ancestors) := by
  induction children with
  | nil => rfl
  | cons child children ih =>
    rw [List.flatMap_cons, List.flatMap_cons, ← ih, List.filter_append, List.map_append]
    rfl

theorem printed_node {start : Nat} {ancestors : List Node} {parent : Node}
    (isPrinted : Place.isPrinted ⟨parent, ancestors⟩ = true) (children : List Outline) :
    (node parent children).printed start ancestors =
      (Trace.createPrefix ++ parent.label, Place.level start ⟨parent, ancestors⟩) ::
        children.flatMap (printed start (parent :: ancestors)) := by
  rw [printed, places_node, List.filter_cons_of_pos isPrinted, List.map_cons, printed_below]

theorem printed_unprinted {start : Nat} {ancestors : List Node} {parent : Node}
    (unprinted : Place.isPrinted ⟨parent, ancestors⟩ = false) (children : List Outline) :
    (node parent children).printed start ancestors = children.flatMap (printed start (parent :: ancestors)) := by
  rw [printed, places_node, List.filter_cons_of_neg (by simp [unprinted]), printed_below]

end Outline

-- A place outside of all parameters, whose node is to be printed at `level`.
structure Place.Stands (start level : Nat) (place : Place) : Prop where
  outside : place.inParameter = false
  level_eq : place.level start = level

theorem Place.Stands.child {start level inner : Nat} {parent child : Node} {ancestors : List Node}
    (stands : Stands start level ⟨parent, ancestors⟩) (noParameter : parent.isParameterOf child = false)
    (deeper : inner + parent.isComparison.toNat + (parent.isBodyOf child).toNat = level + 1) :
    Stands start inner ⟨child, parent :: ancestors⟩ := by
  obtain ⟨outside, level_eq⟩ := stands
  constructor
  · simp only [inParameter, steps, List.zip_cons_cons, List.any_cons] at outside ⊢
    rw [outside, noParameter]
    rfl
  · simp only [Place.level, depth, comparisons, functions, steps, List.length_cons, List.countP_cons,
      List.zip_cons_cons] at level_eq ⊢
    cases compared : parent.isComparison <;> cases inBody : parent.isBodyOf child <;>
      simp [compared, inBody] at deeper ⊢ <;>
      omega

namespace Trace.Keeps

variable {start level inner : Nat} {ancestors : List Node}

theorem node (node : Node) {children : List Outline} {below : Trace}
    (stands : Place.Stands start level ⟨node, ancestors⟩) (noBody : Place.isBody ⟨node, ancestors⟩ = false)
    (le : level ≤ inner)
    (keeps : Keeps inner below (children.flatMap (Outline.printed start (node :: ancestors)))) :
    Keeps level (.create level node.label ++ below) ((Outline.node node children).printed start ancestors) := by
  have isPrinted : Place.isPrinted ⟨node, ancestors⟩ = true := by
    rw [Place.isPrinted, stands.outside, noBody]
    rfl
  rw [Outline.printed_node isPrinted, stands.level_eq]
  exact keeps.create node le

theorem required {α : Type} {render : α → Trace} {outline : α → Outline} {place : Option α}
    (each : ∀ child ∈ place, Keeps level (render child) ((outline child).printed start ancestors))
    (missing missing' : Missing) : Keeps level (requiredTrace missing render place)
      ((requiredOutline missing' outline place).printed start ancestors) := by
  cases place with
  | none => exact stop level missing _
  | some child => exact each child rfl

theorem all {α : Type} {render : α → Trace} {lines : α → List (String × Int)} {children : List α}
    (each : ∀ child ∈ children, Keeps level (render child) (lines child)) :
    Keeps level (traceAll render children) (children.flatMap lines) := by
  induction children with
  | nil => exact empty level
  | cons child children ih =>
    obtain ⟨first, others⟩ := List.forall_mem_cons.mp each
    exact first.append (ih others)

end Trace.Keeps

open Trace (Keeps)

theorem Place.isBody_eq_false {node : Node} (other : ∀ parent : Node, parent.isBodyOf node = false)
    (ancestors : List Node) : Place.isBody ⟨node, ancestors⟩ = false := by
  cases ancestors with
  | nil => rfl
  | cons parent ancestors => exact other parent

theorem Expression.keeps_render (e : Expression) {start level : Nat} {ancestors : List Node}
    (stands : Place.Stands start level ⟨.expression e, ancestors⟩) :
    Keeps level (e.render level) (e.outline.printed start ancestors) := by
  induction e generalizing level ancestors with
  | integer | double | string | boolean | identifier =>
    rw [Expression.render, Expression.outline]
    refine Keeps.node (.expression _) stands (Place.isBody_eq_false (fun _ => rfl) _) (Nat.le_refl level) ?_
    exact Keeps.empty level
  | unary operator operand ih =>
    rw [Expression.render, Expression.outline, Expression.renderSlot_eq, Expression.outlineSlot_eq]
    refine Keeps.node (.expression _) stands (Place.isBody_eq_false (fun _ => rfl) _) (Nat.le_succ level) ?_
    rw [List.flatMap_singleton]
    exact .required (fun child present => ih child present (stands.child rfl rfl)) _ _
  | binary operator left right ihLeft ihRight =>
    rw [Expression.render, Expression.outline]
    simp only [Expression.renderSlot_eq, Expression.outlineSlot_eq]
    refine Keeps.node (.expression _) stands (Place.isBody_eq_false (fun _ => rfl) _) (Nat.le_succ level) ?_
    rw [List.flatMap_cons, List.flatMap_singleton]
    exact (Keeps.required (fun child present => ihLeft child present (stands.child rfl rfl)) _ _).append
      (.required (fun child present => ihRight child present (stands.child rfl rfl)) _ _)
  | comparison operator left right ihLeft ihRight =>
    rw [Expression.render, Expression.outline]
    simp only [Expression.renderSlot_eq, Expression.outlineSlot_eq]
    refine Keeps.node (.expression _) stands (Place.isBody_eq_false (fun _ => rfl) _) (Nat.le_refl level) ?_
    rw [List.flatMap_cons, List.flatMap_singleton]
    exact (Keeps.required (fun child present => ihLeft child present (stands.child rfl rfl)) _ _).append
      (.required (fun child present => ihRight child present (stands.child rfl rfl)) _ _)
  | call callee arguments ih =>
    rw [Expression.render, Expression.outline, Expression.renderList_eq, Expression.outlines_eq_map]
    refine Keeps.node (.expression _) stands (Place.isBody_eq_false (fun _ => rfl) _) (Nat.le_succ level) ?_
    rw [List.flatMap_map]
    have header : Keeps (level + 1)
        (if arguments.isEmpty then .empty else .line (level + 1) Trace.argumentsMarker) [] := by
      split
      · exact .empty _
      · exact .marker (by decide) _
    exact header.append (.all fun child present => ih child present (stands.child rfl rfl))

theorem Comparison.keeps_render (c : Comparison) {start level : Nat} {ancestors : List Node}
    (stands : Place.Stands start level ⟨.comparison c, ancestors⟩) :
    Keeps level (c.render level) (c.outline.printed start ancestors) := by
  rw [Comparison.render, Comparison.outline, Comparison.toExpression, Expression.render]
  simp only [Expression.renderSlot_eq, Expression.outlineSlot_eq]
  refine Keeps.node (.comparison _) stands (Place.isBody_eq_false (fun _ => rfl) _) (Nat.le_refl level) ?_
  rw [List.flatMap_cons, List.flatMap_singleton]
  exact (Keeps.required (fun child _ => child.keeps_render (stands.child rfl rfl)) _ _).append
    (.required (fun child _ => child.keeps_render (stands.child rfl rfl)) _ _)

-- What stands below an assignment or a variable, also where it is a statement.

theorem Assignment.keeps_renderBelow (a : Assignment) {start level : Nat} {ancestors : List Node}
    (each : ∀ e ∈ a.expression, Place.Stands start (level + 1) ⟨.expression e, ancestors⟩) :
    Keeps (level + 1) (a.renderBelow level) (a.below.flatMap (Outline.printed start ancestors)) := by
  rw [Assignment.renderBelow, Assignment.below, List.flatMap_singleton, Expression.renderSlot_eq,
    Expression.outlineSlot_eq]
  exact .required (fun e present => e.keeps_render (each e present)) _ _

theorem Assignment.keeps_render (a : Assignment) {start level : Nat} {ancestors : List Node}
    (stands : Place.Stands start level ⟨.assignment a, ancestors⟩) :
    Keeps level (a.render level) (a.outline.printed start ancestors) :=
  .node (.assignment a) stands (Place.isBody_eq_false (fun _ => rfl) _) (Nat.le_succ level)
    (a.keeps_renderBelow fun _ _ => stands.child rfl rfl)

theorem Trace.Keeps.optional {α : Type} {render : α → Trace} {outline : α → Outline} {place : Option α}
    {start level : Nat} {ancestors : List Node}
    (each : ∀ child ∈ place, Keeps level (render child) ((outline child).printed start ancestors)) :
    Keeps level (optionalTrace render place)
      ((place.toList.map outline).flatMap (Outline.printed start ancestors)) := by
  cases place with
  | none => exact .empty level
  | some child =>
    rw [Option.toList_some, List.map_singleton, List.flatMap_singleton]
    exact each child rfl

theorem Variable.keeps_renderBelow (v : Variable) {start level : Nat} {ancestors : List Node}
    (each : ∀ a ∈ v.assignment, Place.Stands start (level + 1) ⟨.assignment a, ancestors⟩) :
    Keeps (level + 1) (v.renderBelow level) (v.below.flatMap (Outline.printed start ancestors)) :=
  .optional fun a present => a.keeps_render (each a present)

theorem Variable.keeps_render (v : Variable) {start level : Nat} {ancestors : List Node}
    (stands : Place.Stands start level ⟨.variableDecl v, ancestors⟩) :
    Keeps level (v.render level) (v.outline.printed start ancestors) :=
  .node (.variableDecl v) stands (Place.isBody_eq_false (fun _ => rfl) _) (Nat.le_succ level)
    (v.keeps_renderBelow fun _ _ => stands.child rfl rfl)

-- Parameters leave no line of a node.
theorem printed_parameters (start : Nat) {parent : Node} (function : parent.kind = .statement .functionDecl)
    (ancestors : List Node) (parameters : List Variable) :
    (parameters.map Variable.outline).flatMap (Outline.printed start (parent :: ancestors)) = [] := by
  rw [List.flatMap_map]
  refine List.flatMap_eq_nil_iff.mpr fun v _ => ?_
  have inside := Outline.inParameter_of_mem_places v.outline (parent :: ancestors) fun node children same => by
    cases same
    simp [Place.inParameter, Place.steps, Node.isParameterOf, function]
  rw [Outline.printed, List.filter_eq_nil_iff.mpr, List.map_nil]
  intro place member
  simp [Place.isPrinted, inside place member]

namespace Statement

theorem keeps_renderList {ss : List Statement} {start level : Nat} {ancestors : List Node}
    (each : ∀ s ∈ ss, Keeps level (s.render level) (s.outline.printed start ancestors)) :
    Keeps level (renderList level ss)
      ((outlines ss).flatMap (Outline.printed start ancestors)) := by
  rw [renderList_eq, outlines_eq_map, List.flatMap_map]
  exact .all each

end Statement

-- A block, also where it is a statement: its lines end with a marker.
theorem Block.keeps_lines {b : Block} {node : Node} {start level : Nat} {ancestors : List Node}
    (label : node.label = Block.label) (stands : Place.Stands start level ⟨node, ancestors⟩)
    (noBody : Place.isBody ⟨node, ancestors⟩ = false)
    (each : ∀ s ∈ b,
      Keeps (level + 1) (s.render (level + 1)) (s.outline.printed start (node :: ancestors))) :
    Keeps level (.create level Block.label ++ (Statement.renderList (level + 1) b ++ .close level Block.label))
      ((Outline.node node (Statement.outlines b)).printed start ancestors) := by
  have opening := Keeps.node node stands noBody (Nat.le_succ level) (Statement.keeps_renderList each)
  rw [label] at opening
  rw [← Trace.append_assoc, ← List.append_nil (Outline.printed start _ _)]
  exact opening.append (.marker (by decide) level)

namespace Statement

theorem keeps_renderBlock {absent : Trace} {outlines : List Outline} {block : Option Block} {start level : Nat}
    {parent : Node} {ancestors : List Node} (noBody : ∀ b, parent.isBodyOf (.block b) = false)
    (stands : ∀ b, Place.Stands start level ⟨.block b, parent :: ancestors⟩)
    (empty : Keeps level absent (outlines.flatMap (Outline.printed start (parent :: ancestors))))
    (each : ∀ b ∈ block, ∀ s ∈ b, ∀ {level : Nat} {ancestors : List Node},
      Place.Stands start level ⟨.statement s, ancestors⟩ →
        Keeps level (s.render level) (s.outline.printed start ancestors)) :
    Keeps level (renderBlock level absent block)
      ((outlineBlock outlines block).flatMap (Outline.printed start (parent :: ancestors))) := by
  cases block with
  | none => exact empty
  | some b =>
    rw [outlineBlock, List.flatMap_singleton]
    refine Block.keeps_lines rfl (stands b) (by simp [Place.isBody, noBody]) fun s present => ?_
    exact each b rfl s present ((stands b).child rfl rfl)

theorem keeps_render (s : Statement) {start level : Nat} {ancestors : List Node}
    (stands : Place.Stands start level ⟨.statement s, ancestors⟩) :
    Keeps level (s.render level) (s.outline.printed start ancestors) := by
  induction s generalizing level ancestors with
  | expression slot =>
    rw [Statement.render, Statement.outline, Expression.renderSlot_eq, Expression.outlineSlot_eq]
    refine Keeps.node (.statement _) stands (Place.isBody_eq_false (fun _ => rfl) _) (Nat.le_succ level) ?_
    rw [List.flatMap_singleton]
    exact .required (fun e _ => e.keeps_render (stands.child rfl rfl)) _ _
  | assignment a =>
    rw [Statement.render, Statement.outline]
    refine Keeps.node (.statement _) stands (Place.isBody_eq_false (fun _ => rfl) _) (Nat.le_succ level) ?_
    exact a.keeps_renderBelow fun _ _ => stands.child rfl rfl
  | variableDecl v =>
    rw [Statement.render, Statement.outline]
    refine Keeps.node (.statement _) stands (Place.isBody_eq_false (fun _ => rfl) _) (Nat.le_succ level) ?_
    exact v.keeps_renderBelow fun _ _ => stands.child rfl rfl
  | returning place =>
    rw [Statement.render, Statement.outline]
    refine Keeps.node (.statement _) stands (Place.isBody_eq_false (fun _ => rfl) _) (Nat.le_succ level) ?_
    exact .optional fun e _ => e.keeps_render (stands.child rfl rfl)
  | block b ih =>
    rw [Statement.render, Statement.outline]
    refine Block.keeps_lines rfl stands (Place.isBody_eq_false (fun _ => rfl) _) fun s present => ?_
    exact ih s present (stands.child rfl rfl)
  | conditional condition thenBlock elseBlock ihThen ihElse =>
    rw [Statement.render, Statement.outline, Trace.append_assoc]
    refine Keeps.node (.statement _) stands (Place.isBody_eq_false (fun _ => rfl) _) (Nat.le_succ level) ?_
    rw [List.flatMap_cons, List.flatMap_append]
    refine (Keeps.required (fun c _ => c.keeps_render (stands.child rfl rfl)) _ _).append (.append ?_ ?_)
    · exact keeps_renderBlock (fun _ => rfl) (fun _ => stands.child rfl rfl) (.empty _) ihThen
    · exact keeps_renderBlock (fun _ => rfl) (fun _ => stands.child rfl rfl) (.empty _) ihElse
  | whileLoop condition body elseBlock ihBody ihElse =>
    rw [Statement.render, Statement.outline, Trace.append_assoc, Trace.append_assoc, Trace.append_assoc,
      Expression.renderSlot_eq, Expression.outlineSlot_eq]
    refine Keeps.node (.statement _) stands (Place.isBody_eq_false (fun _ => rfl) _) (Nat.le_succ level) ?_
    rw [List.flatMap_cons, List.flatMap_append]
    have marker : Keeps (level + 1)
        (if elseBlock.isSome then .line (level + 1) Trace.elseBodyMarker else .empty) [] := by
      split
      · exact .marker (by decide) _
      · exact .empty _
    refine (Keeps.required (fun e _ => e.keeps_render (stands.child rfl rfl)) _ _).append ?_
    refine (Keeps.marker (by decide) (level + 1)).append (.append ?_ (marker.append ?_))
    · refine keeps_renderBlock (fun _ => rfl) (fun _ => stands.child rfl rfl) ?_ ihBody
      exact .stop _ _ _
    · exact keeps_renderBlock (fun _ => rfl) (fun _ => stands.child rfl rfl) (.empty _) ihElse
  | forLoop init condition body update ih =>
    rw [Statement.render, Statement.outline, Trace.append_assoc, Trace.append_assoc, Trace.append_assoc,
      Expression.renderSlot_eq, Expression.outlineSlot_eq]
    refine Keeps.node (.statement _) stands (Place.isBody_eq_false (fun _ => rfl) _) (Nat.le_succ level) ?_
    rw [List.flatMap_cons, List.flatMap_cons, List.flatMap_append, List.flatMap_singleton]
    refine (Keeps.required (fun a _ => a.keeps_render (stands.child rfl rfl)) _ _).append ?_
    refine (Keeps.required (fun e _ => e.keeps_render (stands.child rfl rfl)) _ _).append ?_
    refine (Keeps.marker (by decide) (level + 1)).append (.append ?_ ?_)
    · refine keeps_renderBlock (fun _ => rfl) (fun _ => stands.child rfl rfl) ?_ ih
      exact .stop _ _ _
    · exact Keeps.required (fun a _ => a.keeps_render (stands.child rfl rfl)) _ _
  | functionDecl returnType name parameters body ih =>
    rw [Statement.render, Statement.outline]
    refine Keeps.node (.statement _) stands (Place.isBody_eq_false (fun _ => rfl) _) (Nat.le_succ level) ?_
    rw [List.flatMap_append, printed_parameters start rfl]
    refine (Keeps.parameters (level + 1) parameters).append ?_
    cases body with
    | none => exact .stop _ _ _
    | some b =>
      -- The block itself has no line, so its statements take the level that it would have.
      have standsBody : Place.Stands start level
          ⟨.block b, .statement (functionDecl returnType name parameters (some b)) :: ancestors⟩ := stands.child rfl rfl
      have unprinted : Place.isPrinted
          ⟨.block b, .statement (functionDecl returnType name parameters (some b)) :: ancestors⟩ = false := by
        simp [Place.isPrinted, Place.isBody, Node.isBodyOf, Node.kind, Statement.kind]
      rw [outlineBlock, List.flatMap_singleton, Outline.printed_unprinted unprinted, renderInside]
      exact keeps_renderList fun s present => ih b rfl s present (standsBody.child rfl rfl)
  | classDecl name body ih =>
    rw [Statement.render, Statement.outline]
    refine Keeps.node (.statement _) stands (Place.isBody_eq_false (fun _ => rfl) _) (Nat.le_succ level) ?_
    exact keeps_renderBlock (fun _ => rfl) (fun _ => stands.child rfl rfl) (.empty _) ih

end Statement

theorem Block.keeps_render (b : Block) {start level : Nat} {ancestors : List Node}
    (stands : Place.Stands start level ⟨.block b, ancestors⟩) (noBody : Place.isBody ⟨.block b, ancestors⟩ = false) :
    Keeps level (Block.render level b) ((Block.outline b).printed start ancestors) := by
  rw [Block.render, Statement.render, Block.outline]
  exact Block.keeps_lines rfl stands noBody fun s _ => s.keeps_render (stands.child rfl rfl)

theorem Node.keeps_render (node : Node) (level : Nat) :
    Keeps level (node.render level) (node.outline.printed level []) := by
  have stands : Place.Stands level level ⟨node, []⟩ := ⟨rfl, by simp [Place.level, Place.depth, Place.comparisons,
    Place.functions, Place.steps]⟩
  cases node with
  | expression e => exact e.keeps_render stands
  | comparison c => exact c.keeps_render stands
  | assignment a => exact a.keeps_render stands
  | variableDecl v => exact v.keeps_render stands
  | block b => exact Block.keeps_render b stands rfl
  | statement s => exact s.keeps_render stands

-- The counting pass comes to the same places, each at its depth.

def Tally.enterPlace (tally : Tally) (place : Place) : Tally := tally.enter place.node.kind.category place.depth

theorem Outline.tally_of_count (outline : Outline) (ancestors : List Node) {tally after : Tally}
    (counted : outline.count ancestors.length tally = .ok after) :
    after = (outline.places ancestors).foldl Tally.enterPlace tally := by
  induction outline generalizing ancestors tally after with
  | hole missing => cases counted
  | node parent children ih =>
    rw [Outline.count_node] at counted
    rw [places_node, List.foldl_cons]
    have below : countAll (Outline.count (ancestors.length + 1)) children (tally.enterPlace ⟨parent, ancestors⟩) =
        .ok after := counted
    clear counted
    generalize tally.enterPlace ⟨parent, ancestors⟩ = entered at below ⊢
    induction children generalizing entered with
    | nil =>
      cases below
      rfl
    | cons child children step =>
      obtain ⟨first, others⟩ := List.forall_mem_cons.mp ih
      rw [List.flatMap_cons, List.foldl_append]
      cases counted : child.count (ancestors.length + 1) entered with
      | error missing =>
        simp [countAll, Surveying.andThen, counted, bind, Except.bind] at below
      | ok between =>
        simp only [countAll, Surveying.andThen, counted, bind, Except.bind] at below
        rw [← first (parent :: ancestors) counted]
        exact step others between below

-- The lines of nodes, and only they, are the places that the printing pass comes to, in the order of the tree; the
-- counting pass comes to all places, each at the depth from which its level is told.
theorem created_in_preorder (node : Node) (level : Nat) (refusal : Refusal)
    (printed : ((Sink.new none refusal).print (node.render level)).2 = .ok ()) :
    ((Sink.new none refusal).print (node.render level)).1.bytes = (node.render level).lines.flatMap Line.bytes ∧
    ((Trace.nodeLines none (node.render level).lines).map fun line => (line.text, (line.level : Int))) =
      ((node.places.filter Place.isPrinted).map fun place =>
        (Trace.createPrefix ++ place.node.label, (level : Int) + place.depth - place.comparisons - place.functions)) ∧
    node.places.map Place.node = node.nodes ∧
    ∀ after, node.tally = .ok after → after = node.places.foldl Tally.enterPlace Tally.empty := by
  rw [Sink.print_unlimited] at printed ⊢
  have through : (node.render level).missing = none := by
    cases missing : (node.render level).missing with
    | none => rfl
    | some slot => simp [Trace.outcome, missing] at printed
  refine ⟨rfl, ?_, node.outline.map_node_places [], ?_⟩
  · obtain ⟨header, -, kept⟩ := node.keeps_render level through none [] rfl
    rw [List.append_nil, Trace.kept, Trace.kept, Trace.nodeLines, List.map_nil, List.append_nil] at kept
    exact kept
  · intro after counted
    rw [Node.tally, Node.count_eq] at counted
    exact node.outline.tally_of_count [] counted

-- A parameter whose line looks like that of a block, and a comparison below an argument of an operand of a comparison.
theorem created_in_preorder_nested :
    let inner : Expression := .comparison .less (some (.integer 1)) (some (.identifier "y"))
    let node : Node := .statement (.functionDecl "int" "f" [⟨"Create", "Block", some ⟨"x", some (.integer 0)⟩⟩]
      (some [.returning (some (.comparison .equal (some (.call "g" [inner])) (some (.boolean true))))]))
    ((Sink.new none .full).print (node.render 2)).2 = .ok () ∧
    ((Trace.nodeLines none (node.render 2).lines).map fun line => (line.text, (line.level : Int))) =
      [("Create FunctionDeclaration: int f", 2), ("Create Return", 3), ("Create CompOperator: ==", 4),
        ("Create MethodCall: g", 4), ("Create CompOperator: <", 5), ("Create Integer: 1", 5),
        ("Create Identifier: y", 5), ("Create Boolean: true", 4)] := by
  intro inner node
  have printed : ((Sink.new none .full).print (node.render 2)).2 = .ok () := by
    rw [Sink.print_unlimited]
    rfl
  refine ⟨printed, (created_in_preorder node 2 .full printed).2.1.trans ?_⟩
  decide +kernel

end Treeline
