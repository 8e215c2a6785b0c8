import Treeline.Proofs.EmptySlots
import Treeline.Proofs.Levels

namespace Treeline

-- The printing pass, like the counting pass, is one traversal of the outline. All that sets one kind of node apart from
-- another is which lines it has before, between and behind its children, and how deep the children stand.

-- The markers before the first children of a node, where there are any.
def Kind.markers : Kind → List (Option String)
  | .expression .call => [some Trace.argumentsMarker]
  | .statement .whileLoop => [none, some Trace.loopBodyMarker, some Trace.elseBodyMarker]
  | .statement .forLoop => [none, none, some Trace.loopBodyMarker]
  | _ => []

theorem mem_of_marker {markers : List (Option String)} {text : String} (found : text ∈ markers.head?.join) :
    some text ∈ markers := by
  cases markers with
  | nil => cases found
  | cons marker markers => exact found ▸ List.mem_cons_self

theorem Kind.newline_not_mem_markers (kind : Kind) : ∀ text, some text ∈ kind.markers → '\n' ∉ text.toList := by
  unfold Kind.markers
  split <;> simp [Trace.argumentsMarker, Trace.loopBodyMarker, Trace.elseBodyMarker]

-- What is printed of a parameter.
def Variable.parameterText (v : Variable) : String := v.typeName ++ " " ++ v.name

theorem lines_parametersTrace (level : Nat) (vs : List Variable) : (parametersTrace level vs).lines =
    if vs.isEmpty then []
    else ⟨level, Trace.parametersMarker⟩ :: vs.map fun v => ⟨level + 1, v.parameterText⟩ := by
  cases vs <;> rfl

namespace Place

-- Whether the node itself is a parameter. Its function prints it.
def isParameter (place : Place) : Bool := place.ancestors.head?.any fun parent => parent.isParameterOf place.node

-- Whether the node is a block with lines of its own.
def isBlock (place : Place) : Bool := place.node.kind = .statement .block && !place.isBody

-- What is printed before the children of the node.
def opening (level : Nat) (place : Place) : Trace :=
  if place.isBody then .empty
  else .create level place.node.label ++ parametersTrace (level + 1) place.node.parameters

theorem opening_of_ne {place : Place} (noBody : place.isBody = false) (level : Nat) :
    place.opening level = .create level place.node.label ++ parametersTrace (level + 1) place.node.parameters := by
  rw [opening, noBody]
  rfl

-- The level of the children.
def inner (level : Nat) (place : Place) : Nat := if place.isBody || place.node.isComparison then level else level + 1

-- What is printed behind the children.
def closing (level : Nat) (place : Place) : Trace := if place.isBlock then .close level Block.label else .empty

-- Only a block can be a body.
theorem exists_body {place : Place} (body : place.isBody = true) : ∃ b, place.node = .block b := by
  obtain ⟨node, ancestors⟩ := place
  cases node with
  | block b => exact ⟨b, rfl⟩
  | expression | comparison | assignment | variableDecl | statement =>
    rw [isBody_eq_false fun _ => rfl] at body
    cases body

end Place

namespace Outline

mutual

def trace (ancestors : List Node) (level : Nat) : Outline → Trace
  | .hole missing => .stop missing
  | .node parent children =>
    if Place.isParameter ⟨parent, ancestors⟩ then .empty
    else Place.opening level ⟨parent, ancestors⟩ ++
      (traceList (parent :: ancestors) (Place.inner level ⟨parent, ancestors⟩) parent.kind.markers children ++
        Place.closing level ⟨parent, ancestors⟩)
termination_by structural outline => outline

def traceList (ancestors : List Node) (level : Nat) (markers : List (Option String)) : List Outline → Trace
  | [] => .empty
  | child :: children =>
    optionalTrace (Trace.line level) markers.head?.join ++
      (child.trace ancestors level ++ traceList ancestors level markers.tail children)
termination_by structural children => children

end

variable {ancestors : List Node} {level : Nat}

theorem trace_parameter {parent : Node} (parameter : Place.isParameter ⟨parent, ancestors⟩ = true)
    (children : List Outline) : (Outline.node parent children).trace ancestors level = .empty := by
  rw [trace, if_pos parameter]

theorem trace_node {parent : Node} (noParameter : Place.isParameter ⟨parent, ancestors⟩ = false)
    (children : List Outline) :
    (Outline.node parent children).trace ancestors level = Place.opening level ⟨parent, ancestors⟩ ++
      (traceList (parent :: ancestors) (Place.inner level ⟨parent, ancestors⟩) parent.kind.markers children ++
        Place.closing level ⟨parent, ancestors⟩) := by
  rw [trace, if_neg (by simp [noParameter])]

theorem isParameter_eq_false {parent : Node} (other : ∀ above : Node, above.isParameterOf parent = false)
    (ancestors : List Node) : Place.isParameter ⟨parent, ancestors⟩ = false := by
  cases ancestors with
  | nil => rfl
  | cons above others => exact other above

-- Most nodes have nothing but the line of their own.
theorem trace_plain {parent : Node} (markers : List (Option String)) (marked : parent.kind.markers = markers)
    (noParameter : ∀ above : Node, above.isParameterOf parent = false)
    (noBody : ∀ above : Node, above.isBodyOf parent = false) (alone : parent.parameters = [])
    (noComparison : parent.isComparison = false) (noBlock : decide (parent.kind = .statement .block) = false)
    (children : List Outline) :
    (Outline.node parent children).trace ancestors level =
      .create level parent.label ++ traceList (parent :: ancestors) (level + 1) markers children := by
  rw [trace_node (isParameter_eq_false noParameter _), Place.opening, Place.inner, Place.closing, Place.isBlock,
    Place.isBody_eq_false noBody, alone, noComparison, noBlock, marked]
  exact congrArg _ (Trace.append_empty _)

-- The operands of a comparison stay at its level.
theorem trace_comparison {parent : Node} (comparison : parent.kind = .expression .comparison)
    (noParameter : ∀ above : Node, above.isParameterOf parent = false)
    (noBody : ∀ above : Node, above.isBodyOf parent = false) (alone : parent.parameters = [])
    (children : List Outline) :
    (Outline.node parent children).trace ancestors level =
      .create level parent.label ++ traceList (parent :: ancestors) level [] children := by
  rw [trace_node (isParameter_eq_false noParameter _), Place.opening, Place.inner, Place.closing, Place.isBlock,
    Place.isBody_eq_false noBody, alone, Node.isComparison, comparison]
  exact congrArg _ (Trace.append_empty _)

-- A function lists its parameters before anything else.
theorem trace_function {parent : Node} (function : parent.kind = .statement .functionDecl)
    (noParameter : ∀ above : Node, above.isParameterOf parent = false)
    (noBody : ∀ above : Node, above.isBodyOf parent = false) (children : List Outline) :
    (Outline.node parent children).trace ancestors level =
      .create level parent.label ++ (parametersTrace (level + 1) parent.parameters ++
        traceList (parent :: ancestors) (level + 1) [] children) := by
  rw [trace_node (isParameter_eq_false noParameter _), Place.opening, Place.inner, Place.closing, Place.isBlock,
    Place.isBody_eq_false noBody, Node.isComparison, function]
  exact (congrArg _ (Trace.append_empty _)).trans (Trace.append_assoc ..)

theorem traceList_cons (markers : List (Option String)) (child : Outline) (children : List Outline) :
    traceList ancestors level markers (child :: children) =
      optionalTrace (Trace.line level) markers.head?.join ++
        (child.trace ancestors level ++ traceList ancestors level markers.tail children) := rfl

theorem traceList_unmarked (markers : List (Option String)) (child : Outline) (children : List Outline) :
    traceList ancestors level (none :: markers) (child :: children) =
      child.trace ancestors level ++ traceList ancestors level markers children := rfl

theorem traceList_singleton (child : Outline) :
    traceList ancestors level [] [child] = child.trace ancestors level := Trace.append_empty _

theorem traceList_pair (first second : Outline) :
    traceList ancestors level [] [first, second] = first.trace ancestors level ++ second.trace ancestors level := by
  rw [traceList_cons]
  exact congrArg (first.trace ancestors level ++ ·) (traceList_singleton second)

theorem traceList_map {α : Type} {render : α → Trace} {outline : α → Outline} {children : List α}
    (same : ∀ child ∈ children, render child = (outline child).trace ancestors level) :
    traceAll render children = traceList ancestors level [] (children.map outline) := by
  induction children with
  | nil => rfl
  | cons child children ih =>
    obtain ⟨first, others⟩ := List.forall_mem_cons.mp same
    rw [traceAll, first, ih others]
    rfl

theorem trace_required {α : Type} {render : α → Trace} {outline : α → Outline} {place : Option α}
    (same : ∀ child ∈ place, render child = (outline child).trace ancestors level) (missing : Missing) :
    requiredTrace missing render place = (requiredOutline missing outline place).trace ancestors level := by
  cases place with
  | none => rfl
  | some child => exact same child rfl

theorem trace_optional {α : Type} {render : α → Trace} {outline : α → Outline} {place : Option α}
    (same : ∀ child ∈ place, render child = (outline child).trace ancestors level) :
    optionalTrace render place = traceList ancestors level [] (place.toList.map outline) := by
  cases place with
  | none => rfl
  | some child => exact (same child rfl).trans (traceList_singleton _).symm

end Outline

open Outline

theorem Expression.render_eq_trace (e : Expression) (ancestors : List Node) (level : Nat) :
    e.render level = e.outline.trace ancestors level := by
  induction e generalizing ancestors level with
  | integer | double | string | boolean | identifier =>
    rw [Expression.render, Expression.outline, trace_plain [] rfl (fun _ => rfl) (fun _ => rfl) rfl rfl rfl]
    rfl
  | unary operator operand ih =>
    rw [Expression.render, Expression.outline, trace_plain [] rfl (fun _ => rfl) (fun _ => rfl) rfl rfl rfl,
      Expression.renderSlot_eq, Expression.outlineSlot_eq,
      trace_required fun child present => ih child present (.expression (.unary operator operand) :: ancestors) _]
    exact congrArg _ (traceList_singleton _).symm
  | binary operator left right ihLeft ihRight =>
    have below := fun child present => ihLeft child present (.expression (.binary operator left right) :: ancestors)
    have behind := fun child present => ihRight child present (.expression (.binary operator left right) :: ancestors)
    rw [Expression.render, Expression.outline, trace_plain [] rfl (fun _ => rfl) (fun _ => rfl) rfl rfl rfl]
    simp only [Expression.renderSlot_eq, Expression.outlineSlot_eq]
    rw [trace_required fun child present => below child present _,
      trace_required fun child present => behind child present _]
    exact congrArg _ (traceList_pair _ _).symm
  | comparison operator left right ihLeft ihRight =>
    have below := fun child present =>
      ihLeft child present (.expression (.comparison operator left right) :: ancestors)
    have behind := fun child present =>
      ihRight child present (.expression (.comparison operator left right) :: ancestors)
    rw [Expression.render, Expression.outline, trace_comparison rfl (fun _ => rfl) (fun _ => rfl) rfl]
    simp only [Expression.renderSlot_eq, Expression.outlineSlot_eq]
    rw [trace_required fun child present => below child present _,
      trace_required fun child present => behind child present _]
    exact congrArg _ (traceList_pair _ _).symm
  | call callee arguments ih =>
    rw [Expression.render, Expression.outline,
      trace_plain [some Trace.argumentsMarker] rfl (fun _ => rfl) (fun _ => rfl) rfl rfl rfl, Expression.renderList_eq,
      Expression.outlines_eq_map,
      traceList_map fun child present => ih child present (.expression (.call callee arguments) :: ancestors) _]
    cases arguments <;> rfl

theorem Comparison.render_eq_trace (c : Comparison) (ancestors : List Node) (level : Nat) :
    c.render level = c.outline.trace ancestors level := by
  rw [Comparison.render, Comparison.toExpression, Expression.render, Comparison.outline,
    trace_comparison rfl (fun _ => rfl) (fun _ => rfl) rfl]
  simp only [Expression.renderSlot_eq, Expression.outlineSlot_eq]
  rw [trace_required fun e _ => e.render_eq_trace (.comparison c :: ancestors) level,
    trace_required fun e _ => e.render_eq_trace (.comparison c :: ancestors) level]
  exact congrArg _ (traceList_pair _ _).symm

theorem Assignment.renderBelow_eq_trace (a : Assignment) (ancestors : List Node) (level : Nat) :
    a.renderBelow level = traceList ancestors (level + 1) [] a.below := by
  rw [Assignment.renderBelow, Assignment.below, traceList_singleton, Expression.renderSlot_eq,
    Expression.outlineSlot_eq]
  exact trace_required (fun e _ => e.render_eq_trace ancestors _) _

theorem Assignment.render_eq_trace (a : Assignment) (ancestors : List Node) (level : Nat) :
    a.render level = a.outline.trace ancestors level := by
  rw [Assignment.render, Assignment.outline, trace_plain [] rfl (fun _ => rfl) (fun _ => rfl) rfl rfl rfl,
    a.renderBelow_eq_trace (.assignment a :: ancestors)]
  rfl

theorem Variable.renderBelow_eq_trace (v : Variable) (ancestors : List Node) (level : Nat) :
    v.renderBelow level = traceList ancestors (level + 1) [] v.below :=
  trace_optional fun a _ => a.render_eq_trace ancestors _

-- A variable that is no parameter.
theorem Variable.render_eq_trace (v : Variable) {ancestors : List Node}
    (noParameter : Place.isParameter ⟨.variableDecl v, ancestors⟩ = false) (level : Nat) :
    v.render level = v.outline.trace ancestors level := by
  rw [Variable.render, Variable.outline, trace_node noParameter, Place.opening, Place.inner, Place.closing,
    Place.isBlock, Place.isBody_eq_false fun _ => rfl, v.renderBelow_eq_trace (.variableDecl v :: ancestors)]
  exact congrArg _ (Trace.append_empty _).symm

-- A block that is no body, also where it is a statement.
theorem Block.lines_eq_trace {b : Block} {parent : Node} {ancestors : List Node} {level : Nat}
    (label : parent.label = Block.label) (kind : parent.kind = .statement .block) (alone : parent.parameters = [])
    (noParameter : ∀ above : Node, above.isParameterOf parent = false)
    (noBody : Place.isBody ⟨parent, ancestors⟩ = false)
    (same : ∀ s ∈ b, s.render (level + 1) = s.outline.trace (parent :: ancestors) (level + 1)) :
    .create level Block.label ++ (Statement.renderList (level + 1) b ++ .close level Block.label) =
      (Outline.node parent (Statement.outlines b)).trace ancestors level := by
  rw [trace_node (isParameter_eq_false noParameter _), Place.opening, Place.inner, Place.closing, Place.isBlock, noBody,
    alone, label, Node.isComparison, kind, Statement.renderList_eq, Statement.outlines_eq_map, traceList_map same]
  rfl

namespace Statement

variable {parent : Node} {ancestors : List Node} {level : Nat} {block : Option Block}

theorem renderBlock_eq_trace {b : Block} (noBody : parent.isBodyOf (.block b) = false)
    (same : ∀ s ∈ b, ∀ ancestors level, s.render level = s.outline.trace ancestors level) (absent : Trace) :
    renderBlock level absent (some b) = (Block.outline b).trace (parent :: ancestors) level :=
  Block.lines_eq_trace rfl rfl rfl (fun _ => rfl) noBody fun s present => same s present _ _

-- Places for blocks among the children of a statement.

theorem traceList_requiredBlock (noBody : ∀ b, parent.isBodyOf (.block b) = false)
    (same : ∀ b ∈ block, ∀ s ∈ b, ∀ ancestors level, s.render level = s.outline.trace ancestors level)
    (missing : Missing) (marker : Option String) (markers : List (Option String)) (rest : List Outline) :
    traceList (parent :: ancestors) level (marker :: markers) (outlineBlock [.hole missing] block ++ rest) =
      optionalTrace (Trace.line level) marker ++
        (renderBlock level (.stop missing) block ++ traceList (parent :: ancestors) level markers rest) := by
  cases block with
  | none => rfl
  | some b =>
    rw [renderBlock_eq_trace (noBody b) (same b rfl)]
    rfl

theorem traceList_optionalBlock (noBody : ∀ b, parent.isBodyOf (.block b) = false)
    (same : ∀ b ∈ block, ∀ s ∈ b, ∀ ancestors level, s.render level = s.outline.trace ancestors level)
    (rest : List Outline) :
    traceList (parent :: ancestors) level [] (outlineBlock [] block ++ rest) =
      renderBlock level .empty block ++ traceList (parent :: ancestors) level [] rest := by
  cases block with
  | none => rfl
  | some b =>
    rw [renderBlock_eq_trace (noBody b) (same b rfl)]
    rfl

theorem traceList_markedBlock (noBody : ∀ b, parent.isBodyOf (.block b) = false)
    (same : ∀ b ∈ block, ∀ s ∈ b, ∀ ancestors level, s.render level = s.outline.trace ancestors level)
    (marker : String) :
    traceList (parent :: ancestors) level [some marker] (outlineBlock [] block) =
      (if block.isSome then .line level marker else .empty) ++ renderBlock level .empty block := by
  cases block with
  | none => rfl
  | some b =>
    rw [renderBlock_eq_trace (noBody b) (same b rfl)]
    exact congrArg (Trace.line level marker ++ ·) (traceList_singleton (Block.outline b))

theorem traceList_lastBlock (noBody : ∀ b, parent.isBodyOf (.block b) = false)
    (same : ∀ b ∈ block, ∀ s ∈ b, ∀ ancestors level, s.render level = s.outline.trace ancestors level) :
    traceList (parent :: ancestors) level [] (outlineBlock [] block) = renderBlock level .empty block := by
  rw [← List.append_nil (outlineBlock [] block), traceList_optionalBlock noBody same]
  exact Trace.append_empty _

-- The parameters of a function leave nothing among its children, and its body leaves only the statements.

theorem traceList_parameters (function : parent.kind = .statement .functionDecl) (vs : List Variable)
    (rest : List Outline) :
    traceList (parent :: ancestors) level [] (vs.map Variable.outline ++ rest) =
      traceList (parent :: ancestors) level [] rest := by
  induction vs with
  | nil => rfl
  | cons v vs ih =>
    have parameter : Place.isParameter ⟨.variableDecl v, parent :: ancestors⟩ = true := decide_eq_true function
    rw [List.map_cons, List.cons_append, traceList_cons, Variable.outline, trace_parameter parameter]
    exact ih

theorem renderInside_eq_trace (function : parent.kind = .statement .functionDecl)
    (same : ∀ b ∈ block, ∀ s ∈ b, ∀ ancestors level, s.render level = s.outline.trace ancestors level)
    (missing : Missing) :
    renderInside level (.stop missing) block =
      traceList (parent :: ancestors) level [] (outlineBlock [.hole missing] block) := by
  cases block with
  | none => rfl
  | some b =>
    have body : Place.isBody ⟨.block b, parent :: ancestors⟩ = true := decide_eq_true function
    rw [renderInside, outlineBlock, traceList_singleton, trace_node rfl, Place.opening, Place.inner, Place.closing,
      Place.isBlock, body, renderList_eq, outlines_eq_map,
      traceList_map fun s present => same b rfl s present (.block b :: parent :: ancestors) _]
    exact (Trace.append_empty _).symm

theorem render_eq_trace (s : Statement) (ancestors : List Node) (level : Nat) :
    s.render level = s.outline.trace ancestors level := by
  induction s generalizing ancestors level with
  | expression slot =>
    rw [render, outline, trace_plain [] rfl (fun _ => rfl) (fun _ => rfl) rfl rfl rfl,
      Expression.renderSlot_eq, Expression.outlineSlot_eq,
      trace_required fun e _ => e.render_eq_trace (.statement (.expression slot) :: ancestors) _]
    exact congrArg _ (traceList_singleton _).symm
  | assignment a =>
    rw [render, outline, trace_plain [] rfl (fun _ => rfl) (fun _ => rfl) rfl rfl rfl,
      a.renderBelow_eq_trace (.statement (.assignment a) :: ancestors)]
    rfl
  | variableDecl v =>
    rw [render, outline, trace_plain [] rfl (fun _ => rfl) (fun _ => rfl) rfl rfl rfl,
      v.renderBelow_eq_trace (.statement (.variableDecl v) :: ancestors)]
    rfl
  | returning e =>
    rw [render, outline, trace_plain [] rfl (fun _ => rfl) (fun _ => rfl) rfl rfl rfl,
      trace_optional fun child _ => child.render_eq_trace (.statement (.returning e) :: ancestors) _]
    rfl
  | block b ih =>
    rw [render, outline]
    exact Block.lines_eq_trace rfl rfl rfl (fun _ => rfl) (Place.isBody_eq_false (fun _ => rfl) _)
      fun s present => ih s present _ _
  | conditional condition thenBlock elseBlock ihThen ihElse =>
    rw [render, outline, trace_plain [] rfl (fun _ => rfl) (fun _ => rfl) rfl rfl rfl, traceList_cons,
      List.tail_nil, traceList_optionalBlock (fun _ => rfl) ihThen, traceList_lastBlock (fun _ => rfl) ihElse,
      Trace.append_assoc, trace_required fun c _ => c.render_eq_trace _ _]
    rfl
  | whileLoop condition body elseBlock ihBody ihElse =>
    rw [render, outline, trace_plain [none, some Trace.loopBodyMarker, some Trace.elseBodyMarker] rfl (fun _ => rfl)
        (fun _ => rfl) rfl rfl rfl, traceList_unmarked, traceList_requiredBlock (fun _ => rfl) ihBody,
      traceList_markedBlock (fun _ => rfl) ihElse, Trace.append_assoc, Trace.append_assoc, Trace.append_assoc,
      Expression.renderSlot_eq, Expression.outlineSlot_eq, trace_required fun e _ => e.render_eq_trace _ _]
    rfl
  | forLoop init condition body update ih =>
    rw [render, outline, trace_plain [none, none, some Trace.loopBodyMarker] rfl (fun _ => rfl) (fun _ => rfl) rfl rfl
        rfl, traceList_unmarked, traceList_unmarked, traceList_requiredBlock (fun _ => rfl) ih, traceList_singleton,
      Trace.append_assoc, Trace.append_assoc, Trace.append_assoc, Expression.renderSlot_eq, Expression.outlineSlot_eq,
      trace_required fun a _ => a.render_eq_trace _ _, trace_required fun e _ => e.render_eq_trace _ _,
      trace_required fun a _ => a.render_eq_trace _ _]
    rfl
  | functionDecl returnType name parameters body ih =>
    rw [render, outline, trace_function rfl (fun _ => rfl) (fun _ => rfl), traceList_parameters rfl,
      ← renderInside_eq_trace rfl ih]
    rfl
  | classDecl name body ih =>
    rw [render, outline, trace_plain [] rfl (fun _ => rfl) (fun _ => rfl) rfl rfl rfl,
      traceList_lastBlock (fun _ => rfl) ih]
    rfl

end Statement

theorem Block.render_eq_trace (b : Block) {ancestors : List Node}
    (noBody : Place.isBody ⟨.block b, ancestors⟩ = false) (level : Nat) :
    Block.render level b = (Block.outline b).trace ancestors level := by
  rw [Block.render, Statement.render, Block.outline]
  exact Block.lines_eq_trace rfl rfl rfl (fun _ => rfl) noBody fun s _ => s.render_eq_trace _ _

theorem Node.render_eq_trace (node : Node) (level : Nat) : node.render level = node.outline.trace [] level := by
  cases node with
  | expression e => exact e.render_eq_trace [] level
  | comparison c => exact c.render_eq_trace [] level
  | assignment a => exact a.render_eq_trace [] level
  | variableDecl v => exact v.render_eq_trace rfl level
  | block b => exact Block.render_eq_trace b rfl level
  | statement s => exact s.render_eq_trace [] level

end Treeline
