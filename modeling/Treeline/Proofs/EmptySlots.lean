import Treeline.Proofs.Holes

namespace Treeline

-- The holes are exactly the empty places that a node cannot do without. Fifteen places of nine kinds of nodes are such;
-- all others may stay empty.

def emptySlot {α : Type} (slot : Slot) (place : Option α) : List Slot := if place.isNone then [slot] else []

def Expression.emptySlots : Expression → List Slot
  | .unary _ operand => emptySlot .operand operand
  | .binary _ left right | .comparison _ left right => emptySlot .leftOperand left ++ emptySlot .rightOperand right
  | _ => []

def Statement.emptySlots : Statement → List Slot
  | .expression e => emptySlot .expression e
  | .assignment a => emptySlot .expression a.expression
  | .conditional condition _ _ => emptySlot .condition condition
  | .whileLoop condition body _ => emptySlot .condition condition ++ emptySlot .body body
  | .forLoop init condition body update =>
    emptySlot .initializer init ++ emptySlot .condition condition ++ emptySlot .body body ++ emptySlot .update update
  | .functionDecl _ _ _ body => emptySlot .body body
  | _ => []

def Node.emptySlots : Node → List Slot
  | .expression e => e.emptySlots
  | .comparison c => c.toExpression.emptySlots
  | .assignment a => emptySlot .expression a.expression
  | .variableDecl _ | .block _ => []
  | .statement s => s.emptySlots

def Node.parameters : Node → List Variable
  | .statement (.functionDecl _ _ parameters _) => parameters
  | _ => []

theorem Node.parameters_eq_nil {node : Node} (other : node.kind ≠ .statement .functionDecl) : node.parameters = [] := by
  unfold Node.parameters
  split
  · exact absurd rfl other
  · rfl

namespace Outline

-- What is missing at the root itself.
def ownHoles : Outline → List Missing
  | .hole missing => [missing]
  | .node _ _ => []

theorem mem_ownHoles {outline : Outline} {missing : Missing} :
    missing ∈ outline.ownHoles ↔ outline = .hole missing := by
  cases outline <;> simp [ownHoles, eq_comm]

-- Every node has a hole below it for each empty place that it cannot do without, and no other. What counts as a
-- parameter below it is a parameter of it.
inductive Sound : Outline → Prop
  | hole (missing : Missing) : Sound (.hole missing)
  | node {parent : Node} {children : List Outline}
      (own : children.flatMap ownHoles = parent.emptySlots.map (Missing.mk parent.label))
      (parameters : children.filter (isParameterOf parent) = parent.parameters.map Variable.outline)
      (below : ∀ child ∈ children, Sound child) : Sound (.node parent children)

theorem Sound.mem_holes_iff {outline : Outline} (sound : outline.Sound) (missing : Missing) (inParameter : Bool) :
    (∃ hole ∈ outline.holes inParameter, hole.missing = missing) ↔
      outline = .hole missing ∨
        ∃ inner ∈ outline.nodes, missing.node = inner.label ∧ missing.slot ∈ inner.emptySlots := by
  induction sound generalizing inParameter with
  | hole found => simp
  | @node parent children own parameters below ih =>
    have direct : .hole missing ∈ children ↔ missing.node = parent.label ∧ missing.slot ∈ parent.emptySlots := by
      have listed : missing ∈ children.flatMap ownHoles ↔ .hole missing ∈ children := by
        simp [List.mem_flatMap, mem_ownHoles]
      rw [← listed, own, List.mem_map]
      constructor
      · rintro ⟨slot, empty, rfl⟩
        exact ⟨rfl, empty⟩
      · rintro ⟨label, empty⟩
        exact ⟨missing.slot, empty, by rw [← label]⟩
    rw [holes_node, nodes_node]
    constructor
    · rintro ⟨hole, member, same⟩
      obtain ⟨child, present, inside⟩ := List.mem_flatMap.mp member
      rcases (ih child present _).mp ⟨hole, inside, same⟩ with rfl | ⟨inner, deeper, fits⟩
      · exact .inr ⟨parent, List.mem_cons_self, direct.mp present⟩
      · exact .inr ⟨inner, List.mem_cons_of_mem _ (List.mem_flatMap.mpr ⟨child, present, deeper⟩), fits⟩
    · rintro (impossible | ⟨inner, member, fits⟩)
      · cases impossible
      · have found : ∃ child ∈ children, child = .hole missing ∨
            ∃ inner ∈ child.nodes, missing.node = inner.label ∧ missing.slot ∈ inner.emptySlots := by
          rcases List.mem_cons.mp member with rfl | later
          · exact ⟨.hole missing, direct.mpr fits, .inl rfl⟩
          · obtain ⟨child, present, inside⟩ := List.mem_flatMap.mp later
            exact ⟨child, present, .inr ⟨inner, inside, fits⟩⟩
        obtain ⟨child, present, cause⟩ := found
        obtain ⟨hole, inside, same⟩ := (ih child present (inParameter || child.isParameterOf parent)).mpr cause
        exact ⟨hole, List.mem_flatMap.mpr ⟨child, present, inside⟩, same⟩

-- There are no holes where nothing is missing.
theorem Sound.holes_eq_nil {outline : Outline} (sound : outline.Sound) (rooted : ∀ missing, outline ≠ .hole missing)
    (filled : ∀ inner ∈ outline.nodes, inner.emptySlots = []) (inParameter : Bool) :
    outline.holes inParameter = [] := by
  refine List.eq_nil_iff_forall_not_mem.mpr fun hole member => ?_
  rcases (sound.mem_holes_iff hole.missing inParameter).mp ⟨hole, member, rfl⟩ with bare | ⟨inner, present, -, empty⟩
  · exact rooted _ bare
  · rw [filled inner present] at empty
    cases empty

theorem Sound.emptySlots_eq_nil {outline : Outline} (sound : outline.Sound) {inParameter : Bool}
    (whole : outline.holes inParameter = []) : ∀ inner ∈ outline.nodes, inner.emptySlots = [] := by
  intro inner present
  refine List.eq_nil_iff_forall_not_mem.mpr fun slot empty => ?_
  obtain ⟨hole, found, -⟩ :=
    (sound.mem_holes_iff ⟨inner.label, slot⟩ inParameter).mpr (.inr ⟨inner, present, rfl, empty⟩)
  rw [whole] at found
  cases found

-- Parameters are nodes of the tree.
theorem Sound.parameter_mem_nodes {outline : Outline} (sound : outline.Sound) {inner : Node} {v : Variable}
    (member : inner ∈ outline.nodes) (declared : v ∈ inner.parameters) : .variableDecl v ∈ outline.nodes := by
  induction sound with
  | hole missing => cases member
  | @node parent children own parameters below ih =>
    rw [nodes_node] at member ⊢
    refine List.mem_cons_of_mem _ ?_
    rcases List.mem_cons.mp member with rfl | later
    · have listed : v.outline ∈ children.filter (isParameterOf inner) := by
        rw [parameters]
        exact List.mem_map_of_mem declared
      refine List.mem_flatMap.mpr ⟨v.outline, (List.mem_filter.mp listed).1, ?_⟩
      rw [Variable.outline, nodes_node]
      exact List.mem_cons_self
    · obtain ⟨child, present, inside⟩ := List.mem_flatMap.mp later
      exact List.mem_flatMap.mpr ⟨child, present, ih child present inside⟩

theorem parameters_of_ne {parent : Node} (other : parent.kind ≠ .statement .functionDecl) (children : List Outline) :
    children.filter (isParameterOf parent) = parent.parameters.map Variable.outline := by
  rw [Node.parameters_eq_nil other, List.map_nil, List.filter_eq_nil_iff]
  intro child _
  rw [isParameterOf_of_ne other]
  exact Bool.false_ne_true

theorem sound_required {α : Type} {missing : Missing} {outline : α → Outline} {place : Option α}
    (each : ∀ child ∈ place, (outline child).Sound) : (requiredOutline missing outline place).Sound := by
  cases place with
  | none => exact .hole missing
  | some child => exact each child rfl

theorem ownHoles_required {α : Type} {outline : α → Outline} (filled : ∀ child, (outline child).ownHoles = [])
    (label : String) (slot : Slot) (place : Option α) :
    (requiredOutline ⟨label, slot⟩ outline place).ownHoles = (emptySlot slot place).map (Missing.mk label) := by
  cases place with
  | none => rfl
  | some child => exact filled child

end Outline

@[simp] theorem Expression.ownHoles_outline (e : Expression) : e.outline.ownHoles = [] := by
  rw [Expression.outline.eq_def, Outline.ownHoles]

@[simp] theorem Statement.ownHoles_outline (s : Statement) : s.outline.ownHoles = [] := by
  rw [Statement.outline.eq_def, Outline.ownHoles]

theorem Expression.sound_outline (e : Expression) : e.outline.Sound := by
  induction e with
  | integer | double | string | boolean | identifier => exact .node rfl rfl (by simp)
  | unary operator operand ih =>
    rw [Expression.outline, Expression.outlineSlot_eq]
    refine .node ?_ (Outline.parameters_of_ne (by simp [Node.kind]) _) ?_
    · simp [Outline.ownHoles_required, Node.emptySlots, Expression.emptySlots, Node.label]
    · simpa using Outline.sound_required ih
  | binary operator left right ihLeft ihRight | comparison operator left right ihLeft ihRight =>
    rw [Expression.outline, Expression.outlineSlot_eq, Expression.outlineSlot_eq]
    refine .node ?_ (Outline.parameters_of_ne (by simp [Node.kind]) _) ?_
    · simp [Outline.ownHoles_required, Node.emptySlots, Expression.emptySlots, Node.label]
    · simpa using And.intro (Outline.sound_required ihLeft) (Outline.sound_required ihRight)
  | call callee arguments ih =>
    rw [Expression.outline, Expression.outlines_eq_map]
    refine .node ?_ (Outline.parameters_of_ne (by simp [Node.kind]) _) ?_
    · simp [List.flatMap_map, Node.emptySlots, Expression.emptySlots]
    · simpa using ih

@[simp] theorem Comparison.ownHoles_outline (c : Comparison) : c.outline.ownHoles = [] := rfl

@[simp] theorem Assignment.ownHoles_outline (a : Assignment) : a.outline.ownHoles = [] := rfl

@[simp] theorem Variable.ownHoles_outline (v : Variable) : v.outline.ownHoles = [] := rfl

theorem Comparison.sound_outline (c : Comparison) : c.outline.Sound := by
  rw [Comparison.outline, Expression.outlineSlot_eq, Expression.outlineSlot_eq]
  refine .node ?_ (Outline.parameters_of_ne (by simp [Node.kind]) _) ?_
  · simp [Outline.ownHoles_required, Node.emptySlots, Comparison.toExpression, Expression.emptySlots, Node.label]
  · have each : ∀ e : Expression, e.outline.Sound := Expression.sound_outline
    simpa using And.intro (Outline.sound_required fun e _ => each e) (Outline.sound_required fun e _ => each e)

theorem Assignment.ownHoles_below (a : Assignment) :
    a.below.flatMap Outline.ownHoles = (emptySlot .expression a.expression).map (Missing.mk a.label) := by
  simp [Assignment.below, Expression.outlineSlot_eq, Outline.ownHoles_required]

theorem Assignment.sound_below (a : Assignment) : ∀ child ∈ a.below, child.Sound := by
  rw [Assignment.below, Expression.outlineSlot_eq]
  simpa using Outline.sound_required fun e _ => e.sound_outline

theorem Assignment.sound_outline (a : Assignment) : a.outline.Sound :=
  .node a.ownHoles_below (Outline.parameters_of_ne (by simp [Node.kind]) _) a.sound_below

theorem Variable.ownHoles_below (v : Variable) : v.below.flatMap Outline.ownHoles = [] := by
  rw [Variable.below]
  cases v.assignment <;> rfl

theorem Variable.sound_below (v : Variable) : ∀ child ∈ v.below, child.Sound := by
  intro child present
  obtain ⟨a, -, rfl⟩ := List.mem_map.mp present
  exact a.sound_outline

theorem Variable.sound_outline (v : Variable) : v.outline.Sound :=
  .node v.ownHoles_below (Outline.parameters_of_ne (by simp [Node.kind]) _) v.sound_below

theorem Block.sound_outline {block : Block} (each : ∀ s ∈ block, s.outline.Sound) : (Block.outline block).Sound := by
  rw [Block.outline, Statement.outlines_eq_map]
  refine .node ?_ (Outline.parameters_of_ne (by simp [Node.kind]) _) ?_
  · simp [List.flatMap_map, Node.emptySlots]
  · simpa using each

theorem Statement.sound_outlineBlock {absent : List Outline} {block : Option Block}
    (empty : ∀ child ∈ absent, child.Sound) (each : ∀ b ∈ block, ∀ s ∈ b, s.outline.Sound) :
    ∀ child ∈ Statement.outlineBlock absent block, child.Sound := by
  rw [Statement.outlineBlock_eq]
  cases block with
  | none => exact empty
  | some statements => simpa using Block.sound_outline (each statements rfl)

@[simp] theorem Statement.ownHoles_optionalBlock (block : Option Block) :
    (Statement.outlineBlock [] block).flatMap Outline.ownHoles = [] := by
  cases block <;> rfl

@[simp] theorem Statement.ownHoles_requiredBlock (label : String) (slot : Slot) (block : Option Block) :
    (Statement.outlineBlock [.hole ⟨label, slot⟩] block).flatMap Outline.ownHoles =
      (emptySlot slot block).map (Missing.mk label) := by
  cases block <;> rfl

theorem Statement.filter_parameters_outlineBlock (parent : Node) (missing : Missing) (block : Option Block) :
    (Statement.outlineBlock [.hole missing] block).filter (Outline.isParameterOf parent) = [] := by
  cases block <;> rfl

theorem Statement.sound_outline (s : Statement) : s.outline.Sound := by
  have one : ∀ missing, ∀ child ∈ [Outline.hole missing], child.Sound := by
    intro missing
    simpa using Outline.Sound.hole missing
  induction s with
  | expression e =>
    rw [Statement.outline, Expression.outlineSlot_eq]
    refine .node ?_ (Outline.parameters_of_ne (by simp [Node.kind, Statement.kind]) _) ?_
    · simp [Outline.ownHoles_required, Node.emptySlots, Statement.emptySlots, Node.label]
    · simpa using Outline.sound_required fun e _ => e.sound_outline
  | assignment a =>
    refine .node a.ownHoles_below ?_ a.sound_below
    exact Outline.parameters_of_ne (by simp [Node.kind, Statement.kind]) _
  | variableDecl v =>
    refine .node v.ownHoles_below ?_ v.sound_below
    exact Outline.parameters_of_ne (by simp [Node.kind, Statement.kind]) _
  | returning e =>
    rw [Statement.outline]
    refine .node ?_ (Outline.parameters_of_ne (by simp [Node.kind, Statement.kind]) _) ?_
    · cases e <;> simp [Node.emptySlots, Statement.emptySlots]
    · intro child present
      obtain ⟨e, -, rfl⟩ := List.mem_map.mp present
      exact e.sound_outline
  | block statements ih =>
    rw [Statement.outline, Statement.outlines_eq_map]
    refine .node ?_ (Outline.parameters_of_ne (by simp [Node.kind, Statement.kind]) _) ?_
    · simp [List.flatMap_map, Node.emptySlots, Statement.emptySlots]
    · simpa using ih
  | conditional condition thenBlock elseBlock ihThen ihElse =>
    rw [Statement.outline]
    refine .node ?_ (Outline.parameters_of_ne (by simp [Node.kind, Statement.kind]) _) ?_
    · simp [Outline.ownHoles_required Comparison.ownHoles_outline, Node.emptySlots, Statement.emptySlots, Node.label]
    · simp only [List.forall_mem_cons, List.forall_mem_append]
      exact ⟨Outline.sound_required fun c _ => c.sound_outline, Statement.sound_outlineBlock (by simp) ihThen,
        Statement.sound_outlineBlock (by simp) ihElse⟩
  | whileLoop condition body elseBlock ihBody ihElse =>
    rw [Statement.outline, Expression.outlineSlot_eq]
    refine .node ?_ (Outline.parameters_of_ne (by simp [Node.kind, Statement.kind]) _) ?_
    · simp [Outline.ownHoles_required, Node.emptySlots, Statement.emptySlots, Node.label]
    · simp only [List.forall_mem_cons, List.forall_mem_append]
      exact ⟨Outline.sound_required fun e _ => e.sound_outline, Statement.sound_outlineBlock (one _) ihBody,
        Statement.sound_outlineBlock (by simp) ihElse⟩
  | forLoop init condition body update ihBody =>
    rw [Statement.outline, Expression.outlineSlot_eq]
    refine .node ?_ (Outline.parameters_of_ne (by simp [Node.kind, Statement.kind]) _) ?_
    · simp [Outline.ownHoles_required, Outline.ownHoles_required Assignment.ownHoles_outline, Node.emptySlots,
        Statement.emptySlots, Node.label]
    · simp only [List.forall_mem_cons, List.forall_mem_append]
      exact ⟨Outline.sound_required fun a _ => a.sound_outline, Outline.sound_required fun e _ => e.sound_outline,
        Statement.sound_outlineBlock (one _) ihBody, Outline.sound_required fun a _ => a.sound_outline, by simp⟩
  | functionDecl returnType name parameters body ihBody =>
    rw [Statement.outline]
    refine .node ?_ ?_ ?_
    · simp [List.flatMap_map, Node.emptySlots, Statement.emptySlots, Node.label]
    · rw [List.filter_append, Statement.filter_parameters_outlineBlock, List.append_nil, List.filter_eq_self.mpr]
      · rfl
      · simp [Variable.outline, Outline.isParameterOf, Node.isParameterOf, Node.kind, Statement.kind]
    · simp only [List.forall_mem_append]
      refine ⟨?_, Statement.sound_outlineBlock (one _) ihBody⟩
      intro child present
      obtain ⟨v, -, rfl⟩ := List.mem_map.mp present
      exact v.sound_outline
  | classDecl name body ihBody =>
    rw [Statement.outline]
    refine .node ?_ (Outline.parameters_of_ne (by simp [Node.kind, Statement.kind]) _) ?_
    · simp [Node.emptySlots, Statement.emptySlots]
    · exact Statement.sound_outlineBlock (by simp) ihBody

theorem Node.outline_ne_hole (node : Node) (missing : Missing) : node.outline ≠ .hole missing := by
  have full : node.outline.ownHoles = [] := by
    cases node with
    | expression e => exact e.ownHoles_outline
    | statement s => exact s.ownHoles_outline
    | _ => rfl
  intro bare
  rw [bare] at full
  cases full

theorem Node.sound_outline (node : Node) : node.outline.Sound := by
  cases node with
  | expression e => exact e.sound_outline
  | comparison c => exact c.sound_outline
  | assignment a => exact a.sound_outline
  | variableDecl v => exact v.sound_outline
  | block b => exact Block.sound_outline fun s _ => s.sound_outline
  | statement s => exact s.sound_outline

-- What a pass that stops at the first of some holes is answered with.
def report : List Hole → Except Missing Unit
  | [] => .ok ()
  | hole :: _ => .error hole.missing

theorem report_eq (holes : List Hole) :
    report holes = (firstMissing holes).elim (.ok ()) .error := by
  cases holes <;> rfl

theorem Node.tally_report (node : Node) : node.tally.map (fun _ => ()) = report node.holes := by
  have stops := node.outline.count_stopsAt Depth.root false
  rw [report_eq, Node.tally, Node.count_eq, Node.holes]
  cases first : firstMissing (node.outline.holes false) with
  | none =>
    rw [first] at stops
    obtain ⟨after, counted⟩ := stops Tally.empty
    rw [counted]
    rfl
  | some missing =>
    rw [first] at stops
    rw [stops Tally.empty]
    rfl

theorem Node.holes_eq_nil_of_tally {node : Node} {totals : Tally} (counted : node.tally = .ok totals) :
    node.holes = [] := by
  have reported := node.tally_report
  rw [counted] at reported
  cases found : node.holes with
  | nil => rfl
  | cons hole holes =>
    rw [found] at reported
    cases reported

theorem Node.print_report (node : Node) (level : Nat) (refusal : Refusal) :
    ((Sink.new none refusal).print (node.render level)).2 = (report node.printedHoles).mapError .structural := by
  have stops := node.missing_render level
  rw [Sink.print_unlimited, report_eq, Node.printedHoles, Node.holes, Trace.outcome, stops, printedMissing]
  cases firstMissing ((node.outline.holes false).filter fun hole => !hole.inParameter) <;> rfl

-- The first hole wins in both passes, and the printing pass does not come to the holes in parameters. Only places that
-- a node cannot do without are holes.
theorem first_hole_reported (node : Node) (level : Nat) (refusal : Refusal) :
    node.tally.map (fun _ => ()) = report node.holes ∧
    ((Sink.new none refusal).print (node.render level)).2 = (report node.printedHoles).mapError .structural ∧
    ∀ missing : Missing, (∃ hole ∈ node.holes, hole.missing = missing) ↔
      ∃ inner ∈ node.nodes, missing.node = inner.label ∧ missing.slot ∈ inner.emptySlots := by
  refine ⟨node.tally_report, node.print_report level refusal, ?_⟩
  intro missing
  have listed := node.sound_outline.mem_holes_iff missing false
  rw [Node.holes, listed, Node.nodes]
  exact or_iff_right (node.outline_ne_hole missing)

end Treeline
