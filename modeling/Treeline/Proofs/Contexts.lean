import Treeline.Proofs.Gains
import Treeline.Proofs.Layout

namespace Treeline

-- Trees with a place left open. What stands around the place is printed and counted alike whatever is put there.

abbrev Role.Tree : Role → Type
  | .expression => Expression
  | .comparison => Comparison
  | .assignment => Assignment
  | .variableDecl => Variable
  | .block => Block
  | .statement => Statement

def Role.node : (role : Role) → role.Tree → Node
  | .expression, e => .expression e
  | .comparison, c => .comparison c
  | .assignment, a => .assignment a
  | .variableDecl, v => .variableDecl v
  | .block, b => .block b
  | .statement, s => .statement s

-- One layer of a tree around an open place. Parameters of functions have none, as they are not printed as nodes, and
-- the body of a function is entered only as far as its statements, as its block has no lines of its own.
inductive Frame : (inner outer : Role) → Type
  | operand (operator : UnaryOp) : Frame .expression .expression
  | leftOperand (operator : BinaryOp) (right : Option Expression) : Frame .expression .expression
  | rightOperand (operator : BinaryOp) (left : Option Expression) : Frame .expression .expression
  | argument (callee : String) (before after : List Expression) : Frame .expression .expression
  | comparison : Frame .comparison .expression
  | comparedLeft (operator : CompareOp) (right : Option Expression) : Frame .expression .comparison
  | comparedRight (operator : CompareOp) (left : Option Expression) : Frame .expression .comparison
  | assigned (target : String) : Frame .expression .assignment
  | initial (typeName name : String) : Frame .assignment .variableDecl
  | item (before after : Block) : Frame .statement .block
  | expression : Frame .expression .statement
  | assignment : Frame .assignment .statement
  | variableDecl : Frame .variableDecl .statement
  | returning : Frame .expression .statement
  | block : Frame .block .statement
  | ifCondition (thenBlock elseBlock : Option Block) : Frame .comparison .statement
  | ifThen (condition : Option Comparison) (elseBlock : Option Block) : Frame .block .statement
  | ifElse (condition : Option Comparison) (thenBlock : Option Block) : Frame .block .statement
  | whileCondition (body elseBlock : Option Block) : Frame .expression .statement
  | whileBody (condition : Option Expression) (elseBlock : Option Block) : Frame .block .statement
  | whileElse (condition : Option Expression) (body : Option Block) : Frame .block .statement
  | forInit (condition : Option Expression) (body : Option Block) (update : Option Assignment) :
      Frame .assignment .statement
  | forCondition (init : Option Assignment) (body : Option Block) (update : Option Assignment) :
      Frame .expression .statement
  | forBody (init : Option Assignment) (condition : Option Expression) (update : Option Assignment) :
      Frame .block .statement
  | forUpdate (init : Option Assignment) (condition : Option Expression) (body : Option Block) :
      Frame .assignment .statement
  | bodyItem (returnType name : String) (parameters : List Variable) (before after : Block) :
      Frame .statement .statement
  | members (name : String) : Frame .block .statement

def Frame.plug {inner outer : Role} : Frame inner outer → inner.Tree → outer.Tree
  | .operand operator, e => Expression.unary operator (some e)
  | .leftOperand operator right, e => Expression.binary operator (some e) right
  | .rightOperand operator left, e => Expression.binary operator left (some e)
  | .argument callee before after, e => Expression.call callee (before ++ e :: after)
  | .comparison, c => Comparison.toExpression c
  | .comparedLeft operator right, e => (⟨operator, some e, right⟩ : Comparison)
  | .comparedRight operator left, e => (⟨operator, left, some e⟩ : Comparison)
  | .assigned target, e => (⟨target, some e⟩ : Assignment)
  | .initial typeName name, a => (⟨typeName, name, some a⟩ : Variable)
  | .item before after, s => before ++ s :: after
  | .expression, e => Statement.expression (some e)
  | .assignment, a => Statement.assignment a
  | .variableDecl, v => Statement.variableDecl v
  | .returning, e => Statement.returning (some e)
  | .block, b => Statement.block b
  | .ifCondition thenBlock elseBlock, c => Statement.conditional (some c) thenBlock elseBlock
  | .ifThen condition elseBlock, b => Statement.conditional condition (some b) elseBlock
  | .ifElse condition thenBlock, b => Statement.conditional condition thenBlock (some b)
  | .whileCondition body elseBlock, e => Statement.whileLoop (some e) body elseBlock
  | .whileBody condition elseBlock, b => Statement.whileLoop condition (some b) elseBlock
  | .whileElse condition body, b => Statement.whileLoop condition body (some b)
  | .forInit condition body update, a => Statement.forLoop (some a) condition body update
  | .forCondition init body update, e => Statement.forLoop init (some e) body update
  | .forBody init condition update, b => Statement.forLoop init condition (some b) update
  | .forUpdate init condition body, a => Statement.forLoop init condition body (some a)
  | .bodyItem returnType name parameters before after, s =>
    Statement.functionDecl returnType name parameters (some (before ++ s :: after))
  | .members name, b => Statement.classDecl name (some b)

-- A tree with one open place, at any depth.
inductive Context : (inner outer : Role) → Type
  | here (role : Role) : Context role role
  | inside {inner middle outer : Role} (frame : Frame middle outer) (rest : Context inner middle) : Context inner outer

def Context.fill {inner outer : Role} : Context inner outer → inner.Tree → outer.Tree
  | .here _, tree => tree
  | .inside frame rest, tree => frame.plug (rest.fill tree)

theorem traceAll_append {α : Type} (render : α → Trace) (first second : List α) :
    traceAll render (first ++ second) = traceAll render first ++ traceAll render second := by
  induction first with
  | nil => rfl
  | cons child first ih => rw [List.cons_append, traceAll, ih, traceAll, Trace.append_assoc]

-- What is printed around the place. The levels of all that stands around it follow from the level of the whole.
def Surrounds {α : Type} (inner outer : α → Nat → Trace) : Prop :=
  ∃ (drop : Nat) (before after : Nat → Trace), ∀ tree level,
    outer tree level = before level ++ (inner tree (level + drop) ++ after level)

namespace Surrounds

variable {α : Type} {inner middle outer outer' : α → Nat → Trace}

theorem refl (inner : α → Nat → Trace) : Surrounds inner inner := by
  refine ⟨0, fun _ => .empty, fun _ => .empty, fun tree level => ?_⟩
  rw [Trace.empty_append, Trace.append_empty]
  rfl

theorem congr (around : Surrounds inner outer) (same : ∀ tree level, outer' tree level = outer tree level) :
    Surrounds inner outer' := by
  obtain ⟨drop, before, after, printed⟩ := around
  exact ⟨drop, before, after, fun tree level => (same tree level).trans (printed tree level)⟩

theorem below (around : Surrounds inner outer) : Surrounds inner fun tree level => outer tree (level + 1) := by
  obtain ⟨drop, before, after, printed⟩ := around
  refine ⟨1 + drop, fun level => before (level + 1), fun level => after (level + 1), fun tree level => ?_⟩
  rw [← Nat.add_assoc]
  exact printed tree (level + 1)

theorem behind (first : Nat → Trace) (around : Surrounds inner outer) :
    Surrounds inner fun tree level => first level ++ outer tree level := by
  obtain ⟨drop, before, after, printed⟩ := around
  refine ⟨drop, fun level => first level ++ before level, after, fun tree level => ?_⟩
  simp only [printed, Trace.append_assoc]

theorem before (second : Nat → Trace) (around : Surrounds inner outer) :
    Surrounds inner fun tree level => outer tree level ++ second level := by
  obtain ⟨drop, before, after, printed⟩ := around
  refine ⟨drop, before, fun level => after level ++ second level, fun tree level => ?_⟩
  simp only [printed, Trace.append_assoc]

theorem trans (one : Surrounds inner middle) (two : Surrounds middle outer) : Surrounds inner outer := by
  obtain ⟨drop, before, after, printed⟩ := one
  obtain ⟨drop', before', after', printed'⟩ := two
  refine ⟨drop' + drop, fun level => before' level ++ before (level + drop'),
    fun level => after (level + drop') ++ after' level, fun tree level => ?_⟩
  rw [printed', printed, Nat.add_assoc]
  simp only [Trace.append_assoc]

theorem among {child : Type} (render : Nat → child → Trace) (before after : List child) :
    Surrounds (fun tree level => render level tree) fun tree level =>
      traceAll (render level) (before ++ tree :: after) := by
  refine ⟨0, (fun level => traceAll (render level) before), (fun level => traceAll (render level) after), ?_⟩
  exact fun tree level => traceAll_append (render level) before (tree :: after)

end Surrounds

-- The parts of a statement stand in a row below its line.
def row (parts : List (Nat → Trace)) (level : Nat) : Trace := traceAll (fun part => part (level + 1)) parts

theorem Surrounds.part {α : Type} (inner : α → Nat → Trace) (label : String) (first second : List (Nat → Trace)) :
    Surrounds inner fun tree level => .create level label ++ row (first ++ inner tree :: second) level := by
  refine .behind (.create · label) ⟨1, row first, row second, ?_⟩
  exact fun tree level => traceAll_append _ first (inner tree :: second)

namespace Statement

-- Statements with several places have the same label whatever stands there.

theorem render_conditional (level : Nat) (condition : Option Comparison) (thenBlock elseBlock : Option Block) :
    (conditional condition thenBlock elseBlock).render level =
      .create level (conditional none none none).label ++
        row [fun level =>
            requiredTrace ⟨(conditional none none none).label, .condition⟩ (Comparison.render level) condition,
          fun level => renderBlock level .empty thenBlock,
          fun level => renderBlock level .empty elseBlock] level := by
  simp only [row, traceAll, ← Trace.append_assoc, Trace.append_empty]
  simp only [render, ← Trace.append_assoc]
  rfl

theorem render_whileLoop (level : Nat) (condition : Option Expression) (body elseBlock : Option Block) :
    (whileLoop condition body elseBlock).render level =
      .create level (whileLoop none none none).label ++
        row [fun level => Expression.renderSlot level ⟨(whileLoop none none none).label, .condition⟩ condition,
          fun level => .line level Trace.loopBodyMarker,
          fun level => renderBlock level (.stop ⟨(whileLoop none none none).label, .body⟩) body,
          fun level => if elseBlock.isSome then .line level Trace.elseBodyMarker else .empty,
          fun level => renderBlock level .empty elseBlock] level := by
  simp only [row, traceAll, ← Trace.append_assoc, Trace.append_empty]
  simp only [render, ← Trace.append_assoc]
  rfl

theorem render_forLoop (level : Nat) (init : Option Assignment) (condition : Option Expression) (body : Option Block)
    (update : Option Assignment) :
    (forLoop init condition body update).render level =
      .create level (forLoop none none none none).label ++
        row [fun level =>
            requiredTrace ⟨(forLoop none none none none).label, .initializer⟩ (Assignment.render level) init,
          fun level => Expression.renderSlot level ⟨(forLoop none none none none).label, .condition⟩ condition,
          fun level => .line level Trace.loopBodyMarker,
          fun level => renderBlock level (.stop ⟨(forLoop none none none none).label, .body⟩) body,
          fun level => requiredTrace ⟨(forLoop none none none none).label, .update⟩ (Assignment.render level) update]
          level := by
  simp only [row, traceAll, ← Trace.append_assoc, Trace.append_empty]
  simp only [render, ← Trace.append_assoc]
  rfl

end Statement

-- Every layer surrounds its open place.
theorem Frame.surrounds {inner outer : Role} (frame : Frame inner outer) :
    Surrounds (fun tree level => (inner.node tree).render level)
      fun tree level => (outer.node (frame.plug tree)).render level := by
  cases frame with
  | operand operator =>
    exact .behind (.create · (Expression.unary operator none).label) (.below (.refl _))
  | leftOperand operator right =>
    exact .behind (.create · (Expression.binary operator none none).label)
      (.below (.before (Expression.renderSlot · ⟨(Expression.binary operator none none).label, .rightOperand⟩ right)
        (.refl _)))
  | rightOperand operator left =>
    exact .behind (.create · (Expression.binary operator none none).label)
      (.below (.behind (Expression.renderSlot · ⟨(Expression.binary operator none none).label, .leftOperand⟩ left)
        (.refl _)))
  | argument callee before after =>
    refine Surrounds.congr (.behind (.create · (Expression.call callee []).label) (.below
      (.behind (.line · Trace.argumentsMarker) (.among Expression.render before after)))) fun e level => ?_
    have some_argument : (before ++ e :: after).isEmpty = false := by cases before <;> rfl
    change (Expression.call callee (before ++ e :: after)).render level = _
    rw [Expression.render, some_argument, Expression.renderList_eq]
    rfl
  | comparison => exact .refl _
  | comparedLeft operator right =>
    exact .behind (.create · (Expression.comparison operator none none).label)
      (.before (Expression.renderSlot · ⟨(Expression.comparison operator none none).label, .rightOperand⟩ right)
        (.refl _))
  | comparedRight operator left =>
    exact .behind (.create · (Expression.comparison operator none none).label)
      (.behind (Expression.renderSlot · ⟨(Expression.comparison operator none none).label, .leftOperand⟩ left)
        (.refl _))
  | assigned target => exact .behind (.create · (Assignment.mk target none).label) (.below (.refl _))
  | initial typeName name => exact .behind (.create · (Variable.mk typeName name none).label) (.below (.refl _))
  | item before after =>
    refine Surrounds.congr (.behind (.create · Block.label) (.before (.close · Block.label)
      (.below (.among Statement.render before after)))) fun s level => ?_
    rw [← Statement.renderList_eq]
    rfl
  | expression => exact .behind (.create · (Statement.expression none).label) (.below (.refl _))
  | assignment => exact .refl _
  | variableDecl => exact .refl _
  | returning => exact .behind (.create · (Statement.returning none).label) (.below (.refl _))
  | block => exact .refl _
  | ifCondition => exact (Surrounds.part _ _ [] _).congr fun _ _ => Statement.render_conditional ..
  | ifThen => exact (Surrounds.part _ _ [_] _).congr fun _ _ => Statement.render_conditional ..
  | ifElse => exact (Surrounds.part _ _ [_, _] _).congr fun _ _ => Statement.render_conditional ..
  | whileCondition => exact (Surrounds.part _ _ [] _).congr fun _ _ => Statement.render_whileLoop ..
  | whileBody => exact (Surrounds.part _ _ [_, _] _).congr fun _ _ => Statement.render_whileLoop ..
  | whileElse =>
    exact (Surrounds.part _ _ [_, _, _, (.line · Trace.elseBodyMarker)] _).congr fun _ _ =>
      Statement.render_whileLoop ..
  | forInit => exact (Surrounds.part _ _ [] _).congr fun _ _ => Statement.render_forLoop ..
  | forCondition => exact (Surrounds.part _ _ [_] _).congr fun _ _ => Statement.render_forLoop ..
  | forBody => exact (Surrounds.part _ _ [_, _, _] _).congr fun _ _ => Statement.render_forLoop ..
  | forUpdate => exact (Surrounds.part _ _ [_, _, _, _] _).congr fun _ _ => Statement.render_forLoop ..
  | bodyItem returnType name parameters before after =>
    refine Surrounds.congr (.behind (.create · (Statement.functionDecl returnType name [] none).label) (.below
      (.behind (parametersTrace · parameters) (.among Statement.render before after)))) fun s level => ?_
    rw [← Statement.renderList_eq]
    rfl
  | members name => exact .behind (.create · (Statement.classDecl name none).label) (.below (.refl _))

theorem Context.surrounds {inner outer : Role} (context : Context inner outer) :
    Surrounds (fun tree level => (inner.node tree).render level)
      fun tree level => (outer.node (context.fill tree)).render level := by
  induction context with
  | here => exact .refl _
  | inside frame rest ih =>
    obtain ⟨drop, before, after, printed⟩ := frame.surrounds
    exact ih.trans ⟨drop, before, after, fun tree level => printed (rest.fill tree) level⟩

-- What is counted around the place, and whether anything is missing there.

-- Whether holes are in a parameter says nothing about there being any.
theorem Outline.holes_eq_nil_iff (inParameter : Bool) (outline : Outline) :
    outline.holes inParameter = [] ↔ outline.holes false = [] := by
  induction outline generalizing inParameter with
  | hole missing => simp
  | node parent children ih =>
    simp only [Outline.holes_node, List.flatMap_eq_nil_iff]
    refine forall₂_congr fun child present => ?_
    rw [ih child present, ih child present (false || _)]

def Outline.IsWhole (outline : Outline) : Prop := outline.holes false = []

theorem Outline.isWhole_node (parent : Node) (children : List Outline) :
    (Outline.node parent children).IsWhole ↔ ∀ child ∈ children, child.IsWhole := by
  simp only [IsWhole, Outline.holes_node, List.flatMap_eq_nil_iff, Outline.holes_eq_nil_iff]

theorem Outline.gainAt_append (depth : Depth) (first second : List Outline) :
    Outline.gainAt depth (first ++ second) = (Outline.gainAt depth first).add (Outline.gainAt depth second) := by
  induction first with
  | nil => exact (Tally.empty_add _).symm
  | cons child first ih => rw [List.cons_append, gainAt, ih, gainAt, Tally.add_assoc]

-- The tree around a place adds the same to whatever stands there, and has its holes or not by itself.
def Gathers {α : Type} (inner outer : α → Outline) : Prop :=
  ∃ (drop : Depth) (base : Tally) (rest : Prop), ∀ tree,
    (outer tree).gain = base.add ((inner tree).gain.sunk drop) ∧ ((outer tree).IsWhole ↔ rest ∧ (inner tree).IsWhole)

namespace Gathers

variable {α : Type} {inner middle outer : α → Outline}

theorem refl (inner : α → Outline) : Gathers inner inner :=
  ⟨0, .empty, True, fun _ => ⟨(Tally.empty_add _).symm, (true_and _).symm.to_iff⟩⟩

-- A wrapper that is no node of its own.
theorem same (below : α → List Outline) (parent parent' : α → Node)
    (alike : ∀ tree, (parent' tree).kind.category = (parent tree).kind.category) :
    Gathers (fun tree => .node (parent tree) (below tree)) fun tree => .node (parent' tree) (below tree) := by
  refine ⟨0, .empty, True, fun tree => ⟨?_, ?_⟩⟩
  · rw [Tally.empty_add, Outline.gain, Outline.gain, alike]
    rfl
  · rw [true_and, Outline.isWhole_node, Outline.isWhole_node]

theorem node (inner : α → Outline) (category : Category) (parent : α → Node)
    (counted : ∀ tree, (parent tree).kind.category = category) (before after : List Outline) :
    Gathers inner fun tree => .node (parent tree) (before ++ inner tree :: after) := by
  refine ⟨1, ((Tally.unit category 0).add (Outline.gainAt 1 before)).add (Outline.gainAt 1 after),
    ∀ child ∈ before ++ after, child.IsWhole, fun tree => ⟨?_, ?_⟩⟩
  · rw [Outline.gain, counted, Outline.gainAt_append, Outline.gainAt]
    rw [Tally.add_comm ((inner tree).gain.sunk 1), ← Tally.add_assoc, ← Tally.add_assoc]
  · simp only [Outline.isWhole_node, List.forall_mem_append, List.forall_mem_cons]
    tauto

theorem congr {outer' : α → Outline} (around : Gathers inner outer) (equal : ∀ tree, outer' tree = outer tree) :
    Gathers inner outer' := by
  obtain ⟨drop, base, rest, counted⟩ := around
  exact ⟨drop, base, rest, fun tree => equal tree ▸ counted tree⟩

theorem among {child : Type} (outline : child → Outline) (category : Category) (parent : child → Node)
    (counted : ∀ tree, (parent tree).kind.category = category) (before after : List child) :
    Gathers outline fun tree => .node (parent tree) ((before ++ tree :: after).map outline) := by
  refine (node outline category parent counted (before.map outline) (after.map outline)).congr fun tree => ?_
  rw [List.map_append, List.map_cons]

theorem items (before after : Block) : Gathers Statement.outline fun s => Block.outline (before ++ s :: after) := by
  refine (among Statement.outline .statement (fun s => .block (before ++ s :: after)) (fun _ => rfl)
    before after).congr fun s => ?_
  rw [← Statement.outlines_eq_map]
  rfl

theorem trans (one : Gathers inner middle) (two : Gathers middle outer) : Gathers inner outer := by
  obtain ⟨drop, base, rest, counted⟩ := one
  obtain ⟨drop', base', rest', counted'⟩ := two
  refine ⟨drop' + drop, base'.add (base.sunk drop'), rest' ∧ rest, fun tree => ⟨?_, ?_⟩⟩
  · rw [(counted' tree).1, (counted tree).1, Tally.sunk_add, Tally.sunk_sunk, Tally.add_assoc]
  · rw [(counted' tree).2, (counted tree).2, and_assoc]

end Gathers

namespace Statement

theorem outline_conditional (condition : Option Comparison) (thenBlock elseBlock : Option Block) :
    (conditional condition thenBlock elseBlock).outline =
      .node (.statement (conditional condition thenBlock elseBlock))
        (requiredOutline ⟨(conditional none none none).label, .condition⟩ Comparison.outline condition ::
          (outlineBlock [] thenBlock ++ outlineBlock [] elseBlock)) := rfl

theorem outline_whileLoop (condition : Option Expression) (body elseBlock : Option Block) :
    (whileLoop condition body elseBlock).outline =
      .node (.statement (whileLoop condition body elseBlock))
        (Expression.outlineSlot ⟨(whileLoop none none none).label, .condition⟩ condition ::
          (outlineBlock [.hole ⟨(whileLoop none none none).label, .body⟩] body ++ outlineBlock [] elseBlock)) := rfl

theorem outline_forLoop (init : Option Assignment) (condition : Option Expression) (body : Option Block)
    (update : Option Assignment) :
    (forLoop init condition body update).outline =
      .node (.statement (forLoop init condition body update))
        (requiredOutline ⟨(forLoop none none none none).label, .initializer⟩ Assignment.outline init ::
          Expression.outlineSlot ⟨(forLoop none none none none).label, .condition⟩ condition ::
          (outlineBlock [.hole ⟨(forLoop none none none none).label, .body⟩] body ++
            [requiredOutline ⟨(forLoop none none none none).label, .update⟩ Assignment.outline update])) := rfl

end Statement

def Comparison.operands (c : Comparison) : List Outline :=
  [Expression.outlineSlot ⟨c.label, .leftOperand⟩ c.left, Expression.outlineSlot ⟨c.label, .rightOperand⟩ c.right]

theorem Frame.gathers {inner outer : Role} (frame : Frame inner outer) :
    Gathers (fun tree => (inner.node tree).outline) fun tree => (outer.node (frame.plug tree)).outline := by
  cases frame with
  | operand operator => exact .node _ .expression _ (fun _ => rfl) [] []
  | leftOperand operator right =>
    exact .node _ .expression _ (fun _ => rfl) []
      [Expression.outlineSlot ⟨(Expression.binary operator none none).label, .rightOperand⟩ right]
  | rightOperand operator left =>
    exact .node _ .expression _ (fun _ => rfl)
      [Expression.outlineSlot ⟨(Expression.binary operator none none).label, .leftOperand⟩ left] []
  | argument callee before after =>
    refine (Gathers.among Expression.outline .expression (fun e => .expression (.call callee (before ++ e :: after)))
      (fun _ => rfl) before after).congr fun e => ?_
    rw [← Expression.outlines_eq_map]
    rfl
  | comparison => exact .same Comparison.operands _ _ fun _ => rfl
  | comparedLeft operator right =>
    exact .node _ .expression _ (fun _ => rfl) []
      [Expression.outlineSlot ⟨(Expression.comparison operator none none).label, .rightOperand⟩ right]
  | comparedRight operator left =>
    exact .node _ .expression _ (fun _ => rfl)
      [Expression.outlineSlot ⟨(Expression.comparison operator none none).label, .leftOperand⟩ left] []
  | assigned target => exact .node _ .statement _ (fun _ => rfl) [] []
  | initial typeName name => exact .node _ .declaration _ (fun _ => rfl) [] []
  | item before after => exact .items before after
  | expression => exact .node _ .statement _ (fun _ => rfl) [] []
  | assignment => exact .same Assignment.below _ _ fun _ => rfl
  | variableDecl => exact .same Variable.below _ _ fun _ => rfl
  | returning => exact .node _ .statement _ (fun _ => rfl) [] []
  | block => exact .same Statement.outlines _ _ fun _ => rfl
  | ifCondition =>
    exact (Gathers.node _ .statement _ (fun _ => rfl) [] _).congr fun _ => Statement.outline_conditional ..
  | ifThen => exact (Gathers.node _ .statement _ (fun _ => rfl) [_] _).congr fun _ => Statement.outline_conditional ..
  | ifElse condition thenBlock =>
    exact (Gathers.node _ .statement _ (fun _ => rfl) (_ :: Statement.outlineBlock [] thenBlock) []).congr fun _ =>
      Statement.outline_conditional ..
  | whileCondition =>
    exact (Gathers.node _ .statement _ (fun _ => rfl) [] _).congr fun _ => Statement.outline_whileLoop ..
  | whileBody => exact (Gathers.node _ .statement _ (fun _ => rfl) [_] _).congr fun _ => Statement.outline_whileLoop ..
  | whileElse condition body =>
    exact (Gathers.node _ .statement _ (fun _ => rfl) (_ :: Statement.outlineBlock [_] body) []).congr fun _ =>
      Statement.outline_whileLoop ..
  | forInit => exact (Gathers.node _ .statement _ (fun _ => rfl) [] _).congr fun _ => Statement.outline_forLoop ..
  | forCondition => exact (Gathers.node _ .statement _ (fun _ => rfl) [_] _).congr fun _ => Statement.outline_forLoop ..
  | forBody => exact (Gathers.node _ .statement _ (fun _ => rfl) [_, _] _).congr fun _ => Statement.outline_forLoop ..
  | forUpdate init condition body =>
    exact (Gathers.node _ .statement _ (fun _ => rfl) (_ :: _ :: Statement.outlineBlock [_] body) []).congr fun _ =>
      Statement.outline_forLoop ..
  | bodyItem returnType name parameters before after =>
    exact (Gathers.items before after).trans
      (.node _ .declaration _ (fun _ => rfl) (parameters.map Variable.outline) [])
  | members name => exact .node _ .declaration _ (fun _ => rfl) [] []

theorem Context.gathers {inner outer : Role} (context : Context inner outer) :
    Gathers (fun tree => (inner.node tree).outline) fun tree => (outer.node (context.fill tree)).outline := by
  induction context with
  | here => exact .refl _
  | inside frame rest ih =>
    obtain ⟨drop, base, alone, counted⟩ := frame.gathers
    exact ih.trans ⟨drop, base, alone, fun tree => counted (rest.fill tree)⟩

theorem Trace.bytes_append {first : Trace} (through : first.missing = none) (second : Trace) :
    (first ++ second).bytes = first.bytes ++ second.bytes := by
  unfold Trace.bytes
  rw [Trace.lines_append through, List.flatMap_append]

-- Trees around a place are printed as text before it and text behind it.
theorem Context.bytes_fill {inner outer : Role} (context : Context inner outer) :
    ∃ drop, ∀ level, ∃ before after : Bytes, ∀ tree, (outer.node (context.fill tree)).holes = [] →
      ((outer.node (context.fill tree)).render level).bytes =
        before ++ (((inner.node tree).render (level + drop)).bytes ++ after) := by
  obtain ⟨drop, before, after, printed⟩ := context.surrounds
  refine ⟨drop, fun level => ⟨(before level).bytes, (after level).bytes, fun tree whole => ?_⟩⟩
  have through := Node.missing_render_of_whole whole level
  have parts : (outer.node (context.fill tree)).render level =
      before level ++ ((inner.node tree).render (level + drop) ++ after level) := printed tree level
  rw [parts, Trace.missing_append, Trace.missing_append, Option.or_eq_none_iff, Option.or_eq_none_iff] at through
  rw [parts, Trace.bytes_append through.1, Trace.bytes_append through.2.1]

-- Replacing a part of a tree changes the lines of the part and its counts, and nothing around it.
theorem Context.fill_is_local {inner outer : Role} (context : Context inner outer)
    (whole : ∃ tree, (outer.node (context.fill tree)).holes = []) :
    (∃ drop, ∀ level, ∃ before after : Bytes, ∀ refusal tree, (inner.node tree).holes = [] →
      let printed := fun level node => (Sink.new none refusal).print (Node.render level node)
      (printed level (outer.node (context.fill tree))).2 = .ok () ∧
        (printed level (outer.node (context.fill tree))).1.bytes =
          before ++ ((printed (level + drop) (inner.node tree)).1.bytes ++ after)) ∧
    ∃ (around : Tally) (offset : Depth), ∀ tree, (inner.node tree).holes = [] →
      ∃ alone, (inner.node tree).tally = .ok alone ∧
        (outer.node (context.fill tree)).tally =
          .ok ⟨around.expressions + alone.expressions, around.statements + alone.statements,
            around.declarations + alone.declarations, max around.maxDepth (alone.maxDepth + offset)⟩ := by
  obtain ⟨offset, around, rest, counted⟩ := context.gathers
  -- One filling without holes shows that there are none around the place.
  obtain ⟨sample, filled⟩ := whole
  have alone : rest := ((counted sample).2.mp filled).1
  have stays : ∀ tree, (inner.node tree).holes = [] → (outer.node (context.fill tree)).holes = [] :=
    fun tree complete => (counted tree).2.mpr ⟨alone, complete⟩
  constructor
  · obtain ⟨drop, bytes⟩ := context.bytes_fill
    refine ⟨drop, fun level => ?_⟩
    obtain ⟨before, after, same⟩ := bytes level
    refine ⟨before, after, fun refusal tree complete => ?_⟩
    have through := Node.missing_render_of_whole (stays tree complete) level
    simp only [Sink.print_unlimited, Trace.outcome, through, true_and]
    exact same tree (stays tree complete)
  · refine ⟨around, offset, fun tree complete => ⟨_, Node.tally_eq_gain complete, ?_⟩⟩
    rw [Node.tally_eq_gain (stays tree complete), (counted tree).1]
    rfl

-- A place in a loop of a function, between a return and nothing, filled with a return and with a block.
theorem Context.fill_is_local_loop :
    let context : Context .statement .statement :=
      .inside (.bodyItem "void" "run" [⟨"int", "n", none⟩] [] [.returning none])
        (.inside (.whileBody (some (.boolean true)) none) (.inside (.item [.returning none] []) (.here .statement)))
    let short : Statement := .returning none
    let long : Statement := .block [.returning (some (.identifier "n"))]
    let printed := fun level s => ((Sink.new none .closed).print (Statement.render level s)).1.bytes
    ((Node.statement (context.fill short)).holes = [] ∧ (Node.statement short).holes = [] ∧
      (Node.statement long).holes = []) ∧
    (∃ drop before after, printed 0 (context.fill short) = before ++ (printed drop short ++ after) ∧
      printed 0 (context.fill long) = before ++ (printed drop long ++ after)) ∧
    ∃ (around : Tally) (offset : Depth),
      (Node.statement (context.fill short)).tally =
        .ok ⟨around.expressions, around.statements + 1, around.declarations, max around.maxDepth (0 + offset)⟩ ∧
      (Node.statement (context.fill long)).tally =
        .ok ⟨around.expressions + 1, around.statements + 2, around.declarations, max around.maxDepth (2 + offset)⟩ := by
  intro context short long printed
  have whole : (Node.statement (context.fill short)).holes = [] := rfl
  obtain ⟨⟨drop, texts⟩, around, offset, counts⟩ := context.fill_is_local ⟨short, whole⟩
  obtain ⟨before, after, same⟩ := texts 0
  refine ⟨⟨whole, rfl, rfl⟩, ⟨0 + drop, before, after, (same .closed short rfl).2, (same .closed long rfl).2⟩,
    around, offset, ?_, ?_⟩
  · obtain ⟨alone, own, total⟩ := counts short rfl
    cases own
    exact total
  · obtain ⟨alone, own, total⟩ := counts long rfl
    cases own
    exact total

end Treeline
