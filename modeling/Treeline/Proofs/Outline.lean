import Treeline.Proofs.Induction
import Treeline.Tree.Label
import Treeline.Tree.Slot

namespace Treeline

-- The shape that all kinds of trees share: a node with its children in the order in which the passes come to them. An
-- empty place that must be filled stands among the children as a hole; one that need not be filled leaves no trace.
inductive Outline
  | hole (missing : Missing)
  | node (node : Node) (children : List Outline)

def requiredOutline {α : Type} (missing : Missing) (outline : α → Outline) : Option α → Outline
  | none => .hole missing
  | some child => outline child

mutual

def Expression.outline (e : Expression) : Outline :=
  .node (.expression e)
    (match e with
    | .integer _ | .double _ | .string _ | .boolean _ | .identifier _ => []
    | .unary _ operand => [Expression.outlineSlot ⟨e.label, .operand⟩ operand]
    | .binary _ left right | .comparison _ left right =>
      [Expression.outlineSlot ⟨e.label, .leftOperand⟩ left, Expression.outlineSlot ⟨e.label, .rightOperand⟩ right]
    | .call _ arguments => Expression.outlines arguments)
termination_by structural e

def Expression.outlineSlot (missing : Missing) : Option Expression → Outline
  | none => .hole missing
  | some child => child.outline
termination_by structural slot => slot

def Expression.outlines : List Expression → List Outline
  | [] => []
  | e :: es => e.outline :: Expression.outlines es
termination_by structural es => es

end

def Comparison.outline (c : Comparison) : Outline :=
  .node (.comparison c)
    [Expression.outlineSlot ⟨c.label, .leftOperand⟩ c.left, Expression.outlineSlot ⟨c.label, .rightOperand⟩ c.right]

-- What stands below an assignment.
def Assignment.below (a : Assignment) : List Outline := [Expression.outlineSlot ⟨a.label, .expression⟩ a.expression]

def Assignment.outline (a : Assignment) : Outline := .node (.assignment a) a.below

-- What stands below a variable.
def Variable.below (v : Variable) : List Outline := v.assignment.toList.map Assignment.outline

def Variable.outline (v : Variable) : Outline := .node (.variableDecl v) v.below

mutual

def Statement.outline (s : Statement) : Outline :=
  .node (.statement s)
    (match s with
    | .expression e => [Expression.outlineSlot ⟨s.label, .expression⟩ e]
    | .assignment a => a.below
    | .variableDecl v => v.below
    | .returning e => e.toList.map Expression.outline
    | .block statements => Statement.outlines statements
    | .conditional condition thenBlock elseBlock =>
      requiredOutline ⟨s.label, .condition⟩ Comparison.outline condition ::
        (Statement.outlineBlock [] thenBlock ++ Statement.outlineBlock [] elseBlock)
    | .whileLoop condition body elseBlock =>
      Expression.outlineSlot ⟨s.label, .condition⟩ condition ::
        (Statement.outlineBlock [.hole ⟨s.label, .body⟩] body ++ Statement.outlineBlock [] elseBlock)
    | .forLoop init condition body update =>
      requiredOutline ⟨s.label, .initializer⟩ Assignment.outline init ::
        Expression.outlineSlot ⟨s.label, .condition⟩ condition ::
        (Statement.outlineBlock [.hole ⟨s.label, .body⟩] body ++
          [requiredOutline ⟨s.label, .update⟩ Assignment.outline update])
    | .functionDecl _ _ parameters body =>
      parameters.map Variable.outline ++ Statement.outlineBlock [.hole ⟨s.label, .body⟩] body
    | .classDecl _ body => Statement.outlineBlock [] body)
termination_by structural s

-- A place for a block, and what stands for it when it is empty.
def Statement.outlineBlock (absent : List Outline) : Option (List Statement) → List Outline
  | none => absent
  | some statements => [.node (.block statements) (Statement.outlines statements)]
termination_by structural block => block

def Statement.outlines : List Statement → List Outline
  | [] => []
  | s :: ss => s.outline :: Statement.outlines ss
termination_by structural ss => ss

end

def Block.outline (statements : Block) : Outline := .node (.block statements) (Statement.outlines statements)

def Node.outline : Node → Outline
  | .expression e => e.outline
  | .comparison c => c.outline
  | .assignment a => a.outline
  | .variableDecl v => v.outline
  | .block b => Block.outline b
  | .statement s => s.outline

theorem Expression.outlineSlot_eq (missing : Missing) (slot : Option Expression) :
    Expression.outlineSlot missing slot = requiredOutline missing Expression.outline slot := by
  cases slot <;> rfl

theorem Expression.outlines_eq_map (es : List Expression) : Expression.outlines es = es.map Expression.outline := by
  induction es with
  | nil => rfl
  | cons e es ih => simp [Expression.outlines, ih]

theorem Statement.outlineBlock_eq (absent : List Outline) (block : Option Block) :
    Statement.outlineBlock absent block = block.elim absent fun statements => [Block.outline statements] := by
  cases block <;> rfl

theorem Statement.outlines_eq_map (ss : List Statement) : Statement.outlines ss = ss.map Statement.outline := by
  induction ss with
  | nil => rfl
  | cons s ss ih => simp [Statement.outlines, ih]

namespace Outline

@[elab_as_elim, induction_eliminator]
theorem induction {motive : Outline → Prop} (hole : ∀ missing, motive (.hole missing))
    (node : ∀ parent children, (∀ child ∈ children, motive child) → motive (.node parent children))
    (outline : Outline) : motive outline := by
  refine @Outline.rec motive (fun children => ∀ child ∈ children, motive child) hole node ?_ ?_ outline
  · simp
  · intro head tail first others
    exact List.forall_mem_cons.mpr ⟨first, others⟩

mutual

-- All nodes, parents before their children.
def nodes : Outline → List Node
  | .hole _ => []
  | .node parent children => parent :: nodesOf children
termination_by structural outline => outline

def nodesOf : List Outline → List Node
  | [] => []
  | child :: children => child.nodes ++ nodesOf children
termination_by structural children => children

end

theorem nodesOf_eq_flatMap (children : List Outline) : nodesOf children = children.flatMap nodes := by
  induction children with
  | nil => rfl
  | cons child children ih => simp [nodesOf, ih]

@[simp] theorem nodes_hole (missing : Missing) : (hole missing).nodes = [] := rfl

@[simp] theorem nodes_node (parent : Node) (children : List Outline) :
    (node parent children).nodes = parent :: children.flatMap nodes := by
  rw [nodes, nodesOf_eq_flatMap]

end Outline

-- The outline of a node has the node at its root, and what stands below it is again the outline of a node, or a hole.

def Outline.children : Outline → List Outline
  | .hole _ => []
  | .node _ children => children

theorem Node.outline_eq (node : Node) : node.outline = .node node node.outline.children := by
  cases node with
  | expression e =>
    unfold Node.outline Expression.outline
    rfl
  | statement s =>
    unfold Node.outline Statement.outline
    rfl
  | comparison | assignment | variableDecl | block => rfl

inductive Outline.Rooted : Outline → Prop
  | hole (missing : Missing) : Rooted (.hole missing)
  | outline (node : Node) : Rooted node.outline

namespace Outline.Rooted

theorem required {α : Type} {outline : α → Outline} (each : ∀ child, (outline child).Rooted) (missing : Missing)
    (place : Option α) : (requiredOutline missing outline place).Rooted := by
  cases place with
  | none => exact .hole missing
  | some child => exact each child

theorem map {α : Type} {outline : α → Outline} (each : ∀ child, (outline child).Rooted) (children : List α) :
    ∀ child ∈ children.map outline, child.Rooted := by
  intro child present
  obtain ⟨inner, -, rfl⟩ := List.mem_map.mp present
  exact each inner

theorem block {absent : List Outline} (each : ∀ child ∈ absent, child.Rooted) (block : Option Block) :
    ∀ child ∈ Statement.outlineBlock absent block, child.Rooted := by
  cases block with
  | none => exact each
  | some b => exact List.forall_mem_singleton.mpr (.outline (.block b))

end Outline.Rooted

open Outline (Rooted)

theorem Expression.rooted_outlineSlot (missing : Missing) (slot : Option Expression) :
    (Expression.outlineSlot missing slot).Rooted := by
  rw [Expression.outlineSlot_eq]
  exact .required (fun e => .outline (.expression e)) missing slot

theorem Expression.rooted_outlines (es : List Expression) : ∀ child ∈ outlines es, child.Rooted := by
  rw [Expression.outlines_eq_map]
  exact Rooted.map (fun e => .outline (.expression e)) es

theorem Expression.rooted_children (e : Expression) : ∀ child ∈ e.outline.children, child.Rooted := by
  unfold Expression.outline
  cases e with
  | integer | double | string | boolean | identifier => exact List.forall_mem_nil _
  | unary => exact List.forall_mem_singleton.mpr (rooted_outlineSlot _ _)
  | binary | comparison =>
    exact List.forall_mem_cons.mpr ⟨rooted_outlineSlot _ _, List.forall_mem_singleton.mpr (rooted_outlineSlot _ _)⟩
  | call callee arguments => exact rooted_outlines arguments

theorem Assignment.rooted_below (a : Assignment) : ∀ child ∈ a.below, child.Rooted :=
  List.forall_mem_singleton.mpr (Expression.rooted_outlineSlot _ _)

theorem Variable.rooted_below (v : Variable) : ∀ child ∈ v.below, child.Rooted :=
  Rooted.map (fun a => .outline (.assignment a)) v.assignment.toList

theorem Statement.rooted_outlines (statements : List Statement) : ∀ child ∈ outlines statements, child.Rooted := by
  rw [Statement.outlines_eq_map]
  exact Rooted.map (fun s => .outline (.statement s)) statements

theorem Statement.rooted_children (s : Statement) : ∀ child ∈ s.outline.children, child.Rooted := by
  have hole : ∀ missing, ∀ child ∈ [Outline.hole missing], child.Rooted :=
    fun missing => List.forall_mem_singleton.mpr (.hole missing)
  have assigned : ∀ missing place, (requiredOutline missing Assignment.outline place).Rooted :=
    Rooted.required fun a => .outline (.assignment a)
  unfold Statement.outline
  cases s with
  | expression => exact List.forall_mem_singleton.mpr (Expression.rooted_outlineSlot _ _)
  | assignment a => exact a.rooted_below
  | variableDecl v => exact v.rooted_below
  | returning e => exact Rooted.map (fun e => .outline (.expression e)) e.toList
  | block statements => exact rooted_outlines statements
  | conditional condition thenBlock elseBlock =>
    refine List.forall_mem_cons.mpr ⟨.required (fun c => .outline (.comparison c)) _ _, ?_⟩
    exact List.forall_mem_append.mpr ⟨.block (List.forall_mem_nil _) _, .block (List.forall_mem_nil _) _⟩
  | whileLoop condition body elseBlock =>
    refine List.forall_mem_cons.mpr ⟨Expression.rooted_outlineSlot _ _, ?_⟩
    exact List.forall_mem_append.mpr ⟨.block (hole _) _, .block (List.forall_mem_nil _) _⟩
  | forLoop init condition body update =>
    refine List.forall_mem_cons.mpr ⟨assigned _ _, List.forall_mem_cons.mpr ⟨Expression.rooted_outlineSlot _ _, ?_⟩⟩
    exact List.forall_mem_append.mpr ⟨.block (hole _) _, List.forall_mem_singleton.mpr (assigned _ _)⟩
  | functionDecl returnType name parameters body =>
    refine List.forall_mem_append.mpr ⟨?_, .block (hole _) _⟩
    exact Rooted.map (fun v => .outline (.variableDecl v)) parameters
  | classDecl name body => exact .block (List.forall_mem_nil _) _

theorem Node.rooted_children (node : Node) : ∀ child ∈ node.outline.children, child.Rooted := by
  cases node with
  | expression e => exact e.rooted_children
  | comparison c => exact (Comparison.toExpression c).rooted_children
  | assignment a => exact a.rooted_below
  | variableDecl v => exact v.rooted_below
  | block b => exact Statement.rooted_outlines b
  | statement s => exact s.rooted_children

-- An outline all of whose nodes stand above their own children.
inductive Outline.Proper : Outline → Prop
  | hole (missing : Missing) : Proper (.hole missing)
  | node {parent : Node} {children : List Outline} (own : parent.outline = .node parent children)
      (below : ∀ child ∈ children, Proper child) : Proper (.node parent children)

theorem Outline.Rooted.proper {outline : Outline} (rooted : outline.Rooted) : outline.Proper := by
  induction outline with
  | hole missing => exact .hole missing
  | node root children ih =>
    generalize same : Outline.node root children = outline at rooted
    cases rooted with
    | hole => cases same
    | outline parent =>
      obtain ⟨rfl, rfl⟩ := Outline.node.inj (same.trans parent.outline_eq)
      rw [root.outline_eq]
      exact .node root.outline_eq fun child present => ih child present (root.rooted_children child present)

theorem Node.proper_outline (node : Node) : node.outline.Proper := (Outline.Rooted.outline node).proper

-- The tree below and including a node, as a list of nodes.
def Node.nodes (node : Node) : List Node := node.outline.nodes

def Node.double? : Node → Option Binary64
  | .expression (.double x) => some x
  | _ => none

-- The double literals of a tree, from left to right.
def Outline.doubles (outline : Outline) : List Binary64 := outline.nodes.filterMap Node.double?

@[simp] theorem Outline.doubles_hole (missing : Missing) : (Outline.hole missing).doubles = [] := rfl

@[simp] theorem Outline.doubles_node (parent : Node) (children : List Outline) :
    (Outline.node parent children).doubles = parent.double?.toList ++ children.flatMap Outline.doubles := by
  have below : (children.flatMap Outline.nodes).filterMap Node.double? = children.flatMap Outline.doubles := by
    rw [List.filterMap_flatMap]
    rfl
  rw [Outline.doubles, Outline.nodes_node, List.filterMap_cons, below]
  cases parent.double? <;> rfl

@[simp] theorem Outline.doubles_required {α : Type} (missing : Missing) (outline : α → Outline) (place : Option α) :
    (requiredOutline missing outline place).doubles = place.toList.flatMap fun child => (outline child).doubles := by
  cases place <;> simp [requiredOutline]

def Statement.doubles (s : Statement) : List Binary64 := s.outline.doubles

-- Parameters are the only variables that stand directly below a function.
def Node.isParameterOf (parent : Node) : Node → Bool
  | .variableDecl _ => parent.kind = .statement .functionDecl
  | _ => false

theorem Node.isParameterOf_of_ne {parent : Node} (other : parent.kind ≠ .statement .functionDecl) (child : Node) :
    parent.isParameterOf child = false := by
  cases child with
  | variableDecl => exact decide_eq_false other
  | _ => rfl

end Treeline
