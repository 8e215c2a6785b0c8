import Treeline.Proofs.EmptySlots
import Treeline.Proofs.Layout

namespace Treeline

-- The children of a node are the nodes that its record holds, in the order of the fields. Its outline has the same
-- children, and holes between them.

def Value.nodes : Value → List Node
  | .place child => child.toList
  | .list children => children
  | _ => []

def Node.children (node : Node) : List Node := node.record.flatMap fun field => field.2.nodes

theorem Node.mem_children {node child : Node} {field : String × Value} (present : field ∈ node.record)
    (inside : child ∈ field.2.nodes) : child ∈ node.children := List.mem_flatMap.mpr ⟨field, present, inside⟩

def Outline.isHole : Outline → Bool
  | .hole _ => true
  | .node .. => false

theorem Node.isHole_outline (node : Node) : node.outline.isHole = false := by
  rw [node.outline_eq]
  rfl

-- The outlines are those of the nodes, holes aside.
def Outline.Shows (outlines : List Outline) (nodes : List Node) : Prop :=
  outlines.filter (fun outline => !outline.isHole) = nodes.map Node.outline

namespace Outline.Shows

theorem nil : Shows [] [] := rfl

theorem append {first second : List Outline} {nodes nodes' : List Node} (one : Shows first nodes)
    (two : Shows second nodes') : Shows (first ++ second) (nodes ++ nodes') := by
  unfold Shows
  rw [List.filter_append, one, two, List.map_append]

-- The fields of a record end with an empty list.
theorem last {outlines : List Outline} {nodes : List Node} (shows : Shows outlines nodes) :
    Shows outlines (nodes ++ []) := by
  rwa [List.append_nil]

theorem mem_outlines {outlines : List Outline} {nodes : List Node} (shows : Shows outlines nodes) {node : Node}
    (present : node ∈ nodes) : node.outline ∈ outlines := by
  have shown : node.outline ∈ nodes.map Node.outline := List.mem_map_of_mem present
  rw [← shows] at shown
  exact List.mem_of_mem_filter shown

theorem hole_or_outline {outlines : List Outline} {nodes : List Node} (shows : Shows outlines nodes)
    {outline : Outline} (present : outline ∈ outlines) :
    (∃ missing, outline = .hole missing) ∨ ∃ node ∈ nodes, node.outline = outline := by
  cases outline with
  | hole missing => exact .inl ⟨missing, rfl⟩
  | node parent children =>
    have shown : Outline.node parent children ∈ nodes.map Node.outline := by
      rw [← shows]
      exact List.mem_filter.mpr ⟨present, rfl⟩
    exact .inr (List.mem_map.mp shown)

section Fields

variable {α : Type} (wrap : α → Node) {outline : α → Outline} (same : ∀ child, (wrap child).outline = outline child)
include same

theorem list (children : List α) : Shows (children.map outline) (Value.list (children.map wrap)).nodes := by
  have listed : children.map outline = (children.map wrap).map Node.outline := by
    rw [List.map_map]
    exact List.map_congr_left fun child _ => (same child).symm
  unfold Shows
  rw [listed]
  apply List.filter_eq_self.mpr
  intro shown present
  obtain ⟨node, -, rfl⟩ := List.mem_map.mp present
  rw [node.isHole_outline]
  rfl

theorem optional (place : Option α) :
    Shows (place.toList.map outline) (Value.place (place.map wrap)).nodes := by
  cases place with
  | none => exact nil
  | some child => exact list wrap same [child]

theorem required (missing : Missing) (place : Option α) :
    Shows [requiredOutline missing outline place] (Value.place (place.map wrap)).nodes := by
  cases place with
  | none => rfl
  | some child => exact list wrap same [child]

end Fields

theorem slot (missing : Missing) (slot : Option Expression) :
    Shows [Expression.outlineSlot missing slot] (Value.place (slot.map .expression)).nodes := by
  rw [Expression.outlineSlot_eq]
  exact required Node.expression (fun _ => rfl) missing slot

theorem block {absent : List Outline} (empty : Shows absent []) (block : Option Block) :
    Shows (Statement.outlineBlock absent block) (Value.place (block.map .block)).nodes := by
  cases block with
  | none => exact empty
  | some b => exact list Node.block (fun _ => rfl) [b]

end Outline.Shows

open Outline (Shows)

theorem Expression.shows_children (e : Expression) : Shows e.outline.children (Node.expression e).children := by
  have each : ∀ e : Expression, (Node.expression e).outline = e.outline := fun _ => rfl
  unfold Expression.outline
  cases e with
  | integer | double | string | boolean | identifier => exact .nil
  | unary operator operand => exact (Shows.slot _ operand).last
  | binary operator left right | comparison operator left right =>
    exact (Shows.slot _ left).append (Shows.slot _ right).last
  | call callee arguments =>
    have shown := Shows.list Node.expression each arguments
    rw [← outlines_eq_map] at shown
    exact shown.last

theorem Assignment.shows_below (a : Assignment) : Shows a.below (Node.assignment a).children :=
  (Shows.slot _ a.expression).last

theorem Variable.shows_below (v : Variable) : Shows v.below (Node.variableDecl v).children :=
  (Shows.optional Node.assignment (fun _ => rfl) v.assignment).last

theorem Block.shows_children (b : Block) : Shows (Statement.outlines b) (Node.block b).children := by
  have each : ∀ s : Statement, (Node.statement s).outline = s.outline := fun _ => rfl
  have shown := Shows.list Node.statement each b
  rw [← Statement.outlines_eq_map] at shown
  exact shown.last

theorem Statement.shows_children (s : Statement) : Shows s.outline.children (Node.statement s).children := by
  have hole : ∀ missing, Shows [.hole missing] [] := fun _ => rfl
  have compared := Shows.required Node.comparison fun _ => rfl
  have assigned := Shows.required Node.assignment fun _ => rfl
  have parameters := Shows.list Node.variableDecl fun _ => rfl
  unfold Statement.outline
  cases s with
  | expression e => exact (Shows.slot _ e).last
  | assignment a => exact a.shows_below
  | variableDecl v => exact v.shows_below
  | returning e => exact (Shows.optional Node.expression (fun _ => rfl) e).last
  | block statements => exact Block.shows_children statements
  | conditional condition thenBlock elseBlock =>
    exact (compared _ condition).append ((Shows.block .nil thenBlock).append (Shows.block .nil elseBlock).last)
  | whileLoop condition body elseBlock =>
    exact (Shows.slot _ condition).append ((Shows.block (hole _) body).append (Shows.block .nil elseBlock).last)
  | forLoop init condition body update =>
    exact (assigned _ init).append ((Shows.slot _ condition).append ((Shows.block (hole _) body).append
      (assigned _ update).last))
  | functionDecl returnType name vs body => exact (parameters vs).append (Shows.block (hole _) body).last
  | classDecl name body => exact (Shows.block .nil body).last

-- Nothing stands below a node but the nodes of its record and holes.
theorem Node.shows_children (node : Node) : Shows node.outline.children node.children := by
  cases node with
  | expression e => exact e.shows_children
  | comparison c => exact c.toExpression.shows_children
  | assignment a => exact a.shows_below
  | variableDecl v => exact v.shows_below
  | block b => exact Block.shows_children b
  | statement s => exact s.shows_children

-- Induction from the children of a node to the node.
@[elab_as_elim]
theorem Node.children_induction {motive : Node → Prop}
    (step : ∀ node : Node, (∀ child ∈ node.children, motive child) → motive node) (node : Node) : motive node := by
  induction shape : node.outline generalizing node with
  | hole missing =>
    rw [node.outline_eq] at shape
    cases shape
  | node parent outlines ih =>
    have below : node.outline.children = outlines := by
      rw [shape]
      rfl
    refine step node fun child present => ?_
    exact ih child.outline (below ▸ node.shows_children.mem_outlines present) child rfl

end Treeline
