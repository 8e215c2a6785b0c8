import Treeline.Proofs.Levels
import Treeline.Proofs.Words

namespace Treeline

-- What the counts say about a tree: how many nodes of each category it has, and how far the farthest is from the root.

-- How many nodes are of a category. Bodies of functions, parameters and their initial values are nodes like all others.
def Node.countOf (category : Category) (node : Node) : Nat :=
  node.nodes.countP fun inner => inner.kind.category = category

def Place.deepest (places : List Place) : Nat := places.foldr (fun place below => max place.depth below) 0

-- The length of the longest way from the root to a node.
def Node.height (node : Node) : Nat := Place.deepest node.places

namespace Place

theorem exists_deepest {places : List Place} (nonempty : places ≠ []) :
    ∃ place ∈ places, place.depth = deepest places := by
  induction places with
  | nil => exact absurd rfl nonempty
  | cons first places ih =>
    rcases Nat.le_total (deepest places) first.depth with above | below
    · exact ⟨first, List.mem_cons_self, (Nat.max_eq_left above).symm⟩
    · cases places with
      | nil => exact ⟨first, List.mem_cons_self, (Nat.max_eq_left (Nat.zero_le _)).symm⟩
      | cons second places =>
        obtain ⟨place, member, depth⟩ := ih (List.cons_ne_nil _ _)
        exact ⟨place, List.mem_cons_of_mem _ member, depth.trans (Nat.max_eq_right below).symm⟩

end Place

-- Entering places one by one counts them by category and keeps the greatest depth.
theorem Tally.foldl_enterPlace (places : List Place) (tally : Tally) :
    let countOf := fun category => places.countP fun place => place.node.kind.category = category
    places.foldl Tally.enterPlace tally =
      ⟨tally.expressions + countOf .expression, tally.statements + countOf .statement,
        tally.declarations + countOf .declaration, max tally.maxDepth (Place.deepest places)⟩ := by
  intro countOf
  induction places generalizing tally with
  | nil => simp [countOf, Place.deepest]
  | cons place places ih =>
    rw [List.foldl_cons, ih]
    cases category : place.node.kind.category <;>
      simp [countOf, Place.deepest, enterPlace, enter, category, Nat.add_assoc, Nat.add_comm, Nat.max_assoc]

-- Every node is of one category.
theorem Node.length_nodes (node : Node) :
    node.countOf .expression + node.countOf .statement + node.countOf .declaration = node.nodes.length := by
  unfold countOf
  induction node.nodes with
  | nil => rfl
  | cons inner nodes ih =>
    simp only [List.countP_cons, List.length_cons]
    cases inner.kind.category <;> simp <;> omega

-- A way down leads through as many nodes as it has steps, and to one more.
theorem Outline.depth_lt (outline : Outline) (ancestors : List Node) :
    ∀ place ∈ outline.places ancestors, place.depth < ancestors.length + (outline.places ancestors).length := by
  induction outline generalizing ancestors with
  | hole missing =>
    intro place member
    cases member
  | node parent children ih =>
    intro place member
    rw [places_node] at member ⊢
    rw [List.length_cons]
    rcases List.mem_cons.mp member with rfl | below
    · simp only [Place.depth]
      omega
    · obtain ⟨child, present, inside⟩ := List.mem_flatMap.mp below
      have deep := ih child present (parent :: ancestors) place inside
      have fits : (child.places (parent :: ancestors)).length ≤
          (children.flatMap (places (parent :: ancestors))).length :=
        (List.sublist_flatten_of_mem (List.mem_map_of_mem present)).length_le
      rw [List.length_cons] at deep
      omega

theorem Node.countP_places (node : Node) (p : Node → Bool) :
    (node.places.countP fun place => p place.node) = node.nodes.countP p := by
  rw [Node.nodes, ← node.outline.map_node_places [], List.countP_map]
  rfl

theorem Node.length_places (node : Node) : node.places.length = node.nodes.length := by
  rw [Node.nodes, ← node.outline.map_node_places [], List.length_map]
  rfl

-- What a whole tree adds to any count.
theorem Node.gain_outline {node : Node} (whole : node.holes = []) :
    node.outline.gain =
      ⟨node.countOf .expression, node.countOf .statement, node.countOf .declaration, node.height⟩ := by
  have counted := node.tally_eq_gain whole
  rw [Node.tally, Node.count_eq] at counted
  have listed (category : Category) :
      (node.places.countP fun place => place.node.kind.category = category) = node.countOf category :=
    node.countP_places fun inner => inner.kind.category = category
  have entered := Tally.foldl_enterPlace node.places .empty
  simp only [listed, Tally.empty, Nat.zero_add, Nat.zero_max] at entered
  exact (node.outline.tally_of_count [] counted).trans entered

theorem Node.total_of_tally {node : Node} {totals : Tally} (counted : node.tally = .ok totals) :
    totals.total = node.nodes.length := by
  have whole := Node.holes_eq_nil_of_tally counted
  rw [node.tally_eq_gain whole, Node.gain_outline whole] at counted
  cases counted
  exact node.length_nodes

namespace Node

variable {node : Node}

end Node

end Treeline
