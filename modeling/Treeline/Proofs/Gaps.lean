import Treeline.Proofs.Tracing

namespace Treeline

-- Where the printing pass stops. Unlike a hole, a gap knows how the passes come to it.

-- A place that must be filled and is empty, with the way to it: the nodes from the root down to the one that misses
-- something.
structure Gap where
  missing : Missing
  path : List Node

def Gap.below (parent : Node) (gap : Gap) : Gap := ⟨gap.missing, parent :: gap.path⟩

def Place.along (ancestors : List Node) : List Node → List Place
  | [] => []
  | node :: path => ⟨node, ancestors⟩ :: along (node :: ancestors) path

namespace Outline

mutual

def gaps : Outline → List Gap
  | .hole missing => [⟨missing, []⟩]
  | .node parent children => (gapsOf children).map (Gap.below parent)
termination_by structural outline => outline

def gapsOf : List Outline → List Gap
  | [] => []
  | child :: children => child.gaps ++ gapsOf children
termination_by structural children => children

end

end Outline

-- Whether the printing pass comes to a gap: it does not look into parameters.
def Gap.isPrinted (ancestors : List Node) (gap : Gap) : Bool :=
  (Place.along ancestors gap.path).all fun place => !place.isParameter

namespace Outline

theorem gapsOf_eq_flatMap (children : List Outline) : gapsOf children = children.flatMap gaps := by
  induction children with
  | nil => rfl
  | cons child children ih => rw [gapsOf, ih, List.flatMap_cons]

theorem gaps_node (parent : Node) (children : List Outline) :
    (node parent children).gaps = (children.flatMap gaps).map (Gap.below parent) := by
  rw [gaps, gapsOf_eq_flatMap]

def reported (ancestors : List Node) (outline : Outline) : Option Gap := outline.gaps.find? (Gap.isPrinted ancestors)

theorem isPrinted_below (ancestors : List Node) (parent : Node) (gap : Gap) :
    (gap.below parent).isPrinted ancestors =
      (!Place.isParameter ⟨parent, ancestors⟩ && gap.isPrinted (parent :: ancestors)) := rfl

theorem reported_parameter {ancestors : List Node} {parent : Node}
    (parameter : Place.isParameter ⟨parent, ancestors⟩ = true) (children : List Outline) :
    (node parent children).reported ancestors = none := by
  rw [reported, gaps_node]
  refine List.find?_eq_none.mpr fun gap member => ?_
  obtain ⟨inner, -, rfl⟩ := List.mem_map.mp member
  rw [isPrinted_below, parameter]
  exact Bool.false_ne_true

theorem reported_node {ancestors : List Node} {parent : Node}
    (noParameter : Place.isParameter ⟨parent, ancestors⟩ = false) (children : List Outline) :
    (node parent children).reported ancestors =
      ((children.flatMap gaps).find? (Gap.isPrinted (parent :: ancestors))).map (Gap.below parent) := by
  have same : Gap.isPrinted ancestors ∘ Gap.below parent = Gap.isPrinted (parent :: ancestors) := by
    funext gap
    rw [Function.comp_apply, isPrinted_below, noParameter]
    rfl
  rw [reported, gaps_node, List.find?_map, same]

end Outline

-- The node at the end of the way to a gap is the one that misses something.
theorem Outline.Sound.exists_place {outline : Outline} (sound : outline.Sound) (ancestors : List Node) :
    ∀ gap ∈ outline.gaps, outline = .hole gap.missing ∧ gap.path = [] ∨
      ∃ place ∈ outline.places ancestors, ancestors.reverse ++ gap.path = (place.node :: place.ancestors).reverse ∧
        gap.missing.node = place.node.label ∧ gap.missing.slot ∈ place.node.emptySlots := by
  induction sound generalizing ancestors with
  | hole missing =>
    intro gap member
    cases List.mem_singleton.mp member
    exact .inl ⟨rfl, rfl⟩
  | @node parent children own parameters below ih =>
    intro gap member
    rw [gaps_node] at member
    obtain ⟨inner, listed, rfl⟩ := List.mem_map.mp member
    obtain ⟨child, present, inside⟩ := List.mem_flatMap.mp listed
    rw [places_node]
    refine .inr ?_
    rcases ih child present (parent :: ancestors) inner inside with ⟨bare, ends⟩ | ⟨place, deeper, path, reported⟩
    · have missed : inner.missing ∈ parent.emptySlots.map (Missing.mk parent.label) := by
        rw [← own]
        exact List.mem_flatMap.mpr ⟨child, present, mem_ownHoles.mpr bare⟩
      obtain ⟨slot, empty, same⟩ := List.mem_map.mp missed
      refine ⟨⟨parent, ancestors⟩, List.mem_cons_self, ?_, ?_⟩
      · rw [Gap.below, ends, List.reverse_cons]
      · rw [Gap.below, ← same]
        exact ⟨rfl, empty⟩
    · refine ⟨place, List.mem_cons_of_mem _ (List.mem_flatMap.mpr ⟨child, present, deeper⟩), ?_, reported⟩
      rw [← path, List.reverse_cons, List.append_assoc]
      rfl

def Node.reportedGap (node : Node) : Option Gap := node.outline.reported []

theorem Node.exists_place_of_reportedGap {node : Node} {gap : Gap} (found : node.reportedGap = some gap) :
    ∃ place ∈ node.places, gap.path = (place.node :: place.ancestors).reverse ∧
      gap.missing.node = place.node.label ∧ gap.missing.slot ∈ place.node.emptySlots := by
  have listed : gap ∈ node.outline.gaps := List.mem_of_find?_eq_some found
  rcases node.sound_outline.exists_place [] gap listed with ⟨bare, -⟩ | place
  · exact absurd bare (node.outline_ne_hole _)
  · exact place

end Treeline
