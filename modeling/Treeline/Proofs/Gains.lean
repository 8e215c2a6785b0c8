import Treeline.Proofs.EmptySlots

namespace Treeline

-- Counting adds up: whatever was counted before, a tree without holes adds the same to it, and standing deeper only
-- shifts its depths.

namespace Tally

def add (first second : Tally) : Tally :=
  ⟨first.expressions + second.expressions, first.statements + second.statements,
    first.declarations + second.declarations, max first.maxDepth second.maxDepth⟩

-- The same nodes, all of them `depth` levels deeper.
def sunk (depth : Depth) (tally : Tally) : Tally := { tally with maxDepth := tally.maxDepth + depth }

def unit (category : Category) (depth : Depth) : Tally := empty.enter category depth

theorem add_assoc (first second third : Tally) : (first.add second).add third = first.add (second.add third) := by
  simp only [add, Nat.add_assoc, Nat.max_assoc]

theorem add_comm (first second : Tally) : first.add second = second.add first := by
  simp only [add, Nat.add_comm, Nat.max_comm]

theorem add_empty (tally : Tally) : tally.add empty = tally := by
  simp [add, empty]

theorem empty_add (tally : Tally) : empty.add tally = tally := by
  simp [add, empty]

theorem sunk_add (depth : Depth) (first second : Tally) :
    (first.add second).sunk depth = (first.sunk depth).add (second.sunk depth) := by
  simp only [add, sunk, Nat.add_max_add_right]

theorem sunk_sunk (depth further : Depth) (tally : Tally) :
    (tally.sunk further).sunk depth = tally.sunk (depth + further) := by
  simp only [sunk, Nat.add_assoc, Nat.add_comm further depth]

theorem sunk_unit (category : Category) (depth : Depth) : (unit category 0).sunk depth = unit category depth := by
  cases category <;> simp [unit, sunk, enter, empty]

theorem enter_eq_add (category : Category) (depth : Depth) (tally : Tally) :
    tally.enter category depth = tally.add (unit category depth) := by
  cases category <;> simp [unit, add, enter, empty]

end Tally

variable {ε σ : Type}

-- A pass that counts: what it has gathered reads as a tally, and it goes on as long as it can hold the tally it comes to.
structure Surveyor.Counts (surveyor : Surveyor ε σ) (tally : σ → Tally) (hold : Tally → Except ε σ) : Prop where
  enter : ∀ kind depth gathered,
    surveyor.enter kind depth gathered = hold ((tally gathered).add (.unit kind.category depth))
  held : ∀ gathered, hold (tally gathered) = .ok gathered
  read : ∀ {total gathered}, hold total = .ok gathered → tally gathered = total
  lost : ∀ {total error}, hold total = .error error → ∀ more, hold (total.add more) = .error error

theorem Tally.surveyor_counts : Tally.surveyor.Counts id .ok where
  enter kind depth tally := congrArg Except.ok (tally.enter_eq_add kind.category depth)
  held _ := rfl
  read held := (Except.ok.inj held).symm
  lost failed := by cases failed

def Surveying.Adds (tally : σ → Tally) (hold : Tally → Except ε σ) (surveying : Surveying ε σ) (gain : Tally) : Prop :=
  ∀ gathered, surveying gathered = hold ((tally gathered).add gain)

namespace Surveyor.Counts

variable {surveyor : Surveyor ε σ} {tally : σ → Tally} {hold : Tally → Except ε σ}

theorem skip (counts : surveyor.Counts tally hold) : Surveying.Adds tally hold skipNode Tally.empty := by
  intro gathered
  rw [Tally.add_empty, counts.held]
  rfl

theorem andThen (counts : surveyor.Counts tally hold) {first second : Surveying ε σ} {gain gain' : Tally}
    (one : first.Adds tally hold gain) (two : second.Adds tally hold gain') :
    (first.andThen second).Adds tally hold (gain.add gain') := by
  intro gathered
  unfold Surveying.andThen
  rw [one gathered, ← Tally.add_assoc]
  cases held : hold ((tally gathered).add gain) with
  | ok between => exact (two between).trans (by rw [counts.read held])
  | error error => exact (counts.lost held gain').symm

end Surveyor.Counts

namespace Outline

mutual

def gain : Outline → Tally
  | .hole _ => .empty
  | .node parent children => (Tally.unit parent.kind.category 0).add (gainAt 1 children)
termination_by structural outline => outline

def gainAt (depth : Depth) : List Outline → Tally
  | [] => .empty
  | child :: children => (child.gain.sunk depth).add (gainAt depth children)
termination_by structural children => children

end

-- Something stands at `depth` already, so nothing is lost where there are no children.
theorem sunk_add_gainAt (depth : Depth) (children : List Outline) (tally : Tally) :
    (tally.sunk depth).add (gainAt (depth + 1) children) = (tally.add (gainAt 1 children)).sunk depth := by
  induction children generalizing tally with
  | nil => simp only [gainAt, Tally.add_empty]
  | cons child children ih =>
    have shifted : child.gain.sunk (depth + 1) = (child.gain.sunk 1).sunk depth := (Tally.sunk_sunk ..).symm
    rw [gainAt, gainAt, shifted, ← Tally.add_assoc, ← Tally.sunk_add, ih, Tally.add_assoc]

end Outline

namespace Surveyor.Counts

variable {surveyor : Surveyor ε σ} {tally : σ → Tally} {hold : Tally → Except ε σ}

theorem countAll {depth : Depth} {children : List Outline} (counts : surveyor.Counts tally hold)
    (each : ∀ child ∈ children, (child.survey surveyor depth).Adds tally hold (child.gain.sunk depth)) :
    (countAll (Outline.survey surveyor depth) children).Adds tally hold (Outline.gainAt depth children) := by
  induction children with
  | nil => exact counts.skip
  | cons child children ih =>
    obtain ⟨first, others⟩ := List.forall_mem_cons.mp each
    exact counts.andThen first (ih others)

theorem outline (counts : surveyor.Counts tally hold) {outline : Outline} {inParameter : Bool}
    (whole : outline.holes inParameter = []) (depth : Depth) :
    (outline.survey surveyor depth).Adds tally hold (outline.gain.sunk depth) := by
  induction outline generalizing inParameter depth with
  | hole missing => cases whole
  | node parent children ih =>
    rw [Outline.holes_node, List.flatMap_eq_nil_iff] at whole
    have below := counts.countAll fun child present => ih child present (whole child present) (depth + 1)
    rw [Outline.survey_node, Outline.gain, ← Outline.sunk_add_gainAt, Tally.sunk_unit]
    exact counts.andThen (counts.enter parent.kind depth) below

-- A tree without holes is counted from anywhere, as far as its tally can be held.
theorem node (counts : surveyor.Counts tally hold) {node : Node} (whole : node.holes = []) (depth : Depth) :
    (node.survey surveyor depth).Adds tally hold (node.outline.gain.sunk depth) := by
  rw [Node.survey_eq]
  exact counts.outline whole depth

end Surveyor.Counts

theorem Node.count_adds {node : Node} (whole : node.holes = []) (depth : Depth) (tally : Tally) :
    node.count depth tally = .ok (tally.add (node.outline.gain.sunk depth)) :=
  Tally.surveyor_counts.node whole depth tally

theorem Node.tally_eq_gain {node : Node} (whole : node.holes = []) : node.tally = .ok node.outline.gain := by
  have counted := Node.count_adds whole Depth.root Tally.empty
  rw [Tally.empty_add] at counted
  exact counted

end Treeline
