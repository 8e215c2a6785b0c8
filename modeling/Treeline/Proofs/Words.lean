import Treeline.Proofs.Gains
import Treeline.Tally.Counter

namespace Treeline

-- Counting with machine words is counting, as far as words reach.

def Counter.tally (counter : Counter) : Tally :=
  ⟨counter.expressions.toNat, counter.statements.toNat, counter.declarations.toNat, counter.maxDepth.toNat⟩

namespace Tally

-- No number of the tally is too large for a word.
structure Fits (tally : Tally) : Prop where
  expressions : tally.expressions < UInt64.size
  statements : tally.statements < UInt64.size
  declarations : tally.declarations < UInt64.size
  maxDepth : tally.maxDepth < UInt64.size

theorem fits_iff (tally : Tally) : tally.Fits ↔ tally.expressions < UInt64.size ∧ tally.statements < UInt64.size ∧
    tally.declarations < UInt64.size ∧ tally.maxDepth < UInt64.size :=
  ⟨fun ⟨expressions, statements, declarations, maxDepth⟩ => ⟨expressions, statements, declarations, maxDepth⟩,
    fun ⟨expressions, statements, declarations, maxDepth⟩ => ⟨expressions, statements, declarations, maxDepth⟩⟩

instance (tally : Tally) : Decidable tally.Fits := decidable_of_iff' _ tally.fits_iff

def toCounter (tally : Tally) : Except CountFault Counter :=
  if tally.Fits then
    .ok ⟨.ofNat tally.expressions, .ofNat tally.statements, .ofNat tally.declarations, .ofNat tally.maxDepth⟩
  else .error .overflow

theorem fits_of_add {tally more : Tally} (fits : (tally.add more).Fits) : tally.Fits := by
  obtain ⟨expressions, statements, declarations, maxDepth⟩ := fits
  exact ⟨Nat.lt_of_le_of_lt (Nat.le_add_right ..) expressions, Nat.lt_of_le_of_lt (Nat.le_add_right ..) statements,
    Nat.lt_of_le_of_lt (Nat.le_add_right ..) declarations, Nat.lt_of_le_of_lt (Nat.le_max_left ..) maxDepth⟩

theorem tally_of_toCounter {tally : Tally} {counter : Counter} (held : tally.toCounter = .ok counter) :
    counter.tally = tally := by
  unfold toCounter at held
  split at held
  · rename_i fits
    cases held
    simp only [Counter.tally, UInt64.toNat_ofNat_of_lt' fits.expressions, UInt64.toNat_ofNat_of_lt' fits.statements,
      UInt64.toNat_ofNat_of_lt' fits.declarations, UInt64.toNat_ofNat_of_lt' fits.maxDepth]
  · cases held

end Tally

namespace Counter

theorem fits_tally (counter : Counter) : counter.tally.Fits :=
  ⟨UInt64.toNat_lt_size _, UInt64.toNat_lt_size _, UInt64.toNat_lt_size _, UInt64.toNat_lt_size _⟩

theorem toCounter_tally (counter : Counter) : counter.tally.toCounter = .ok counter := by
  rw [Tally.toCounter, if_pos counter.fits_tally]
  simp only [tally, UInt64.ofNat_toNat]

theorem max_ofNat (word : UInt64) {n : Nat} (small : n < UInt64.size) :
    max word (.ofNat n) = .ofNat (max word.toNat n) := by
  have order : word ≤ UInt64.ofNat n ↔ word.toNat ≤ n := by
    rw [UInt64.le_iff_toNat_le, UInt64.toNat_ofNat_of_lt' small]
  change (if word ≤ UInt64.ofNat n then UInt64.ofNat n else word) = _
  split
  · rename_i below
    rw [Nat.max_eq_right (order.mp below)]
  · rename_i above
    rw [Nat.max_eq_left (Nat.le_of_not_le fun below => above (order.mpr below)), UInt64.ofNat_toNat]

theorem fits_enter_iff (category : Category) (depth : Depth) (counter : Counter) :
    (counter.tally.enter category depth).Fits ↔
      depth < UInt64.size ∧ (counter.get category).toNat + 1 < UInt64.size := by
  obtain ⟨expressions, statements, declarations, maxDepth⟩ := counter.fits_tally
  have deepest : max counter.tally.maxDepth depth < UInt64.size ↔ depth < UInt64.size :=
    Nat.max_lt.trans (and_iff_right maxDepth)
  rw [Tally.fits_iff]
  cases category with
  | expression => exact ⟨fun ⟨room, _, _, shallow⟩ => ⟨deepest.mp shallow, room⟩,
      fun ⟨shallow, room⟩ => ⟨room, statements, declarations, deepest.mpr shallow⟩⟩
  | statement => exact ⟨fun ⟨_, room, _, shallow⟩ => ⟨deepest.mp shallow, room⟩,
      fun ⟨shallow, room⟩ => ⟨expressions, room, declarations, deepest.mpr shallow⟩⟩
  | declaration => exact ⟨fun ⟨_, _, room, shallow⟩ => ⟨deepest.mp shallow, room⟩,
      fun ⟨shallow, room⟩ => ⟨expressions, statements, room, deepest.mpr shallow⟩⟩

-- A node is counted if there is room for its depth, and for one more of its category.
theorem enter?_stops (category : Category) (depth : Depth) (counter : Counter) :
    (counter.enter? .stops category depth).elim (.error .overflow) .ok =
      (counter.tally.enter category depth).toCounter := by
  rw [Tally.toCounter]
  by_cases fits : (counter.tally.enter category depth).Fits
  · obtain ⟨shallow, room⟩ := (counter.fits_enter_iff category depth).mp fits
    have deepest := max_ofNat counter.maxDepth shallow
    rw [if_pos fits, enter?, Overflow.word?_of_lt _ shallow, Overflow.word?_of_lt _ room]
    cases category <;> simp [Tally.enter, tally, get, set, deepest]
  · rw [if_neg fits]
    by_cases shallow : depth < UInt64.size
    · have full : ¬ (counter.get category).toNat + 1 < UInt64.size := fun room =>
        fits ((counter.fits_enter_iff category depth).mpr ⟨shallow, room⟩)
      simp [enter?, Overflow.word?, shallow, full]
    · simp [enter?, Overflow.word?, shallow]

theorem surveyor_counts : (surveyor .stops).Counts tally Tally.toCounter where
  enter kind depth counter := by
    rw [← Tally.enter_eq_add]
    exact enter?_stops kind.category depth counter
  held := toCounter_tally
  read := Tally.tally_of_toCounter
  lost {total error} failed more := by
    unfold Tally.toCounter at failed ⊢
    split at failed
    · cases failed
    · rename_i beyond
      rw [if_neg fun fits => beyond (Tally.fits_of_add fits)]
      exact failed

end Counter

section Extends

variable {ε ε' σ : Type} {surveyor : Surveyor ε σ} {other : Surveyor ε' σ}

def Surveying.Extends (surveying : Surveying ε σ) (other : Surveying ε' σ) : Prop :=
  ∀ before after, surveying before = .ok after → other before = .ok after

theorem Surveying.Extends.andThen {first second : Surveying ε σ} {first' second' : Surveying ε' σ}
    (one : first.Extends first') (two : second.Extends second') :
    (first.andThen second).Extends (first'.andThen second') := by
  intro before after surveyed
  unfold Surveying.andThen at surveyed ⊢
  cases entered : first before with
  | error error =>
    rw [entered] at surveyed
    cases surveyed
  | ok between =>
    rw [entered] at surveyed
    rw [one _ _ entered]
    exact two _ _ surveyed

end Extends

end Treeline
