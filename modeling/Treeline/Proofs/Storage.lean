import Treeline.Command.Disk

namespace Treeline.Disk

-- What a new file changes on a disk: its own place, and nothing else.

-- Everything above a place that can be walked to is there.
def Reached (disk : Disk) (location : Location) : Prop :=
  ∀ above, above <+: location → above ≠ location → (disk.lookup? above).isSome

theorem reached_start (disk : Disk) (path : String) : disk.Reached (start path) := by
  intro above before other
  have top : (disk.lookup? []).isSome := by
    unfold lookup?
    split <;> simp
  unfold start at before other
  split at before
  · rcases List.prefix_cons_iff.mp before with rfl | ⟨tail, rfl, more⟩
    · exact top
    · rw [List.prefix_nil.mp more] at other
      exact absurd (by simp [*]) other
  · rw [List.prefix_nil.mp before]
    exact top

theorem Reached.dropLast {disk : Disk} {location : Location} (reached : disk.Reached location) :
    disk.Reached location.dropLast := by
  intro above before other
  have le := before.length_le
  refine reached above (before.trans (List.dropLast_prefix location)) ?_
  rintro rfl
  refine other (before.eq_of_length ?_)
  rw [List.length_dropLast] at le ⊢
  omega

theorem Reached.append {disk : Disk} {location : Location} (reached : disk.Reached location)
    (present : (disk.lookup? location).isSome) (name : String) : disk.Reached (location ++ [name]) := by
  intro above before other
  rcases List.prefix_concat_iff.mp before with same | inside
  · exact absurd same other
  · by_cases same : above = location
    · rw [same]
      exact present
    · exact reached above inside same

theorem Reached.advance {disk : Disk} {location : Location} (reached : disk.Reached location)
    (present : (disk.lookup? location).isSome) (name : String) : disk.Reached (advance location name) := by
  unfold Disk.advance parent
  split
  · exact reached
  · split
    · split
      · exact reached.append present ".."
      · split
        · exact reached
        · exact reached.dropLast
    · exact reached.append present name

theorem reached_walk {disk : Disk} {location final : Location} {names : List String} (reached : disk.Reached location)
    (walked : disk.walk location names = .ok final) : disk.Reached final := by
  induction names generalizing location with
  | nil =>
    cases walked
    exact reached
  | cons name names ih =>
    rw [walk] at walked
    cases found : disk.lookup? location with
    | none => simp [found] at walked
    | some entry =>
      cases entry with
      | directory =>
        rw [found] at walked
        exact ih (reached.advance (by rw [found]; rfl) name) walked
      | _ => simp [found] at walked

theorem lookup?_store_self (disk : Disk) (location : Location) (contents : Bytes) :
    (disk.store location contents).lookup? location = some (.file contents) := by
  simp [lookup?, store]

theorem any_store {disk : Disk} {location other : Location} (outside : other.isPrefixOf location = false)
    (contents : Bytes) :
    (disk.store location contents).any (fun entry => other.isPrefixOf entry.1) =
      disk.any fun entry => other.isPrefixOf entry.1 := by
  rw [store, List.any_cons, outside, Bool.false_or, List.any_filter]
  congr 1
  funext entry
  by_cases same : entry.1 = location
  · simp [same, outside]
  · simp [same]

-- Directories above the new file are there already, so that none comes into being with it.
theorem lookup?_store_of_ne {disk : Disk} {location other : Location} (reached : disk.Reached location)
    (distinct : other ≠ location) (contents : Bytes) :
    (disk.store location contents).lookup? other = disk.lookup? other := by
  have present : other.isPrefixOf location = true → (disk.lookup? other).isSome := by
    intro before
    exact reached other (List.isPrefixOf_iff_prefix.mp before) distinct
  unfold lookup? at present ⊢
  rw [find?_store_of_ne distinct]
  cases found : disk.find? fun entry => entry.1 == other with
  | some entry => rfl
  | none =>
    cases above : other.isPrefixOf location with
    | false => rw [any_store above]
    | true =>
      have before := present above
      have after : (disk.store location contents).any (fun entry => other.isPrefixOf entry.1) = true := by
        simp [store, above]
      simp only [found, after, Bool.or_true, if_true] at before ⊢
      split at before
      · rename_i isDirectory
        rw [if_pos isDirectory]
      · cases before

theorem walk_store {disk : Disk} {target : Location} (reached : disk.Reached target)
    (noDirectory : disk.lookup? target ≠ some .directory) (contents : Bytes) {location final : Location}
    {names : List String} (walked : disk.walk location names = .ok final) :
    (disk.store target contents).walk location names = .ok final := by
  induction names generalizing location with
  | nil => exact walked
  | cons name names ih =>
    rw [walk] at walked ⊢
    cases found : disk.lookup? location with
    | none => simp [found] at walked
    | some entry =>
      cases entry with
      | directory =>
        have distinct : location ≠ target := by
          rintro rfl
          exact noDirectory found
        rw [lookup?_store_of_ne reached distinct, found]
        rw [found] at walked
        exact ih walked
      | _ => simp [found] at walked

-- What is known of a place where a file may be written.
structure Writable (disk : Disk) (path : String) (location : Location) (entry : DiskEntry) : Prop where
  named : path.isEmpty = false
  ends : endsInSlash path = false
  walked : disk.walk (start path) (names path) = .ok location
  noDirectory : disk.lookup? location ≠ some .directory
  entry_eq : entry = (disk.lookup? location).getD (.file [])

theorem writable_of_create {disk : Disk} {path : String} {location : Location} {entry : DiskEntry}
    (created : disk.create path = .ok (location, entry)) : disk.Writable path location entry := by
  unfold create at created
  cases named : path.isEmpty with
  | true => simp [named, bind, Except.bind] at created
  | false =>
    cases walked : disk.walk (start path) (names path) with
    | error fault => simp [named, walked, bind, Except.bind] at created
    | ok place =>
      simp only [named, walked, bind, Except.bind, Bool.false_eq_true, if_false] at created
      split at created
      · cases created
      · split at created
        · cases created
        · rename_i noDirectory ends
          cases created
          exact ⟨named, Bool.eq_false_iff.mpr ends, walked, noDirectory, rfl⟩

theorem Writable.reached {disk : Disk} {path : String} {location : Location} {entry : DiskEntry}
    (writable : disk.Writable path location entry) : disk.Reached location :=
  reached_walk (disk.reached_start path) writable.walked

end Treeline.Disk
