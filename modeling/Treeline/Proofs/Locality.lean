import Treeline.Proofs.Continuation

namespace Treeline.Document

-- Values that have been read are read again in the same way in front of any other text.

theorem skipBlanks_extend {source more : List Char} {c : Char} (found : skipBlanks source = c :: more)
    (text : List Char) : skipBlanks (source ++ text) = c :: (more ++ text) := by
  rw [skipBlanks] at found ⊢
  rw [List.dropWhile_append, found]
  rfl

def Member.append (text : List Char) : Member → Member
  | .finished rest => .finished (rest ++ text)
  | .start rest => .start (rest ++ text)

theorem nextItem_append {first : Bool} {source : List Char} {member : Member}
    (next : nextItem first source = .ok member) (text : List Char) :
    nextItem first (source ++ text) = .ok (member.append text) := by
  rw [nextItem.eq_def] at next ⊢
  split at next
  · cases next
  · next behind found =>
    cases next
    rw [skipBlanks_extend found]
    rfl
  · next c behind other found =>
    rw [skipBlanks_extend found]
    split
    · next none => cases none
    · next closed => exact absurd (List.cons.inj closed).1 other
    · next same =>
      cases same
      cases first with
      | true =>
        cases next
        rfl
      | false =>
        simp only [Bool.false_eq_true, if_false] at next ⊢
        split at next
        · next comma =>
          rw [if_pos comma]
          cases start : skipBlanks behind with
          | nil =>
            rw [start] at next
            cases next
          | cons d more =>
            rw [start] at next
            rw [skipBlanks_extend start]
            split at next
            · cases next
            · cases next
            · next unclosed =>
              cases next
              split
              · next none => cases none
              · next closed =>
                obtain ⟨rfl, -⟩ := List.cons.inj closed
                exact absurd rfl (unclosed more)
              · rfl
        · cases next

theorem nextKey_append {first : Bool} {source : List Char} {member : Member}
    (next : nextKey first source = .ok member) (text : List Char) :
    nextKey first (source ++ text) = .ok (member.append text) := by
  rw [nextKey.eq_def] at next ⊢
  split at next
  · cases next
  · next behind found =>
    cases next
    rw [skipBlanks_extend found]
    rfl
  · next c behind other found =>
    rw [skipBlanks_extend found]
    split
    · next none => cases none
    · next closed => exact absurd (List.cons.inj closed).1 other
    · next same =>
      cases same
      cases first with
      | true =>
        simp only [if_true] at next ⊢
        split at next
        · next quote =>
          cases next
          rw [if_pos quote]
          rfl
        · cases next
      | false =>
        simp only [Bool.false_eq_true, if_false] at next ⊢
        split at next
        · next comma =>
          rw [if_pos comma]
          split at next
          · cases next
          · next key start =>
            cases next
            rw [skipBlanks_extend start]
            rfl
          · cases next
          · cases next
        · cases next

theorem readColon_append {source rest : List Char} (read : readColon source = .ok rest) (text : List Char) :
    readColon (source ++ text) = .ok (rest ++ text) := by
  rw [readColon] at read ⊢
  split at read
  · cases read
  · next found =>
    cases read
    rw [skipBlanks_extend found]
    rfl
  · cases read

-- What one step over the members of a bracket can do.

theorem readItems_cases {item : Reader Document} {fuel : Nat} {first : Bool} {source rest : List Char}
    {items : List Document} (read : readItems item (fuel + 1) first source = .ok (items, rest)) :
    (nextItem first source = .ok (.finished rest) ∧ items = []) ∨
    ∃ start d behind ds, nextItem first source = .ok (.start start) ∧ item start = .ok (d, behind) ∧
      readItems item fuel false behind = .ok (ds, rest) ∧ items = d :: ds := by
  obtain ⟨member, next, more⟩ := eq_ok_of_bind read
  cases member with
  | finished left =>
    cases more
    exact .inl ⟨next, rfl⟩
  | start start =>
    obtain ⟨⟨d, behind⟩, here, others⟩ := eq_ok_of_bind more
    obtain ⟨⟨ds, left⟩, there, last⟩ := eq_ok_of_bind others
    cases last
    exact .inr ⟨start, d, behind, ds, next, here, there, rfl⟩

theorem readEntries_cases {item : Reader Document} {fuel : Nat} {first : Bool} {source rest : List Char}
    {entries : List (String × Document)} (read : readEntries item (fuel + 1) first source = .ok (entries, rest)) :
    (nextKey first source = .ok (.finished rest) ∧ entries = []) ∨
    ∃ start key colon value d behind es, nextKey first source = .ok (.start start) ∧
      readString start = .ok (key, colon) ∧ readColon colon = .ok value ∧ item value = .ok (d, behind) ∧
      readEntries item fuel false behind = .ok (es, rest) ∧ entries = (key, d) :: es := by
  obtain ⟨member, next, more⟩ := eq_ok_of_bind read
  cases member with
  | finished left =>
    cases more
    exact .inl ⟨next, rfl⟩
  | start start =>
    obtain ⟨⟨key, colon⟩, spelled, afterKey⟩ := eq_ok_of_bind more
    obtain ⟨value, found, afterColon⟩ := eq_ok_of_bind afterKey
    obtain ⟨⟨d, behind⟩, here, others⟩ := eq_ok_of_bind afterColon
    obtain ⟨⟨es, left⟩, there, last⟩ := eq_ok_of_bind others
    cases last
    exact .inr ⟨start, key, colon, value, d, behind, es, next, spelled, found, here, there, rfl⟩

-- Something is left behind every member, so nothing can go on there.

theorem readItems_joins {item : Reader Document} {fuel : Nat} {source rest : List Char} {items : List Document}
    (read : readItems item fuel false source = .ok (items, rest)) (text : List Char) : Joins source text := by
  rintro rfl
  cases fuel <;> cases read

theorem readEntries_joins {item : Reader Document} {fuel : Nat} {source rest : List Char}
    {entries : List (String × Document)} (read : readEntries item fuel false source = .ok (entries, rest))
    (text : List Char) : Joins source text := by
  rintro rfl
  cases fuel <;> cases read

section Members

-- A reader of values and another one, with room for values of so many levels in front of a text.
variable {item wider : Reader Document} {levels : Nat} {text : List Char}
  (each : ∀ {source rest : List Char} {d : Document}, item source = .ok (d, rest) → d.nesting ≤ levels →
    Joins rest text → wider (source ++ text) = .ok (d, rest ++ text))
include each

theorem readItems_extend {fuel more : Nat} (enough : fuel ≤ more) {first : Bool} {source rest : List Char}
    {items : List Document} (read : readItems item fuel first source = .ok (items, rest))
    (shallow : itemsNesting items ≤ levels) :
    readItems wider more first (source ++ text) = .ok (items, rest ++ text) := by
  induction fuel generalizing more first source items with
  | zero => cases read
  | succ fuel ih =>
    obtain ⟨more, rfl⟩ := Nat.exists_eq_add_of_lt enough
    rw [readItems]
    rcases readItems_cases read with ⟨next, rfl⟩ | ⟨start, d, behind, ds, next, here, there, rfl⟩
    · rw [nextItem_append next text]
      rfl
    · obtain ⟨low, others⟩ := Nat.max_le.mp shallow
      rw [nextItem_append next text]
      change (wider (start ++ text) >>= _) = _
      rw [each here low (readItems_joins there text)]
      change (readItems wider (fuel + more) false (behind ++ text) >>= _) = _
      rw [ih (Nat.le_add_right _ _) there others]
      rfl

theorem readEntries_extend {fuel more : Nat} (enough : fuel ≤ more) {first : Bool} {source rest : List Char}
    {entries : List (String × Document)} (read : readEntries item fuel first source = .ok (entries, rest))
    (shallow : entriesNesting entries ≤ levels) :
    readEntries wider more first (source ++ text) = .ok (entries, rest ++ text) := by
  induction fuel generalizing more first source entries with
  | zero => cases read
  | succ fuel ih =>
    obtain ⟨more, rfl⟩ := Nat.exists_eq_add_of_lt enough
    rw [readEntries]
    rcases readEntries_cases read with ⟨next, rfl⟩ |
      ⟨start, key, colon, value, d, behind, es, next, spelled, found, here, there, rfl⟩
    · rw [nextKey_append next text]
      rfl
    · obtain ⟨low, others⟩ := Nat.max_le.mp shallow
      rw [nextKey_append next text]
      change (readString (start ++ text) >>= _) = _
      rw [readString_append spelled text]
      change (readColon (colon ++ text) >>= _) = _
      rw [readColon_append found text]
      change (wider (value ++ text) >>= _) = _
      rw [each here low (readEntries_joins there text)]
      change (readEntries wider (fuel + more) false (behind ++ text) >>= _) = _
      rw [ih (Nat.le_add_right _ _) there others]
      rfl

end Members

theorem constant_extend {α : Type} {word source rest : List Char} {value d : α}
    (read : (do
      let behind ← readWord word source
      return (value, behind)) = .ok (d, rest)) (text : List Char) :
    (do
      let behind ← readWord word (source ++ text)
      return (value, behind)) = .ok (d, rest ++ text) := by
  obtain ⟨left, spelled, last⟩ := eq_ok_of_bind read
  cases last
  rw [readWord_append spelled text]
  rfl

theorem exists_room {inner room : Nat} (shallow : 1 + inner ≤ room) : ∃ lower, room = lower + 1 ∧ inner ≤ lower :=
  ⟨room - 1, by omega, by omega⟩

-- More fuel does no harm, and so many levels are enough as the value has.
theorem readValue_extend {fuel more levels room : Nat} (enough : fuel ≤ more) {source rest text : List Char}
    {d : Document} (read : readValue fuel levels source = .ok (d, rest)) (shallow : d.nesting ≤ room)
    (joins : Joins rest text) : readValue more room (source ++ text) = .ok (d, rest ++ text) := by
  induction levels using Nat.strongRecOn generalizing room source rest d text with
  | ind levels ih =>
    cases found : skipBlanks source with
    | nil =>
      rw [readValue.eq_def, found] at read
      cases read
    | cons c behind =>
      rw [readValue.eq_def, found] at read
      rw [readValue.eq_def, skipBlanks_extend found]
      dsimp only at read ⊢
      by_cases null : c = 'n'
      · rw [if_pos null] at read ⊢
        exact constant_extend read text
      rw [if_neg null] at read ⊢
      by_cases yes : c = 't'
      · rw [if_pos yes] at read ⊢
        exact constant_extend read text
      rw [if_neg yes] at read ⊢
      by_cases no : c = 'f'
      · rw [if_pos no] at read ⊢
        exact constant_extend read text
      rw [if_neg no] at read ⊢
      by_cases quote : c = '"'
      · rw [if_pos quote] at read ⊢
        obtain ⟨⟨value, left⟩, spelled, last⟩ := eq_ok_of_bind read
        cases last
        rw [readString_append spelled text]
        rfl
      rw [if_neg quote] at read ⊢
      by_cases minus : c = '-'
      · rw [if_pos minus] at read ⊢
        exact readNumber_extends true text read joins
      rw [if_neg minus] at read ⊢
      by_cases digit : c.isDigit = true
      · rw [if_pos digit] at read ⊢
        exact readNumber_extends false text read joins
      rw [if_neg digit] at read ⊢
      by_cases list : c = '['
      · rw [if_pos list] at read ⊢
        cases levels with
        | zero => cases read
        | succ levels =>
          obtain ⟨⟨items, left⟩, inside, last⟩ := eq_ok_of_bind read
          cases last
          obtain ⟨room, rfl, low⟩ := exists_room shallow
          change (readItems (readValue more room) more true (behind ++ text) >>= _) = _
          rw [readItems_extend (ih levels (Nat.lt_succ_self levels)) enough inside low]
          rfl
      rw [if_neg list] at read ⊢
      by_cases brace : c = '\x7b'
      · rw [if_pos brace] at read ⊢
        cases levels with
        | zero => cases read
        | succ levels =>
          obtain ⟨⟨entries, left⟩, inside, last⟩ := eq_ok_of_bind read
          cases last
          obtain ⟨room, rfl, low⟩ := exists_room shallow
          change (readEntries (readValue more room) more true (behind ++ text) >>= _) = _
          rw [readEntries_extend (ih levels (Nat.lt_succ_self levels)) enough inside low]
          rfl
      · rw [if_neg brace] at read
        cases read

end Treeline.Document
