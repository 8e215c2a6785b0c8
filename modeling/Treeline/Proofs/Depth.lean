import Treeline.Proofs.Scanning

namespace Treeline

open Document

-- The brackets of a text stand as deep as those of the document that it spells, and whatever is accepted as a tree
-- spells a document.

theorem bracketDepth_of_read {source : String} {fuel levels : Nat} {rest : List Char} {d : Document}
    (read : readValue fuel levels source.toList = .ok (d, rest)) (blank : skipBlanks rest = []) :
    bracketDepth source = d.nesting := by
  have within := Brackets.readValue_covers _ _ read (Nat.le_refl 0)
  have behind : Skips rest [] := blank ▸ skips_blanks rest
  obtain ⟨eaten, whole, scanned⟩ := within.trans (Brackets.reaches_of_skips behind)
  rw [List.append_nil] at whole
  rw [Nat.zero_add, Nat.zero_max] at scanned
  rw [bracketDepth, Brackets.start, whole, scanned]

theorem bracketDepth_of_ofText? {source : String} {d : Document} (spelled : ofText? source = some d) :
    bracketDepth source = d.nesting := by
  obtain ⟨rest, read, blank⟩ := of_ofText? spelled
  exact bracketDepth_of_read read blank

-- Nothing that is read nests deeper than it was allowed to.

namespace Document

theorem itemsNesting_of_read {item : Reader Document} {levels : Nat}
    (each : ∀ {source rest : List Char} {d : Document}, item source = .ok (d, rest) → d.nesting ≤ levels)
    {fuel : Nat} {first : Bool} {source rest : List Char} {items : List Document}
    (read : readItems item fuel first source = .ok (items, rest)) : itemsNesting items ≤ levels := by
  induction fuel generalizing first source items with
  | zero => cases read
  | succ fuel ih =>
    rcases readItems_cases read with ⟨-, rfl⟩ | ⟨start, d, behind, ds, -, here, there, rfl⟩
    · exact Nat.zero_le levels
    · exact Nat.max_le.mpr ⟨each here, ih there⟩

theorem entriesNesting_of_read {item : Reader Document} {levels : Nat}
    (each : ∀ {source rest : List Char} {d : Document}, item source = .ok (d, rest) → d.nesting ≤ levels)
    {fuel : Nat} {first : Bool} {source rest : List Char} {entries : List (String × Document)}
    (read : readEntries item fuel first source = .ok (entries, rest)) : entriesNesting entries ≤ levels := by
  induction fuel generalizing first source entries with
  | zero => cases read
  | succ fuel ih =>
    rcases readEntries_cases read with ⟨-, rfl⟩ | ⟨start, key, colon, value, d, behind, es, -, -, -, here, there, rfl⟩
    · exact Nat.zero_le levels
    · exact Nat.max_le.mpr ⟨each here, ih there⟩

theorem nesting_of_read_flat {fuel : Nat} {source rest : List Char} {d : Document}
    (read : readValue fuel 0 source = .ok (d, rest)) : d.nesting = 0 := by
  obtain ⟨c, behind, found, form⟩ := readValue_opening read
  cases d with
  | array items =>
    rw [(openingOf_eq_some_iff.mp form.symm).1] at found
    rw [readValue.eq_def, found] at read
    cases read
  | object entries =>
    rw [(openingOf_eq_some_iff.mp form.symm).1] at found
    rw [readValue.eq_def, found] at read
    cases read
  | _ => rfl

theorem nesting_of_read {fuel levels : Nat} {source rest : List Char} {d : Document}
    (read : readValue fuel levels source = .ok (d, rest)) : d.nesting ≤ levels := by
  induction levels generalizing source rest d with
  | zero => exact Nat.le_of_eq (nesting_of_read_flat read)
  | succ levels ih =>
    obtain ⟨c, behind, found, form⟩ := readValue_opening read
    cases d with
    | array items =>
      rw [(openingOf_eq_some_iff.mp form.symm).1] at found
      rw [readValue_bracket found] at read
      obtain ⟨⟨inner, left⟩, inside, last⟩ := eq_ok_of_bind read
      cases last
      rw [nesting, Nat.add_comm]
      exact Nat.succ_le_succ (itemsNesting_of_read ih inside)
    | object entries =>
      rw [(openingOf_eq_some_iff.mp form.symm).1] at found
      rw [readValue_brace found] at read
      obtain ⟨⟨inner, left⟩, inside, last⟩ := eq_ok_of_bind read
      cases last
      rw [nesting, Nat.add_comm]
      exact Nat.succ_le_succ (entriesNesting_of_read ih inside)
    | _ => exact Nat.zero_le _

theorem nesting_of_ofText? {source : String} {d : Document} (spelled : ofText? source = some d) :
    d.nesting ≤ nestingLimit := by
  obtain ⟨rest, read, -⟩ := of_ofText? spelled
  exact nesting_of_read read

end Document

-- What is read as a tagged text is read as a value as well.

section Root

variable {κ : Type} [Vocabulary κ] {source rest : List Char}

theorem readValue_of_readRootTag {kind : κ} (read : readRootTag source = .ok (kind, rest)) (fuel levels : Nat) :
    ∃ d, readValue fuel levels source = .ok (d, rest) := by
  have found : (readRootTag source).toOption = some (kind, rest) := congrArg Except.toOption read
  by_cases quoted : ∃ behind, skipBlanks source = '"' :: behind
  · obtain ⟨behind, start⟩ := quoted
    rw [readRootTag_of_quote start] at found
    obtain ⟨⟨name, left⟩, spelled, known⟩ := Option.bind_eq_some_iff.mp found
    obtain ⟨_, -, same⟩ := Option.map_eq_some_iff.mp known
    cases same
    rw [readValue_quote start, eq_ok_of_toOption spelled]
    exact ⟨.string name, rfl⟩
  · rw [readRootTag_of_other fun behind start => quoted ⟨behind, start⟩] at found
    cases found

-- One member and the others, as `readItems_cases` and `readEntries_cases` take them apart.

theorem readItems_cons {item : Reader Document} {fuel : Nat} {first : Bool} {start behind : List Char} {d : Document}
    {ds : List Document} (next : nextItem first source = .ok (.start start)) (here : item start = .ok (d, behind))
    (there : readItems item fuel false behind = .ok (ds, rest)) :
    readItems item (fuel + 1) first source = .ok (d :: ds, rest) := by
  rw [readItems, next]
  change (item start >>= _) = _
  rw [here]
  change (readItems item fuel false behind >>= _) = _
  rw [there]
  rfl

theorem readEntries_cons {item : Reader Document} {fuel : Nat} {first : Bool} {start colon value behind : List Char}
    {key : String} {d : Document} {es : List (String × Document)} (next : nextKey first source = .ok (.start start))
    (spelled : readString start = .ok (key, colon)) (found : readColon colon = .ok value)
    (here : item value = .ok (d, behind)) (there : readEntries item fuel false behind = .ok (es, rest)) :
    readEntries item (fuel + 1) first source = .ok ((key, d) :: es, rest) := by
  rw [readEntries, next]
  change (readString start >>= _) = _
  rw [spelled]
  change (readColon colon >>= _) = _
  rw [found]
  change (item value >>= _) = _
  rw [here]
  change (readEntries item fuel false behind >>= _) = _
  rw [there]
  rfl

-- A reader that reads every tag.
def TakesTags (κ : Type) [Vocabulary κ] (item : Reader Document) : Prop :=
  ∀ {source rest : List Char} {kind : κ}, readRootTag source = .ok (kind, rest) → ∃ d, item source = .ok (d, rest)

theorem readEntries_of_readRootEntries {item : Reader Document} (tags : TakesTags κ item) {fuel : Nat} {first : Bool}
    {tag : Option κ} {tagged : κ × List (String × Document)}
    (read : readRootEntries item fuel first tag source = .ok (tagged, rest)) :
    ∃ entries, readEntries item fuel first source = .ok (entries, rest) := by
  induction fuel generalizing first tag source tagged with
  | zero => cases read
  | succ fuel ih =>
    rw [readRootEntries] at read
    obtain ⟨member, next, more⟩ := eq_ok_of_bind read
    cases member with
    | finished behind =>
      cases tag with
      | none => cases more
      | some kind =>
        cases more
        rw [readEntries, next]
        exact ⟨[], rfl⟩
    | start start =>
      obtain ⟨⟨key, colon⟩, spelled, afterKey⟩ := eq_ok_of_bind more
      dsimp only at afterKey
      split at afterKey
      · split at afterKey
        · rw [duplicateTag.eq_def] at afterKey
          split at afterKey <;> cases afterKey
        · obtain ⟨value, found, afterColon⟩ := eq_ok_of_bind afterKey
          obtain ⟨⟨kind, behind⟩, here, others⟩ := eq_ok_of_bind afterColon
          obtain ⟨d, taken⟩ := tags here
          obtain ⟨entries, there⟩ := ih others
          exact ⟨_, readEntries_cons next spelled found taken there⟩
      · obtain ⟨value, found, afterColon⟩ := eq_ok_of_bind afterKey
        obtain ⟨⟨d, behind⟩, here, afterValue⟩ := eq_ok_of_bind afterColon
        obtain ⟨⟨⟨kind, others⟩, left⟩, later, last⟩ := eq_ok_of_bind afterValue
        cases last
        obtain ⟨entries, there⟩ := ih later
        exact ⟨_, readEntries_cons next spelled found here there⟩

-- Every item takes a comma, so there is no need for more fuel than there are characters.

theorem nextItem_comma_length {start : List Char} (next : nextItem false source = .ok (.start start)) :
    start.length < source.length := by
  have blanks := (skips_blanks source).length_le
  rw [nextItem.eq_def] at next
  split at next
  · cases next
  · cases next
  · next c behind _ found =>
    rw [found, List.length_cons] at blanks
    rw [if_neg Bool.false_ne_true] at next
    split at next
    · have further := (skips_blanks behind).length_le
      split at next
      · cases next
      · cases next
      · cases next
        omega
    · cases next

theorem readItems_of_length {item : Reader Document} (covers : Brackets.Covers item) {fuel more : Nat}
    {items : List Document} (read : readItems item fuel false source = .ok (items, rest))
    (enough : source.length ≤ more) : readItems item more false source = .ok (items, rest) := by
  induction fuel generalizing more source items with
  | zero => cases read
  | succ fuel ih =>
    rcases readItems_cases read with ⟨next, rfl⟩ | ⟨start, d, behind, ds, next, here, there, rfl⟩
    · have closed := (nextItem_skips next).length_le
      rw [Member.item, List.length_cons] at closed
      cases more with
      | zero => omega
      | succ more =>
        rw [readItems, next]
        rfl
    · have shorter := nextItem_comma_length next
      have shortest := (covers here (Nat.le_refl 0)).length_le
      cases more with
      | zero => omega
      | succ more => exact readItems_cons next here (ih there (by omega))

theorem readItems_of_readRootItems {item : Reader Document} (tags : TakesTags κ item) (covers : Brackets.Covers item)
    {fuel : Nat} (enough : source.length ≤ fuel) {tagged : κ × List Document}
    (read : readRootItems item (fuel + 1) source = .ok (tagged, rest)) :
    ∃ items, readItems item (fuel + 1) true source = .ok (items, rest) := by
  obtain ⟨member, next, more⟩ := eq_ok_of_bind read
  cases member with
  | finished behind => cases more
  | start start =>
    obtain ⟨⟨kind, behind⟩, here, others⟩ := eq_ok_of_bind more
    obtain ⟨⟨items, left⟩, later, last⟩ := eq_ok_of_bind others
    cases last
    obtain ⟨d, taken⟩ := tags here
    have shorter := (covers taken (Nat.le_refl 0)).length_le
    have shortest := (nextItem_skips next).length_le
    have left := Nat.le_trans shorter (Nat.le_trans shortest enough)
    exact ⟨_, readItems_cons next taken (readItems_of_length covers later left)⟩

theorem readValue_of_readRoot {title : String} {tagged : κ × Members}
    (read : readRoot title source = .ok (tagged, rest)) :
    ∃ d, readValue (source.length + 1) nestingLimit source = .ok (d, rest) := by
  have deeper : nestingLimit = nestingLimit - 1 + 1 := rfl
  have blanks := (skips_blanks source).length_le
  have tags : TakesTags κ (readValue (source.length + 1) (nestingLimit - 1)) :=
    fun tag => readValue_of_readRootTag tag _ _
  rw [readRoot.eq_def] at read
  dsimp only at read
  split at read
  · next behind found =>
    obtain ⟨⟨⟨kind, others⟩, left⟩, inside, last⟩ := eq_ok_of_bind read
    cases last
    obtain ⟨entries, whole⟩ := readEntries_of_readRootEntries tags inside
    rw [deeper, readValue_brace found, whole]
    exact ⟨.object entries, rfl⟩
  · next behind found =>
    obtain ⟨⟨⟨kind, others⟩, left⟩, inside, last⟩ := eq_ok_of_bind read
    cases last
    rw [found, List.length_cons] at blanks
    obtain ⟨items, whole⟩ :=
      readItems_of_readRootItems tags (Brackets.readValue_covers _ _) (Nat.le_of_succ_le blanks) inside
    rw [deeper, readValue_bracket found, whole]
    exact ⟨.array items, rfl⟩
  · obtain ⟨⟨value, left⟩, -, last⟩ := eq_ok_of_bind read
    cases last

end Root

theorem ofText?_of_parse {κ α : Type} [Vocabulary κ] {title : String} {ofMembers : κ → Members → Except Fault α}
    {source : String} {a : α} (accepted : parseTagged title ofMembers source = .ok a) :
    ∃ d, ofText? source = some d := by
  obtain ⟨⟨⟨kind, members⟩, rest⟩, root, more⟩ := eq_ok_of_bind accepted
  obtain ⟨node, -, others⟩ := eq_ok_of_bind more
  obtain ⟨_, finished, -⟩ := eq_ok_of_bind others
  obtain ⟨d, whole⟩ := readValue_of_readRoot (eq_ok_of_mapError root)
  have blank : skipBlanks rest = [] := by
    have done := eq_ok_of_mapError finished
    rw [readEnd] at done
    split at done
    · next none => exact none
    · cases done
  exact ⟨d, ofText?_of_read whole blank⟩

end Treeline
