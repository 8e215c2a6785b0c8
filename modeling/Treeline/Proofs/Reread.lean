import Treeline.Document.Body
import Treeline.Document.Reader.Value
import Treeline.Proofs.Induction
import Treeline.Proofs.Numeral
import Treeline.Proofs.Quoted

namespace Treeline.Document

-- What reading the text of a document gives. Only numbers can change, and only they can be refused.

theorem skipBlanks_cons {c : Char} (visible : isBlank c = false) (rest : List Char) :
    skipBlanks (c :: rest) = c :: rest := by
  rw [skipBlanks, List.dropWhile_cons_of_neg (by simp [visible])]

theorem isBlank_digit {c : Char} (digit : c.isDigit = true) : isBlank c = false := by
  have other := digit_ne digit
  simp [isBlank, other ' ' rfl, other '\n' rfl, other '\t' rfl, other '\r' rfl]

theorem readValue_digit {c : Char} (digit : c.isDigit = true) (fuel levels : Nat) (rest : List Char) :
    readValue fuel levels (c :: rest) = readNumber false (c :: rest) := by
  have other := digit_ne digit
  unfold readValue
  rw [skipBlanks_cons (isBlank_digit digit)]
  simp only [other 'n' rfl, other 't' rfl, other 'f' rfl, other '"' rfl, other '-' rfl, digit, if_true, if_false]

theorem readValue_toDigits (fuel levels n : Nat) :
    readValue fuel levels (Nat.toDigits 10 n) = readNumber false (Nat.toDigits 10 n) := by
  cases spelled : Nat.toDigits 10 n with
  | nil => exact absurd spelled Nat.toDigits_ne_nil
  | cons c digits => exact readValue_digit (digits_toDigits n c (spelled ▸ List.mem_cons_self)) fuel levels digits

theorem readValue_minus (fuel levels : Nat) (rest : List Char) :
    readValue fuel levels ('-' :: rest) = readNumber true rest := by
  unfold readValue
  rw [skipBlanks_cons rfl]
  rfl

-- No value begins in this way.
def beginsNothing (c : Char) : Bool :=
  !isBlank c && !c.isDigit && !(['n', 't', 'f', '"', '-', '[', '\x7b'].contains c)

theorem readValue_beginsNothing {c : Char} (nothing : beginsNothing c = true) (fuel levels : Nat) (rest : List Char) :
    (readValue fuel levels (c :: rest)).toOption = none := by
  simp only [beginsNothing, Bool.and_eq_true, Bool.not_eq_true', List.contains_eq_mem, decide_eq_false_iff_not,
    List.mem_cons, List.not_mem_nil, or_false, not_or] at nothing
  obtain ⟨⟨visible, letter⟩, n, t, f, quote, minus, bracket, brace⟩ := nothing
  unfold readValue
  rw [skipBlanks_cons visible]
  simp only [letter, n, t, f, quote, minus, bracket, brace, Bool.false_eq_true, if_false]
  rfl

-- The value in front of a text does not depend on what follows it.
def ReadsAlike (piece : List Char) : Prop :=
  ∃ result : Option Document, ∀ fuel levels rest, EndsNumeral rest →
    (readValue fuel levels (piece ++ rest)).toOption = result.map fun value => (value, rest)

theorem ReadsAlike.refused {c : Char} (nothing : beginsNothing c = true) (piece : List Char) :
    ReadsAlike (c :: piece) :=
  ⟨none, fun fuel levels rest _ => readValue_beginsNothing nothing fuel levels (piece ++ rest)⟩

theorem ReadsAlike.refused_minus {c : Char} (letter : c.isDigit = false) {piece : List Char} :
    ReadsAlike ('-' :: c :: piece) := by
  refine ⟨none, ?_⟩
  intro fuel levels rest _
  have nonzero : c ≠ '0' := by
    rintro rfl
    cases letter
  rw [List.cons_append, readValue_minus, List.cons_append]
  simp [readNumber, nonzero, letter]

theorem Numeral.readsAlike {piece : List Char} (numeral : Numeral piece) (filled : piece ≠ []) : ReadsAlike piece := by
  obtain ⟨result, same⟩ := readNumber_readsWhole numeral false
  obtain @⟨digits, tail, all, ends⟩ := numeral
  cases digits with
  | cons c digits =>
    refine ⟨result, ?_⟩
    intro fuel levels rest after
    rw [← same rest after]
    exact congrArg Except.toOption (readValue_digit (all c List.mem_cons_self) fuel levels _)
  | nil =>
    cases ends with
    | fraction => exact .refused (by decide) _
    | scale scale =>
      cases scale with
      | exponent => exact .refused (by decide) _
      | none => exact absurd rfl filled

theorem Numeral.readsAlike_minus {piece : List Char} (numeral : Numeral piece) : ReadsAlike ('-' :: piece) := by
  obtain ⟨result, same⟩ := readNumber_readsWhole numeral true
  refine ⟨result, ?_⟩
  intro fuel levels rest ends
  rw [List.cons_append, readValue_minus]
  exact same rest ends

theorem readsAlike_integer (value : Int) : ReadsAlike (integer value).chars := by
  rw [chars_integer]
  cases value with
  | ofNat n => exact (Numeral.ofDigits (digits_toDigits n)).readsAlike Nat.toDigits_ne_nil
  | negSucc n => exact (Numeral.ofDigits (digits_toDigits (n + 1))).readsAlike_minus

theorem readsAlike_double (x : Binary64) : ReadsAlike (double x).chars := by
  rw [chars_double]
  unfold NumeralStyle.write
  rcases unsigned_cases x with nan | infinite | numeral
  · rw [nan]
    split
    · exact .refused_minus rfl
    · exact .refused (by decide) _
  · rw [infinite]
    split
    · exact .refused_minus rfl
    · exact .refused (by decide) _
  · split
    · exact numeral.readsAlike_minus
    · exact numeral.readsAlike (unsigned_ne_nil _ x (by decide))

-- What a number's own text is read as.
def rereadNumber (number : Document) : Option Document := (readValue 0 0 number.chars).toOption.map Prod.fst

theorem ReadsAlike.readValue {number : Document} (alike : ReadsAlike number.chars) (fuel levels : Nat)
    {rest : List Char} (ends : EndsNumeral rest) :
    (readValue fuel levels (number.chars ++ rest)).toOption = number.rereadNumber.map fun read => (read, rest) := by
  obtain ⟨result, same⟩ := alike
  have alone := same 0 0 [] endsNumeral_nil
  rw [List.append_nil] at alone
  rw [same fuel levels rest ends, rereadNumber, alone]
  cases result <;> rfl

-- A document from what its members are read as.
def rereadFrom (document : Document) : Option (Body (Option Document)) → Option Document
  | some (.entries entries) =>
    (entries.mapM fun entry : String × Part (Option Document) =>
      entry.2.reading.map fun read => (entry.1, read)).map .object
  | some (.items items) => (items.mapM Part.reading).map .array
  | none =>
    match document with
    | .integer value => rereadNumber (.integer value)
    | .double value => rereadNumber (.double value)
    | other => some other

-- What a document's text is read as, nesting aside.
def reread : Document → Option Document := fold rereadFrom

theorem reread_array (items : List Document) : (array items).reread = (items.mapM reread).map .array := by
  rw [reread, fold_eq, body?, rereadFrom, List.mapM_map]
  rfl

-- An entry whose value is read in some way.
def readEntry (read : Document → Option Document) (entry : String × Document) : Option (String × Document) :=
  (read entry.2).map fun found => (entry.1, found)

theorem reread_object (entries : List (String × Document)) :
    (object entries).reread = (entries.mapM (readEntry reread)).map .object := by
  rw [reread, fold_eq, body?, rereadFrom, List.mapM_map]
  rfl

@[simp] theorem reread_boolean (value : Bool) : (boolean value).reread = some (.boolean value) := rfl

@[simp] theorem reread_string (value : String) : (string value).reread = some (.string value) := rfl

theorem reread_integer (value : Int) : (integer value).reread = rereadNumber (.integer value) := rfl

-- No document begins with a blank or a closing bracket.

def Opens (piece : List Char) : Prop := ∃ c more, piece = c :: more ∧ isBlank c = false ∧ c ≠ ']'

theorem Opens.cons {c : Char} (visible : isBlank c = false) (other : c ≠ ']') (more : List Char) : Opens (c :: more) :=
  ⟨c, more, rfl, visible, other⟩

theorem Numeral.opens {piece : List Char} (numeral : Numeral piece) (filled : piece ≠ []) : Opens piece := by
  obtain @⟨digits, tail, all, ends⟩ := numeral
  cases digits with
  | cons c digits =>
    have digit := all c List.mem_cons_self
    exact .cons (isBlank_digit digit) (digit_ne digit ']' rfl) _
  | nil =>
    cases ends with
    | fraction => exact .cons rfl (by decide) _
    | scale scale =>
      cases scale with
      | exponent => exact .cons rfl (by decide) _
      | none => exact absurd rfl filled

theorem opens_write (x : Binary64) : Opens (NumeralStyle.document.write x) := by
  unfold NumeralStyle.write
  split
  · exact .cons rfl (by decide) _
  · rcases unsigned_cases x with nan | infinite | numeral
    · rw [nan]
      exact .cons rfl (by decide) _
    · rw [infinite]
      exact .cons rfl (by decide) _
    · exact numeral.opens (unsigned_ne_nil .document x (by decide))

theorem opens_chars (d : Document) : Opens d.chars := by
  cases d with
  | null => exact .cons rfl (by decide) _
  | boolean value => cases value <;> exact .cons rfl (by decide) _
  | integer value =>
    cases value with
    | ofNat n => exact (Numeral.ofDigits (digits_toDigits n)).opens Nat.toDigits_ne_nil
    | negSucc n => exact .cons rfl (by decide) _
  | double value => exact opens_write value
  | string value => exact .cons rfl (by decide) _
  | array items => cases items <;> exact .cons rfl (by decide) _
  | object entries => cases entries <;> exact .cons rfl (by decide) _

theorem Opens.skipBlanks_append {piece : List Char} (opens : Opens piece) (rest : List Char) :
    skipBlanks (piece ++ rest) = piece ++ rest := by
  obtain ⟨c, more, rfl, visible, -⟩ := opens
  exact skipBlanks_cons visible (more ++ rest)

theorem nextItem_first {piece text rest : List Char} (opens : Opens piece) (found : skipBlanks text = piece ++ rest) :
    nextItem true text = .ok (.start (piece ++ rest)) := by
  obtain ⟨c, more, rfl, visible, other⟩ := opens
  rw [nextItem, found]
  split
  · next none => cases none
  · next closed => exact absurd (List.cons.inj closed).1 other
  · next same =>
    cases same
    rfl

theorem nextItem_comma {piece text rest : List Char} (opens : Opens piece) (found : skipBlanks text = piece ++ rest) :
    nextItem false (',' :: text) = .ok (.start (piece ++ rest)) := by
  obtain ⟨c, more, rfl, visible, other⟩ := opens
  rw [nextItem, skipBlanks_cons rfl]
  split
  · next none => cases none
  · next closed => cases closed
  · next same =>
    cases same
    rw [found]
    simp only [Bool.false_eq_true, if_false, if_true]
    split
    · next none => cases none
    · next closed => exact absurd (List.cons.inj closed).1 other
    · rfl

theorem nextKey_comma {text start : List Char} (found : skipBlanks text = '"' :: start) :
    nextKey false (',' :: text) = .ok (.start start) := by
  rw [nextKey, skipBlanks_cons rfl]
  split
  · next none => cases none
  · next closed => cases closed
  · next same =>
    cases same
    rw [found]
    rfl

theorem endsNumeral_cons {c : Char} {rest : List Char}
    (ends : c.isDigit = false ∧ c ≠ '.' ∧ c ≠ 'e' ∧ c ≠ 'E') : EndsNumeral (c :: rest) := by
  intro first same
  cases Option.some.inj same
  exact ends

theorem endsNumeral_itemsChars (items : List Document) (rest : List Char) :
    EndsNumeral (itemsChars items ++ rest) := by
  cases items <;> exact endsNumeral_cons (by decide)

theorem endsNumeral_entriesChars (entries : List (String × Document)) (rest : List Char) :
    EndsNumeral (entriesChars entries ++ rest) := by
  cases entries <;> exact endsNumeral_cons (by decide)

-- A reader of values, and what it makes of the text of a document.
def ReadsTo (value : Reader Document) (read : Document → Option Document) (d : Document) : Prop :=
  ∀ rest, EndsNumeral rest → (value (d.chars ++ rest)).toOption = (read d).map fun found => (found, rest)

section Members

variable {value : Reader Document} {read : Document → Option Document}

theorem readItems_start {first : Bool} {text start behind rest : List Char} {fuel : Nat} {one : Option Document}
    {others : Option (List Document)} (next : nextItem first text = .ok (.start start))
    (here : (value start).toOption = one.map fun found => (found, behind))
    (more : (readItems value fuel false behind).toOption = others.map fun found => (found, rest)) :
    (readItems value (fuel + 1) first text).toOption =
      (do return (← one) :: (← others)).map fun found => (found, rest) := by
  rw [readItems, next]
  refine (toOption_bind (value start) _).trans ?_
  rw [here]
  cases one with
  | none => rfl
  | some item =>
    refine (toOption_bind (readItems value fuel false behind) _).trans ?_
    rw [more]
    cases others <;> rfl

-- Every item takes one unit of fuel, and so does the closing bracket.
theorem readItems_itemsChars {items : List Document} (each : ∀ item ∈ items, ReadsTo value read item) {fuel : Nat}
    (enough : items.length < fuel) (rest : List Char) :
    (readItems value fuel false (itemsChars items ++ rest)).toOption =
      (items.mapM read).map fun found => (found, rest) := by
  induction items generalizing fuel with
  | nil =>
    cases fuel with
    | zero => cases enough
    | succ fuel => rfl
  | cons item items ih =>
    obtain ⟨first, others⟩ := List.forall_mem_cons.mp each
    cases fuel with
    | zero => cases enough
    | succ fuel =>
      have more := ih others (Nat.lt_of_succ_lt_succ enough)
      have here := first _ (endsNumeral_itemsChars items rest)
      have opens := opens_chars item
      rw [itemsChars_cons, List.cons_append, List.append_assoc, List.mapM_cons]
      exact readItems_start (nextItem_comma opens (opens.skipBlanks_append _)) here more

-- The text of a key from behind its opening quote, with the colon.
def keyChars (key : String) (rest : List Char) : List Char := key.toList.flatMap escaped ++ '"' :: ':' :: rest

theorem stringChars_colon (key : String) (rest : List Char) :
    stringChars key ++ ':' :: rest = '"' :: keyChars key rest := by
  simp [stringChars, keyChars]

theorem keyChars_append (key : String) (text rest : List Char) :
    keyChars key text ++ rest = keyChars key (text ++ rest) := by
  simp [keyChars]

theorem entriesChars_append (key : String) (item : Document) (entries : List (String × Document)) (rest : List Char) :
    entriesChars ((key, item) :: entries) ++ rest =
      ',' :: '"' :: keyChars key (item.chars ++ (entriesChars entries ++ rest)) := by
  rw [entriesChars_cons, stringChars_colon, List.cons_append, List.cons_append, keyChars_append, List.append_assoc]

theorem readEntries_start {first : Bool} {text start colon found behind rest : List Char} {fuel : Nat}
    {key : Option String} {one : Option Document} {others : Option (List (String × Document))}
    (next : nextKey first text = .ok (.start start))
    (named : (readString start).toOption = key.map fun name => (name, colon)) (divided : readColon colon = .ok found)
    (here : (value found).toOption = one.map fun item => (item, behind))
    (more : (readEntries value fuel false behind).toOption = others.map fun items => (items, rest)) :
    (readEntries value (fuel + 1) first text).toOption =
      (do return (← key, ← one) :: (← others)).map fun items => (items, rest) := by
  rw [readEntries, next]
  refine (toOption_bind (readString start) _).trans ?_
  rw [named]
  cases key with
  | none => rfl
  | some name =>
    refine (toOption_bind (readColon colon) _).trans ?_
    rw [divided]
    refine (toOption_bind (value found) _).trans ?_
    rw [here]
    cases one with
    | none => rfl
    | some item =>
      refine (toOption_bind (readEntries value fuel false behind) _).trans ?_
      rw [more]
      cases others <;> rfl

theorem readEntries_keyChars {first : Bool} {text start behind rest : List Char} {key : String} {fuel : Nat}
    {one : Option Document} {others : Option (List (String × Document))}
    (next : nextKey first text = .ok (.start (keyChars key start)))
    (here : (value start).toOption = one.map fun found => (found, behind))
    (more : (readEntries value fuel false behind).toOption = others.map fun found => (found, rest)) :
    (readEntries value (fuel + 1) first text).toOption =
      (do return (← one.map fun item => (key, item)) :: (← others)).map fun found => (found, rest) := by
  have named : (readString (keyChars key start)).toOption = (some key).map fun name => (name, ':' :: start) :=
    congrArg Except.toOption (readString_printed key (':' :: start))
  refine (readEntries_start next named rfl here more).trans ?_
  cases one <;> rfl

theorem readEntries_entriesChars {entries : List (String × Document)}
    (each : ∀ entry ∈ entries, ReadsTo value read entry.2) {fuel : Nat} (enough : entries.length < fuel)
    (rest : List Char) :
    (readEntries value fuel false (entriesChars entries ++ rest)).toOption =
      (entries.mapM (readEntry read)).map fun found => (found, rest) := by
  induction entries generalizing fuel with
  | nil =>
    cases fuel with
    | zero => cases enough
    | succ fuel => rfl
  | cons entry entries ih =>
    obtain ⟨first, others⟩ := List.forall_mem_cons.mp each
    cases fuel with
    | zero => cases enough
    | succ fuel =>
      obtain ⟨key, item⟩ := entry
      have more := ih others (Nat.lt_of_succ_lt_succ enough)
      have here := first _ (endsNumeral_entriesChars entries rest)
      rw [entriesChars_append, List.mapM_cons]
      exact readEntries_keyChars rfl here more

-- All items of a list, from behind its opening bracket.
theorem readItems_array {items : List Document} (each : ∀ item ∈ items, ReadsTo value read item) {fuel : Nat}
    (enough : items.length < fuel) :
    ∃ text, (array items).chars = '[' :: text ∧ ∀ rest,
      (readItems value fuel true (text ++ rest)).toOption = (items.mapM read).map fun found => (found, rest) := by
  cases fuel with
  | zero => cases enough
  | succ fuel =>
    cases items with
    | nil => exact ⟨[']'], rfl, fun _ => rfl⟩
    | cons item items =>
      obtain ⟨first, others⟩ := List.forall_mem_cons.mp each
      refine ⟨item.chars ++ itemsChars items, rfl, ?_⟩
      intro rest
      have more := readItems_itemsChars others (Nat.lt_of_succ_lt_succ enough) rest
      have here := first _ (endsNumeral_itemsChars items rest)
      have opens := opens_chars item
      rw [List.append_assoc, List.mapM_cons]
      exact readItems_start (nextItem_first opens (opens.skipBlanks_append _)) here more

theorem readEntries_object {entries : List (String × Document)} (each : ∀ entry ∈ entries, ReadsTo value read entry.2)
    {fuel : Nat} (enough : entries.length < fuel) :
    ∃ text, (object entries).chars = '\x7b' :: text ∧ ∀ rest,
      (readEntries value fuel true (text ++ rest)).toOption =
        (entries.mapM (readEntry read)).map fun found => (found, rest) := by
  cases fuel with
  | zero => cases enough
  | succ fuel =>
    cases entries with
    | nil => exact ⟨['\x7d'], rfl, fun _ => rfl⟩
    | cons entry entries =>
      obtain ⟨key, item⟩ := entry
      obtain ⟨first, others⟩ := List.forall_mem_cons.mp each
      have spelled : (object ((key, item) :: entries)).chars =
          '\x7b' :: '"' :: keyChars key (item.chars ++ entriesChars entries) := by
        rw [chars_object_cons, stringChars_colon]
      refine ⟨_, spelled, ?_⟩
      intro rest
      have more := readEntries_entriesChars others (Nat.lt_of_succ_lt_succ enough) rest
      have here := first _ (endsNumeral_entriesChars entries rest)
      rw [List.cons_append, keyChars_append, List.append_assoc, List.mapM_cons]
      exact readEntries_keyChars rfl here more

end Members

theorem itemsNesting_le_iff {items : List Document} {levels : Nat} :
    itemsNesting items ≤ levels ↔ ∀ item ∈ items, item.nesting ≤ levels := by
  induction items with
  | nil => simp [itemsNesting]
  | cons item items ih => rw [itemsNesting, Nat.max_le, ih, List.forall_mem_cons]

theorem entriesNesting_le_iff {entries : List (String × Document)} {levels : Nat} :
    entriesNesting entries ≤ levels ↔ ∀ entry ∈ entries, entry.2.nesting ≤ levels := by
  induction entries with
  | nil => simp [entriesNesting]
  | cons entry entries ih =>
    obtain ⟨key, value⟩ := entry
    rw [entriesNesting, Nat.max_le, ih, List.forall_mem_cons]

theorem length_itemsChars (items : List Document) :
    items.length < (itemsChars items).length ∧ ∀ item ∈ items, item.chars.length ≤ (itemsChars items).length := by
  induction items with
  | nil => exact ⟨Nat.zero_lt_one, List.forall_mem_nil _⟩
  | cons item items ih =>
    obtain ⟨many, each⟩ := ih
    simp only [itemsChars_cons, List.length_cons, List.length_append, List.forall_mem_cons]
    refine ⟨by omega, by omega, ?_⟩
    intro other member
    have := each other member
    omega

theorem length_entriesChars (entries : List (String × Document)) :
    entries.length < (entriesChars entries).length ∧
      ∀ entry ∈ entries, entry.2.chars.length ≤ (entriesChars entries).length := by
  induction entries with
  | nil => exact ⟨Nat.zero_lt_one, List.forall_mem_nil _⟩
  | cons entry entries ih =>
    obtain ⟨key, value⟩ := entry
    obtain ⟨many, each⟩ := ih
    simp only [entriesChars_cons, List.length_cons, List.length_append, List.forall_mem_cons]
    refine ⟨by omega, by omega, ?_⟩
    intro other member
    have := each other member
    omega

theorem length_array (items : List Document) :
    items.length < (array items).chars.length ∧ ∀ item ∈ items, item.chars.length ≤ (array items).chars.length := by
  cases items with
  | nil => exact ⟨Nat.zero_lt_two, List.forall_mem_nil _⟩
  | cons item items =>
    obtain ⟨many, each⟩ := length_itemsChars (item :: items)
    rw [itemsChars_cons] at many each
    exact ⟨many, each⟩

theorem length_object (entries : List (String × Document)) :
    entries.length < (object entries).chars.length ∧
      ∀ entry ∈ entries, entry.2.chars.length ≤ (object entries).chars.length := by
  cases entries with
  | nil => exact ⟨Nat.zero_lt_two, List.forall_mem_nil _⟩
  | cons entry entries =>
    obtain ⟨many, each⟩ := length_entriesChars (entry :: entries)
    rw [entriesChars_cons] at many each
    exact ⟨many, each⟩

-- What is left of the nesting limit decides whether a document is read at all.
def rereadWithin (levels : Nat) (d : Document) : Option Document := if d.nesting ≤ levels then d.reread else none

theorem mapM_guarded {α β : Type} (f : α → Option β) (allowed : α → Prop) [DecidablePred allowed] (items : List α) :
    items.mapM (fun item => if allowed item then f item else none) =
      if ∀ item ∈ items, allowed item then items.mapM f else none := by
  induction items with
  | nil => simp
  | cons item items ih =>
    rw [List.mapM_cons, ih, List.mapM_cons]
    by_cases first : allowed item
    · by_cases others : ∀ item ∈ items, allowed item
      · rw [if_pos first, if_pos others, if_pos (List.forall_mem_cons.mpr ⟨first, others⟩)]
      · rw [if_pos first, if_neg others, if_neg fun all => others (List.forall_mem_cons.mp all).2]
        cases f item <;> rfl
    · rw [if_neg first, if_neg fun all => first (List.forall_mem_cons.mp all).1]
      rfl

theorem rereadWithin_array (levels : Nat) (items : List Document) :
    (items.mapM (rereadWithin levels)).map array = rereadWithin (levels + 1) (array items) := by
  have bound : (array items).nesting ≤ levels + 1 ↔ ∀ item ∈ items, item.nesting ≤ levels := by
    rw [← itemsNesting_le_iff, nesting, Nat.add_comm, Nat.add_le_add_iff_right]
  have guarded : items.mapM (rereadWithin levels) =
      if ∀ item ∈ items, item.nesting ≤ levels then items.mapM reread else none :=
    mapM_guarded reread (fun item => item.nesting ≤ levels) items
  rw [guarded, rereadWithin, reread_array]
  simp only [bound]
  split <;> rfl

theorem rereadWithin_object (levels : Nat) (entries : List (String × Document)) :
    (entries.mapM (readEntry (rereadWithin levels))).map object = rereadWithin (levels + 1) (object entries) := by
  have bound : (object entries).nesting ≤ levels + 1 ↔ ∀ entry ∈ entries, entry.2.nesting ≤ levels := by
    rw [← entriesNesting_le_iff, nesting, Nat.add_comm, Nat.add_le_add_iff_right]
  have each : readEntry (rereadWithin levels) =
      fun entry => if entry.2.nesting ≤ levels then readEntry reread entry else none := by
    funext entry
    unfold readEntry rereadWithin
    split <;> rfl
  have guarded := mapM_guarded (readEntry reread) (fun entry => entry.2.nesting ≤ levels) entries
  simp only [each, rereadWithin, bound, reread_object, guarded]
  split <;> rfl

theorem readsTo_number {number : Document} (flat : number.nesting = 0) (same : number.reread = number.rereadNumber)
    (alike : ReadsAlike number.chars) (fuel levels : Nat) :
    ReadsTo (readValue fuel levels) (rereadWithin levels) number := by
  intro rest ends
  rw [alike.readValue fuel levels ends, rereadWithin, flat, if_pos (Nat.zero_le levels), same]

theorem readsTo_self {scalar : Document} (flat : scalar.nesting = 0) (same : scalar.reread = some scalar)
    {fuel levels : Nat} (read : ∀ rest, readValue fuel levels (scalar.chars ++ rest) = .ok (scalar, rest)) :
    ReadsTo (readValue fuel levels) (rereadWithin levels) scalar := by
  intro rest _
  rw [read rest, rereadWithin, flat, if_pos (Nat.zero_le levels), same]
  rfl

-- Reading the text of a document gives what its members are read as, as long as the nesting is allowed.
theorem readValue_chars (d : Document) {fuel : Nat} (enough : d.chars.length ≤ fuel) (levels : Nat) :
    ReadsTo (readValue fuel levels) (rereadWithin levels) d := by
  induction d generalizing levels with
  | null =>
    refine readsTo_self rfl rfl fun rest => ?_
    unfold readValue
    rfl
  | boolean value =>
    refine readsTo_self rfl rfl fun rest => ?_
    unfold readValue
    cases value <;> rfl
  | integer value => exact readsTo_number rfl rfl (readsAlike_integer value) fuel levels
  | double value => exact readsTo_number rfl rfl (readsAlike_double value) fuel levels
  | string value =>
    refine readsTo_self rfl rfl fun rest => ?_
    have text : (string value).chars ++ rest = '"' :: (value.toList.flatMap escaped ++ '"' :: rest) := by
      simp [chars_string, stringChars]
    rw [text]
    unfold readValue
    rw [skipBlanks_cons rfl]
    simp only [readString_printed]
    rfl
  | array items ih =>
    obtain ⟨many, shorter⟩ := length_array items
    have read := fun levels => readItems_array
      (fun item member => ih item member (Nat.le_trans (shorter item member) enough) levels)
      (Nat.lt_of_lt_of_le many enough)
    intro rest _
    cases levels with
    | zero =>
      obtain ⟨text, spelled, -⟩ := read 0
      rw [spelled]
      unfold readValue
      rw [rereadWithin, nesting, if_neg (by omega)]
      rfl
    | succ levels =>
      obtain ⟨text, spelled, read⟩ := read levels
      rw [spelled, ← rereadWithin_array]
      unfold readValue
      refine (toOption_bind (readItems (readValue fuel levels) fuel true (text ++ rest)) _).trans ?_
      rw [read rest]
      cases items.mapM (rereadWithin levels) <;> rfl
  | object entries ih =>
    obtain ⟨many, shorter⟩ := length_object entries
    have read := fun levels => readEntries_object
      (fun entry member => ih entry member (Nat.le_trans (shorter entry member) enough) levels)
      (Nat.lt_of_lt_of_le many enough)
    intro rest _
    cases levels with
    | zero =>
      obtain ⟨text, spelled, -⟩ := read 0
      rw [spelled]
      unfold readValue
      rw [rereadWithin, nesting, if_neg (by omega)]
      rfl
    | succ levels =>
      obtain ⟨text, spelled, read⟩ := read levels
      rw [spelled, ← rereadWithin_object]
      unfold readValue
      refine (toOption_bind (readEntries (readValue fuel levels) fuel true (text ++ rest)) _).trans ?_
      rw [read rest]
      cases entries.mapM (readEntry (rereadWithin levels)) <;> rfl

-- Numbers of 64 bits, with or without a sign, are read back.
theorem reread_integer_exact {value : Int} (low : -0x8000000000000000 ≤ value) (high : value ≤ 0xFFFFFFFFFFFFFFFF) :
    (integer value).reread = some (.integer value) := by
  rw [reread_integer, rereadNumber, chars_integer]
  cases value with
  | ofNat n =>
    have fits : n ≤ greatestWord := by
      simp only [greatestWord, Int.ofNat_eq_natCast] at *
      omega
    have read := readNumber_toDigits fits false endsNumeral_nil
    rw [List.append_nil] at read
    rw [integerChars, readValue_toDigits, read]
    rfl
  | negSucc n =>
    have fits : n + 1 ≤ 0x8000000000000000 := by
      simp only [Int.negSucc_eq] at low
      omega
    have read := readNumber_toDigits (n := n + 1) (Nat.le_trans fits (by decide)) true endsNumeral_nil
    have whole : wholeNumber true (n + 1) = .integer (Int.negSucc n) := by
      rw [wholeNumber, if_neg (by decide), if_pos ⟨by omega, fits⟩]
      rfl
    rw [List.append_nil, whole] at read
    rw [integerChars, readValue_minus, read]
    rfl

end Treeline.Document
