import Treeline.Proofs.Decoding
import Treeline.Proofs.Depth
import Treeline.Proofs.Embedding
import Treeline.Proofs.Labels

namespace Treeline

open Document

-- Whole numbers from their digits to the tree: within 64 bits with a sign they are read exactly, written as they were
-- read, and beyond that they are no integers at all.

namespace Document

-- Digits without a leading zero are those of their number.

theorem toDigits_digitValue {c : Char} (digit : c.isDigit = true) : Nat.toDigits 10 (digitValue c) = [c] := by
  obtain ⟨low, -⟩ := bounds_of_isDigit digit
  have same : (Nat.digitChar (digitValue c)).toNat = c.toNat := by
    rw [Nat.toNat_digitChar_of_lt_ten (digitValue_lt digit), digitValue_eq]
    omega
  rw [Nat.toDigits_of_lt_base (digitValue_lt digit), Char.toNat_inj.mp same]

theorem digitValue_pos {c : Char} (digit : c.isDigit = true) (nonzero : c ≠ '0') : 0 < digitValue c := by
  apply Nat.pos_of_ne_zero
  intro zero
  have spelled := toDigits_digitValue digit
  rw [zero, Nat.toDigits_zero] at spelled
  exact nonzero (List.singleton_inj.mp spelled).symm

theorem toDigits_ofDigitChars {digits : List Char} (all : Digits digits) {value : Nat} (positive : 0 < value) :
    Nat.toDigits 10 (Nat.ofDigitChars 10 digits value) = Nat.toDigits 10 value ++ digits := by
  induction digits generalizing value with
  | nil => rw [Nat.ofDigitChars_nil, List.append_nil]
  | cons c digits ih =>
    obtain ⟨first, others⟩ := List.forall_mem_cons.mp all
    calc Nat.toDigits 10 (Nat.ofDigitChars 10 (c :: digits) value)
        = Nat.toDigits 10 (10 * value + digitValue c) ++ digits := by
          rw [ofDigitChars_digit, ih others (by omega)]
      _ = Nat.toDigits 10 value ++ Nat.toDigits 10 (digitValue c) ++ digits := by
          rw [Nat.toDigits_append_toDigits (by decide) positive (digitValue_lt first)]
      _ = Nat.toDigits 10 value ++ c :: digits := by
          rw [toDigits_digitValue first, List.append_assoc, List.singleton_append]

theorem Unsigned.eq_toDigits {digits : List Char} (unsigned : Unsigned digits) :
    digits = Nat.toDigits 10 (Nat.ofDigitChars 10 digits 0) := by
  cases unsigned with
  | zero => rfl
  | @positive c digits first nonzero others =>
    rw [ofDigitChars_digit, Nat.mul_zero, Nat.zero_add, toDigits_ofDigitChars others (digitValue_pos first nonzero),
      toDigits_digitValue first, List.singleton_append]

theorem unsigned_toDigits (n : Nat) : Unsigned (Nat.toDigits 10 n) := by
  by_cases zero : n = 0
  · subst zero
    exact .zero
  · obtain ⟨c, digits, spelled, first, nonzero, others, -⟩ := exists_toDigits (Nat.pos_of_ne_zero zero)
    rw [spelled]
    exact .positive first nonzero others

end Document

-- Numbers that need more than 64 bits are read as doubles or refused, and so are negative ones below the signed range.

namespace Document

theorem finishDouble_isDouble {negative : Bool} {significand : Nat} {exponent : Int} {source rest : List Char}
    {d : Document} (read : finishDouble negative significand exponent source = .ok (d, rest)) : ∃ x, d = .double x := by
  unfold finishDouble at read
  split at read
  · cases read
    exact ⟨_, rfl⟩
  · cases read

theorem readNumber_large {n : Nat} (large : greatestWord < n) {negative : Bool} {d : Document} {rest : List Char}
    (read : readNumber negative (Nat.toDigits 10 n) = .ok (d, rest)) : ∃ x, d = .double x := by
  obtain ⟨c, digits, spelled, first, nonzero, others, value⟩ := exists_toDigits (Nat.zero_lt_of_lt large)
  have small : digitValue c ≤ greatestWord := Nat.le_trans (Nat.le_of_lt (digitValue_lt first)) (by decide)
  obtain ⟨total, taken, left, some, all, same⟩ := takeDigits_large others small (value.symm ▸ large)
  have counted := @countDigits_append left [] all endsNumeral_nil.endsDigits
  rw [List.append_nil] at counted
  rw [spelled] at read
  simp only [readNumber, nonzero, first, same, counted, if_true, if_false] at read
  rw [readWhole_of_ends endsNumeral_nil, if_neg fun none => some (List.length_eq_zero_iff.mp none)] at read
  exact finishDouble_isDouble read

theorem reread_integer_large {value : Int} (outside : value < -0x8000000000000000 ∨ 0xFFFFFFFFFFFFFFFF < value)
    {d : Document} (read : (integer value).reread = some d) : ∃ x, d = .double x := by
  rw [reread_integer, rereadNumber, chars_integer] at read
  obtain ⟨⟨d, rest⟩, same, rfl⟩ := Option.map_eq_some_iff.mp read
  have found := eq_ok_of_toOption same
  cases value with
  | ofNat n =>
    have large : greatestWord < n := by
      simp only [greatestWord, Int.ofNat_eq_natCast] at *
      omega
    rw [integerChars, readValue_toDigits] at found
    exact readNumber_large large found
  | negSucc n =>
    have low : 0x8000000000000000 < n + 1 := by
      simp only [Int.negSucc_eq] at outside
      omega
    rw [integerChars, readValue_minus] at found
    by_cases fits : n + 1 ≤ greatestWord
    · have whole := readNumber_toDigits fits true endsNumeral_nil
      have double : wholeNumber true (n + 1) = .double (Binary64.ofNat (n + 1)).negate := by
        rw [wholeNumber, if_neg (by decide), if_neg (by omega)]
      rw [List.append_nil, found, double] at whole
      cases whole
      exact ⟨_, rfl⟩
    · exact readNumber_large (Nat.lt_of_not_le fits) found

-- Of all texts that a number can be printed as, those of the 64-bit integers are read as integers.
theorem reread_integer_iff {value number : Int} :
    (integer value).reread = some (.integer number) ↔
      number = value ∧ -0x8000000000000000 ≤ value ∧ value ≤ 0xFFFFFFFFFFFFFFFF := by
  by_cases inside : -0x8000000000000000 ≤ value ∧ value ≤ 0xFFFFFFFFFFFFFFFF
  · rw [reread_integer_exact inside.1 inside.2]
    simp only [Option.some.injEq, Document.integer.injEq, inside, and_true]
    exact eq_comm
  · constructor
    · intro read
      obtain ⟨x, same⟩ := reread_integer_large (by omega) read
      cases same
    · rintro ⟨-, within⟩
      exact absurd within inside

end Document

-- A whole number as it may be spelled: perhaps a sign, and digits of which the first is zero only if it stands alone.
structure WholeNumeral where
  negative : Bool
  digits : List Char
  unsigned : Unsigned digits

namespace WholeNumeral

variable (w : WholeNumeral)

def chars : List Char := if w.negative then '-' :: w.digits else w.digits

def text : String := String.ofList w.chars

def magnitude : Nat := Nat.ofDigitChars 10 w.digits 0

def value : Int := if w.negative then -w.magnitude else w.magnitude

-- Every number has its spelling, with either sign.
def ofNat (negative : Bool) (n : Nat) : WholeNumeral := ⟨negative, Nat.toDigits 10 n, unsigned_toDigits n⟩

theorem value_ofNat (negative : Bool) (n : Nat) : (ofNat negative n).value = if negative then -(n : Int) else n := by
  have size : (ofNat negative n).magnitude = n := Nat.ofDigitChars_ten_toDigits
  rw [value, size]
  rfl

-- Any other number than minus zero is spelled as it is printed.
theorem chars_eq (other : w.text ≠ "-0") : w.chars = integerChars w.value := by
  have digits : w.digits = Nat.toDigits 10 w.magnitude := w.unsigned.eq_toDigits
  cases sign : w.negative with
  | false =>
    have positive : w.value = Int.ofNat w.magnitude := by simp [value, sign]
    rw [positive, integerChars, ← digits, chars, sign]
    rfl
  | true =>
    have spelled : w.chars = '-' :: w.digits := by simp [chars, sign]
    cases size : w.magnitude with
    | zero =>
      rw [size, Nat.toDigits_zero] at digits
      refine absurd ?_ other
      rw [text, spelled, digits]
    | succ n =>
      have below : w.value = Int.negSucc n := by simp [value, sign, size, Int.negSucc_eq]
      rw [below, integerChars, spelled, digits, size]

end WholeNumeral

theorem ofText?_minus_zero : ofText? "-0" = some (.double (Binary64.ofNat 0).negate) := by
  have read : readNumber true ['0'] = .ok (wholeNumber true 0, []) :=
    readNumber_toDigits (Nat.zero_le _) true endsNumeral_nil
  refine @ofText?_of_read _ _ [] ?_ rfl
  exact (readValue_minus _ _ ['0']).trans read

namespace Expression

-- The text of an integer with the given spelling.
def integerText (numeral : String) : String := "\x7b\"kind\":\"Integer\",\"value\":" ++ numeral ++ "\x7d"

theorem toList_integerText (numeral : String) :
    (integerText numeral).toList = fieldChars ExpressionKind.integer "value" numeral.toList := by
  have opening : "\x7b\"kind\":\"Integer\",\"value\":".toList = fieldOpening ExpressionKind.integer "value" := by
    decide +kernel
  refine (toList_enclosed _ numeral _).trans ?_
  rw [opening, fieldChars_eq]
  rfl

def integerDocument (d : Document) : Document := .object [tagEntry ExpressionKind.integer, ("value", d)]

theorem toOption_ofDocument_integer (d : Document) :
    (ofDocument (integerDocument d)).toOption = d.readInteger.toOption.map .integer := by
  rw [integerDocument, Expression.decodes.tagged expressionKind_faithful _ (by simp [tagKey]), ofBody,
    Fields.toOption_read, fields]
  simp only [Fields.toOption_mapped, Fields.toOption_one, Field.name_required, parts_cons, parts_nil, named_cons,
    named_nil, if_true, Field.ofNamed_required]

theorem parse_iff_of_integerDocument {source : String} {d : Document}
    (spelled : ofText? source = some (integerDocument d)) (e : Expression) :
    parse source = .ok e ↔ ∃ n : Int64, d = .integer n.toInt ∧ e = .integer n := by
  have named : (integerDocument d).hasIndexTag ExpressionKind = false := rfl
  rw [eq_ok_iff_toOption, toOption_parse_text spelled, named, if_neg Bool.false_ne_true, toOption_ofDocument_integer,
    Option.map_eq_some_iff]
  exact exists_congr fun n => and_congr (toOption_readInteger_iff d n) eq_comm

theorem text_integerDocument (value : Int) :
    (integerDocument (.integer value)).text = integerText (String.ofList (integerChars value)) := by
  apply String.toList_inj.mp
  rw [toList_integerText, Document.text, String.toList_ofList, String.toList_ofList, integerDocument, chars_object_cons,
    entriesChars_cons, stringChars_colon, stringChars_colon]
  rfl

theorem ofText?_integerDocument (value : Int) :
    ofText? (integerDocument (.integer value)).text = (Document.integer value).reread.map integerDocument := by
  have nested : (integerDocument (.integer value)).nesting = 1 := rfl
  rw [ofText?_text, rereadWithin, nested, if_pos (by decide), integerDocument, reread_object, List.mapM_cons,
    List.mapM_cons, List.mapM_nil, readEntry, readEntry, tagEntry, reread_string]
  cases (Document.integer value).reread <;> rfl

-- All but minus zero: the text is that of the number, whatever its size.
theorem parse_integerText_iff {w : WholeNumeral} (other : w.text ≠ "-0") (e : Expression) :
    parse (integerText w.text) = .ok e ↔ ∃ n : Int64, n.toInt = w.value ∧ e = .integer n := by
  have source : integerText w.text = (integerDocument (.integer w.value)).text := by
    rw [text_integerDocument, ← w.chars_eq other, WholeNumeral.text]
  have spelled := ofText?_integerDocument w.value
  rw [source]
  constructor
  · intro accepted
    obtain ⟨d, read⟩ := ofText?_of_parse accepted
    rw [spelled] at read
    obtain ⟨number, reread, rfl⟩ := Option.map_eq_some_iff.mp read
    rw [reread] at spelled
    obtain ⟨n, rfl, same⟩ := (parse_iff_of_integerDocument spelled e).mp accepted
    exact ⟨n, (reread_integer_iff.mp reread).1, same⟩
  · rintro ⟨n, value, same⟩
    have low := n.le_toInt
    have high := n.toInt_lt
    rw [reread_integer_exact (by omega) (by omega)] at spelled
    exact (parse_iff_of_integerDocument spelled e).mpr ⟨n, congrArg Document.integer value.symm, same⟩

theorem parse_minus_zero (e : Expression) : parse (integerText "-0") ≠ .ok e := by
  intro accepted
  have spelled := ofText?_field ExpressionKind.integer "value" ofText?_minus_zero (by decide) (toList_integerText "-0")
  obtain ⟨n, same, -⟩ := (parse_iff_of_integerDocument spelled e).mp accepted
  cases same

-- Integers are read just if they have 64 bits with a sign and are no minus zero. They keep their value, and both the
-- label and the text show the digits as they were.
theorem parse_integer_exact (w : WholeNumeral) :
    ((∃ e, parse (integerText w.text) = .ok e) ↔
      w.text ≠ "-0" ∧ -0x8000000000000000 ≤ w.value ∧ w.value ≤ 0x7FFFFFFFFFFFFFFF) ∧
    ∀ e, parse (integerText w.text) = .ok e →
      ∃ n : Int64, e = .integer n ∧ n.toInt = w.value ∧
        e.label = "Integer: " ++ w.text ∧ e.text = integerText w.text := by
  by_cases zero : w.text = "-0"
  · rw [zero]
    refine ⟨iff_of_false ?_ fun inside => inside.1 rfl, fun e accepted => absurd accepted (parse_minus_zero e)⟩
    rintro ⟨e, accepted⟩
    exact parse_minus_zero e accepted
  · refine ⟨?_, ?_⟩
    · constructor
      · rintro ⟨e, accepted⟩
        obtain ⟨n, same, -⟩ := (parse_integerText_iff zero e).mp accepted
        have low := n.le_toInt
        have high := n.toInt_lt
        exact ⟨zero, by omega, by omega⟩
      · rintro ⟨-, low, high⟩
        have exact : (Int64.ofInt w.value).toInt = w.value :=
          Int64.toInt_ofInt_of_le (by simpa using low) (by omega)
        exact ⟨_, (parse_integerText_iff zero _).mpr ⟨Int64.ofInt w.value, exact, rfl⟩⟩
    · intro e accepted
      obtain ⟨n, same, rfl⟩ := (parse_integerText_iff zero e).mp accepted
      have printed : toString n.toInt = w.text := by
        apply String.toList_inj.mp
        rw [toList_toString, same, ← w.chars_eq zero, WholeNumeral.text, String.toList_ofList]
      have written : (integer n).text = (integerDocument (.integer n.toInt)).text := rfl
      refine ⟨n, rfl, same, congrArg ("Integer: " ++ ·) printed, ?_⟩
      rw [written, same, text_integerDocument, ← w.chars_eq zero, WholeNumeral.text]

-- The least integer is still read, and the next below it is not.
theorem parse_integer_exact_least :
    let least : WholeNumeral := .ofNat true 0x8000000000000000
    let below : WholeNumeral := .ofNat true 0x8000000000000001
    least.text = "-9223372036854775808" ∧ least.value = Int64.minValue.toInt ∧
    (∃ e, parse (integerText least.text) = .ok e) ∧
    (∀ e, parse (integerText least.text) = .ok e → e = .integer Int64.minValue ∧ e.text = integerText least.text) ∧
    ¬∃ e, parse (integerText below.text) = .ok e := by
  intro least below
  have text : least.text = "-9223372036854775808" := by decide +kernel
  have value : least.value = Int64.minValue.toInt := by
    rw [WholeNumeral.value_ofNat]
    rfl
  have low : below.value = -0x8000000000000001 := WholeNumeral.value_ofNat true 0x8000000000000001
  refine ⟨text, value, ?_, ?_, ?_⟩
  · refine (parse_integer_exact least).1.mpr ⟨by decide +kernel, ?_⟩
    rw [value]
    decide
  · intro e accepted
    obtain ⟨n, rfl, same, -, written⟩ := (parse_integer_exact least).2 e accepted
    exact ⟨congrArg integer (Int64.toInt_inj.mp (same.trans value)), written⟩
  · intro accepted
    obtain ⟨-, least, -⟩ := (parse_integer_exact below).1.mp accepted
    omega

end Expression

end Treeline
