import Treeline.Document.Printer
import Treeline.Document.Reader.Quoted

namespace Treeline.Document

-- A printed string is read back as it was, whatever follows its closing quote.

theorem hexValue?_hexDigit : ∀ k < 16, hexValue? (hexDigit k) = some k := by
  decide

theorem readUnit_control {c : Char} (control : c.toNat < 0x20) (rest : List Char) :
    readUnit ('0' :: '0' :: hexDigit (c.toNat / 16) :: hexDigit (c.toNat % 16) :: rest) = .ok c.toNat := by
  have high := hexValue?_hexDigit (c.toNat / 16) (by omega)
  have low := hexValue?_hexDigit (c.toNat % 16) (by omega)
  have zero : hexValue? '0' = some 0 := by decide
  have whole : ((0 * 16 + 0) * 16 + c.toNat / 16) * 16 + c.toNat % 16 = c.toNat := by omega
  simp only [readUnit, hexUnit?, high, low, zero, Option.bind_eq_bind, Option.bind_some, Option.pure_def, whole]

theorem readEscape_control {c : Char} (control : c.toNat < 0x20) (rest : List Char) :
    readEscape ('u' :: '0' :: '0' :: hexDigit (c.toNat / 16) :: hexDigit (c.toNat % 16) :: rest) = .ok (c, 5) := by
  have long : shortEscape? 'u' = none := by decide
  have trailing : isTrailing c.toNat = false := by
    rw [isTrailing, Bool.and_eq_false_imp]
    intro large
    have := of_decide_eq_true large
    omega
  have leading : isLeading c.toNat = false := by
    rw [isLeading, Bool.and_eq_false_imp]
    intro large
    have := of_decide_eq_true large
    omega
  simp only [readEscape, long, readUnit_control control rest, if_true, bind, Except.bind, trailing, leading]
  exact congrArg (fun read => Except.ok (read, 5)) c.ofNat_toNat

-- One printed character gives back that character.
theorem readChars_escaped (c : Char) (rest : List Char) :
    readChars (escaped c ++ rest) 0 = (readChars rest 0).map fun (more, behind) => (c :: more, behind) := by
  have again : ∀ plain, (do
      let (more, behind) ← readChars rest 0
      return (plain :: more, behind)) = (readChars rest 0).map fun (more, behind) => (plain :: more, behind) := by
    intro plain
    cases readChars rest 0 <;> rfl
  unfold escaped
  split
  · next same => rw [same]; exact again '"'
  split
  · next same => rw [same]; exact again '\\'
  split
  · next same => rw [same]; exact again '\x08'
  split
  · next same => rw [same]; exact again '\x0c'
  split
  · next same => rw [same]; exact again '\n'
  split
  · next same => rw [same]; exact again '\r'
  split
  · next same => rw [same]; exact again '\t'
  split
  · next control =>
    have read := readEscape_control control rest
    simp only [List.cons_append, List.nil_append, readChars, read]
    exact again c
  · next quote backslash _ _ _ _ _ control =>
    rw [List.singleton_append, readChars]
    simp only [quote, backslash, control, if_false]
    exact again c

theorem readChars_flatMap_escaped (text rest : List Char) :
    readChars (text.flatMap escaped ++ '"' :: rest) 0 = .ok (text, rest) := by
  induction text with
  | nil => rfl
  | cons c text ih =>
    rw [List.flatMap_cons, List.append_assoc, readChars_escaped, ih]
    rfl

theorem readString_printed (text : String) (rest : List Char) :
    readString (text.toList.flatMap escaped ++ '"' :: rest) = .ok (text, rest) := by
  simp only [readString, readChars_flatMap_escaped]
  exact congrArg (fun read => Except.ok (read, rest)) text.ofList_toList

end Treeline.Document
