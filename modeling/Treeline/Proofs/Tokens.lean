import Treeline.Proofs.Whole

namespace Treeline.Json

open Document

-- Numbers and strings as the grammar of JSON has them, what they stand for, and that they are read as that. What
-- stands for nothing is refused: a number beyond the doubles, and half of a surrogate pair.

abbrev DigitRun := { digits : List Char // digits ≠ [] ∧ Digits digits }

structure Exponent where
  mark : { mark : Char // mark = 'e' ∨ mark = 'E' }
  -- Whether there is a sign, and whether it is a minus.
  sign : Option Bool
  digits : DigitRun

structure Number where
  negative : Bool
  whole : { digits : List Char // Unsigned digits }
  fraction : Option DigitRun
  exponent : Option Exponent

namespace Exponent

def signChars : Option Bool → List Char
  | none => []
  | some minus => [if minus then '-' else '+']

def chars (exponent : Exponent) : List Char :=
  exponent.mark.1 :: (signChars exponent.sign ++ exponent.digits.1)

def value (exponent : Exponent) : Nat := Nat.ofDigitChars 10 exponent.digits.1 0

def goesDown (exponent : Exponent) : Bool := exponent.sign == some true

end Exponent

def double? (negative : Bool) (significand : Nat) (exponent : Int) : Option Document :=
  (Binary64.ofDecimal? significand exponent).map fun x => .double (signed negative x)

-- A significand with its point `point` places to the left of its end, and an exponent behind it. An exponent that is
-- too large to be counted makes zero of whatever it does not take out of range.
def scaled? (negative : Bool) (significand : Nat) (point : Int) : Option Exponent → Option Document
  | none => double? negative significand point
  | some exponent =>
    if exponent.value ≤ greatestExponent then
      double? negative significand (if exponent.goesDown then point - exponent.value else point + exponent.value)
    else if significand ≠ 0 ∧ !exponent.goesDown then none
    else some (.double (signed negative (Binary64.ofNat 0)))

namespace Number

def magnitude (number : Number) : Nat := Nat.ofDigitChars 10 number.whole.1 0

-- The leading digits of the whole part that a word can hold, and the others.
def wholeDigits (number : Number) : Nat × Nat × List Char := takeDigits 0 number.whole.1

-- Digits alone are a whole number if a word can hold it, and anything else is a double.
def document? (number : Number) : Option Document :=
  let (significand, _, left) := number.wholeDigits
  match number.fraction, number.exponent with
  | none, none =>
    if number.magnitude ≤ greatestWord then some (wholeNumber number.negative number.magnitude)
    else double? number.negative significand left.length
  | none, exponent => scaled? number.negative significand left.length exponent
  | some fraction, exponent =>
    let (significand, taken, _) := takeDigits significand fraction.1
    scaled? number.negative significand (left.length - taken) exponent

def exponentChars (number : Number) : List Char := number.exponent.elim [] Exponent.chars

def tailChars (number : Number) : List Char :=
  number.fraction.elim [] (fun fraction => '.' :: fraction.1) ++ number.exponentChars

def unsignedChars (number : Number) : List Char := number.whole.1 ++ number.tailChars

def chars (number : Number) : List Char :=
  if number.negative then '-' :: number.unsignedChars else number.unsignedChars

end Number

theorem toOption_finishDouble (negative : Bool) (significand : Nat) (exponent : Int) (rest : List Char) :
    (finishDouble negative significand exponent rest).toOption =
      (double? negative significand exponent).map fun d => (d, rest) := by
  rw [finishDouble, double?]
  cases Binary64.ofDecimal? significand exponent <;> rfl

theorem takeDigits_run {digits : List Char} (all : Digits digits) (significand : Nat) :
    Digits (takeDigits significand digits).2.2 ∧ ∀ rest, EndsDigits rest →
      takeDigits significand (digits ++ rest) =
        ((takeDigits significand digits).1, (takeDigits significand digits).2.1,
          (takeDigits significand digits).2.2 ++ rest) := by
  obtain ⟨total, taken, left, allLeft, same⟩ := takeDigits_append all significand
  have alone := same [] fun _ none => nomatch none
  rw [List.append_nil, List.append_nil] at alone
  rw [alone]
  exact ⟨allLeft, same⟩

-- The digits of an exponent are counted to their end unless they exceed what can be counted.
theorem takeExponent_run {digits : List Char} (all : Digits digits) (value : Nat) :
    (Nat.ofDigitChars 10 digits value ≤ greatestExponent → ∀ rest, EndsDigits rest →
      takeExponent value (digits ++ rest) = .inr (Nat.ofDigitChars 10 digits value, rest)) ∧
    (value ≤ greatestExponent → ¬ Nat.ofDigitChars 10 digits value ≤ greatestExponent → 
      ∃ left, Digits left ∧ ∀ rest, takeExponent value (digits ++ rest) = .inl (left ++ rest)) := by
  induction digits generalizing value with
  | nil =>
    refine ⟨fun _ rest ends => ?_, fun small large => absurd small (by simpa using large)⟩
    cases rest with
    | nil => rfl
    | cons c rest => simp [takeExponent, ends c rfl]
  | cons c digits ih =>
    obtain ⟨first, others⟩ := List.forall_mem_cons.mp all
    rw [ofDigitChars_digit, Nat.mul_comm 10]
    obtain ⟨fits, exceeds⟩ := ih others (value * 10 + digitValue c)
    constructor
    · intro small rest ends
      have below := Nat.le_trans (le_ofDigitChars digits _) small
      simp [takeExponent, first, Nat.not_lt.mpr below, fits small rest ends]
    · intro _ large
      by_cases below : value * 10 + digitValue c ≤ greatestExponent
      · obtain ⟨left, allLeft, same⟩ := exceeds below large
        exact ⟨left, allLeft, fun rest => by simp [takeExponent, first, Nat.not_lt.mpr below, same rest]⟩
      · exact ⟨digits, others, fun rest => by simp [takeExponent, first, Nat.not_le.mp below]⟩

theorem Exponent.takeSign_chars (exponent : Exponent) (rest : List Char) :
    takeSign (signChars exponent.sign ++ (exponent.digits.1 ++ rest)) = (exponent.goesDown, exponent.digits.1 ++ rest) := by
  obtain ⟨mark, sign, digits, filled, all⟩ := exponent
  cases sign with
  | some minus => cases minus <;> rfl
  | none =>
    cases digits with
    | nil => exact absurd rfl filled
    | cons c digits =>
      have other := digit_ne (all c List.mem_cons_self)
      simp [signChars, takeSign, goesDown, other '+' rfl, other '-' rfl]

theorem toOption_readScale (negative : Bool) (significand : Nat) (point : Int) (exponent : Option Exponent)
    {rest : List Char} (ends : EndsNumeral rest) :
    (readScale negative significand point (exponent.elim [] Exponent.chars ++ rest)).toOption =
      (scaled? negative significand point exponent).map fun d => (d, rest) := by
  cases exponent with
  | none =>
    rw [Option.elim_none, List.nil_append, readScale_of_ends ends, toOption_finishDouble]
    rfl
  | some exponent =>
    have marked : readScale negative significand point (exponent.chars ++ rest) =
        readExponent negative significand point (Exponent.signChars exponent.sign ++ (exponent.digits.1 ++ rest)) := by
      rw [Exponent.chars, List.cons_append, List.append_assoc]
      rcases exponent.mark.2 with small | capital
      · rw [small]
        rfl
      · rw [capital]
        rfl
    rw [Option.elim_some, marked, readExponent_eq, exponent.takeSign_chars, scaled?]
    cases spelled : exponent.digits.1 with
    | nil => exact absurd spelled exponent.digits.2.1
    | cons c digits =>
      have all := exponent.digits.2.2
      rw [spelled] at all
      obtain ⟨first, others⟩ := List.forall_mem_cons.mp all
      have value : exponent.value = Nat.ofDigitChars 10 digits (digitValue c) := by
        rw [Exponent.value, spelled, ofDigitChars_digit, Nat.mul_zero, Nat.zero_add]
      obtain ⟨fits, exceeds⟩ := takeExponent_run others (digitValue c)
      rw [List.cons_append, readExponentDigits, if_pos first, value]
      by_cases small : Nat.ofDigitChars 10 digits (digitValue c) ≤ greatestExponent
      · rw [fits small rest ends.endsDigits, if_pos small]
        exact toOption_finishDouble _ _ _ _
      · obtain ⟨left, allLeft, same⟩ := exceeds (Nat.le_trans (Nat.le_of_lt (digitValue_lt first)) (by decide)) small
        rw [same rest, if_neg small]
        simp only
        split
        · rfl
        · rw [dropWhile_digits allLeft ends.endsDigits]
          rfl

theorem Number.endsDigits_exponentChars (number : Number) {rest : List Char} (ends : EndsNumeral rest) :
    EndsDigits (number.exponentChars ++ rest) := by
  unfold exponentChars
  cases number.exponent with
  | none => exact ends.endsDigits
  | some exponent =>
    intro c first
    cases Option.some.inj first
    rcases exponent.mark.2 with small | capital
    · rw [small]
      rfl
    · rw [capital]
      rfl

theorem Number.endsDigits_tailChars (number : Number) {rest : List Char} (ends : EndsNumeral rest) :
    EndsDigits (number.tailChars ++ rest) := by
  have other := number.endsDigits_exponentChars ends
  unfold tailChars
  cases number.fraction with
  | none => exact other
  | some fraction =>
    intro c first
    cases Option.some.inj first
    rfl

theorem length_takeDigits (significand : Nat) (source : List Char) :
    (takeDigits significand source).2.1 + (takeDigits significand source).2.2.length = source.length := by
  induction source generalizing significand with
  | nil => rfl
  | cons c source ih =>
    rw [takeDigits]
    split
    · rw [List.length_cons, ← ih (significand * 10 + digitValue c)]
      exact Nat.add_right_comm _ _ _
    · exact Nat.zero_add _

theorem Number.toOption_readFraction (number : Number) (fraction : DigitRun) (significand : Nat) (point : Int)
    {rest : List Char} (ends : EndsNumeral rest) :
    (readFraction number.negative significand point (fraction.1 ++ (number.exponentChars ++ rest))).toOption =
      (scaled? number.negative (takeDigits significand fraction.1).1 (point - (takeDigits significand fraction.1).2.1)
        number.exponent).map fun d => (d, rest) := by
  obtain ⟨allLeft, same⟩ := takeDigits_run fraction.2.2 significand
  have stop := number.endsDigits_exponentChars ends
  have some : ¬ (takeDigits significand fraction.1).2.1 + (takeDigits significand fraction.1).2.2.length = 0 := by
    rw [length_takeDigits]
    exact fun none => fraction.2.1 (List.length_eq_zero_iff.mp none)
  simp only [readFraction.eq_def, same _ stop, countDigits_append allLeft stop]
  rw [if_neg some]
  exact toOption_readScale _ _ _ _ ends

-- The whole part is taken as far as it fits, and what is left of it is counted.
theorem Number.readNumber_whole (number : Number) {rest : List Char} (ends : EndsNumeral rest) :
    readNumber number.negative (number.unsignedChars ++ rest) =
      readWhole number.negative number.wholeDigits.1 number.wholeDigits.2.2.length (number.tailChars ++ rest) := by
  have stop := number.endsDigits_tailChars ends
  rw [unsignedChars, List.append_assoc, wholeDigits]
  obtain ⟨digits, unsigned⟩ := number.whole
  cases unsigned with
  | zero => exact readNumber_zero stop number.negative
  | @positive c digits first nonzero others =>
    obtain ⟨allLeft, same⟩ := takeDigits_run others (digitValue c)
    have fits : digitValue c ≤ greatestWord := Nat.le_trans (Nat.le_of_lt (digitValue_lt first)) (by decide)
    rw [List.cons_append, readNumber_digit first nonzero, same _ stop, countDigits_append allLeft stop]
    simp [takeDigits, first, fits]

theorem Number.toOption_readNumber (number : Number) {rest : List Char} (ends : EndsNumeral rest) :
    (readNumber number.negative (number.unsignedChars ++ rest)).toOption =
      number.document?.map fun d => (d, rest) := by
  rw [number.readNumber_whole ends, tailChars, List.append_assoc, document?]
  cases pointed : number.fraction with
  | some fraction => exact number.toOption_readFraction fraction _ _ ends
  | none =>
    rw [exponentChars]
    cases scaled : number.exponent with
    | some exponent =>
      have marked : readWhole number.negative number.wholeDigits.1 number.wholeDigits.2.2.length
          (exponent.chars ++ rest) =
          readScale number.negative number.wholeDigits.1 number.wholeDigits.2.2.length (exponent.chars ++ rest) := by
        rcases exponent.mark.2 with small | capital
        · rw [Exponent.chars, small]
          rfl
        · rw [Exponent.chars, capital]
          rfl
      exact marked ▸ toOption_readScale _ _ _ (some exponent) ends
    | none =>
      rw [Option.elim_none, Option.elim_none, List.nil_append, List.nil_append, readWhole_of_ends ends]
      by_cases small : number.magnitude ≤ greatestWord
      · have all := takeDigits_exact number.whole.2.digits small endsNumeral_nil.endsDigits
        rw [List.append_nil] at all
        dsimp only
        rw [if_pos small, wholeDigits, all]
        rfl
      · obtain ⟨total, taken, left, some, -, same⟩ :=
          takeDigits_large number.whole.2.digits (Nat.zero_le _) (Nat.lt_of_not_le small)
        dsimp only
        rw [if_neg small, wholeDigits, same, if_neg fun none => some (List.length_eq_zero_iff.mp none)]
        exact toOption_finishDouble _ _ _ _

-- What may stand for itself in a string.
def isUnescaped (c : Char) : Bool := c != '"' && c != '\\' && 0x20 ≤ c.toNat

-- What a string holds between its quotes: characters that stand for themselves, escapes of one letter, and units of
-- four hexadecimal digits.
inductive Piece
  | plain (c : Char) (visible : isUnescaped c = true)
  | short (letter value : Char) (spelled : shortEscape? letter = some value)
  | unit (a b c d : Char) (value : Nat) (spelled : hexUnit? [a, b, c, d] = some value)

namespace Piece

def chars : Piece → List Char
  | .plain c _ => [c]
  | .short letter _ _ => ['\\', letter]
  | .unit a b c d _ _ => ['\\', 'u', a, b, c, d]

-- A leading unit and the trailing one behind it are one character; apart they are none.
def text? : List Piece → Option (List Char)
  | [] => some []
  | .plain c _ :: pieces => (text? pieces).map (c :: ·)
  | .short _ c _ :: pieces => (text? pieces).map (c :: ·)
  | .unit _ _ _ _ value _ :: pieces =>
    if isTrailing value then none
    else if isLeading value then
      match pieces with
      | .unit _ _ _ _ trailing _ :: pieces =>
        if isTrailing trailing then (text? pieces).map (joinSurrogates value trailing :: ·) else none
      | _ => none
    else (text? pieces).map (Char.ofNat value :: ·)

-- The text of pieces, with the closing quote.
def closed (pieces : List Piece) (rest : List Char) : List Char := pieces.flatMap chars ++ '"' :: rest

theorem closed_cons (piece : Piece) (pieces : List Piece) (rest : List Char) :
    closed (piece :: pieces) rest = piece.chars ++ closed pieces rest := by
  rw [closed, List.flatMap_cons, List.append_assoc, closed]

theorem closed_unit {a b c d : Char} {value : Nat} (spelled : hexUnit? [a, b, c, d] = some value)
    (pieces : List Piece) (rest : List Char) :
    closed (.unit a b c d value spelled :: pieces) rest = '\\' :: 'u' :: a :: b :: c :: d :: closed pieces rest :=
  closed_cons _ _ _

theorem readUnit_spelled {a b c d : Char} {value : Nat} (spelled : hexUnit? [a, b, c, d] = some value)
    (rest : List Char) : readUnit (a :: b :: c :: d :: rest) = .ok value := by
  have found : hexUnit? (a :: b :: c :: d :: rest) = some value := (hexUnit?_append spelled rest).1
  rw [readUnit, found]

theorem isUnescaped_iff {c : Char} : isUnescaped c = true ↔ c ≠ '"' ∧ c ≠ '\\' ∧ 0x20 ≤ c.toNat := by
  simp [isUnescaped, and_assoc]

theorem toOption_readChars_plain {c : Char} (visible : isUnescaped c = true) (source : List Char) :
    (readChars (c :: source) 0).toOption = (readChars source 0).toOption.map fun (more, rest) => (c :: more, rest) := by
  obtain ⟨quote, backslash, seen⟩ := isUnescaped_iff.mp visible
  rw [readChars, if_neg quote, if_neg backslash, if_neg (Nat.not_lt.mpr seen)]
  cases readChars source 0 <;> rfl

-- An escape is read ahead, and its characters are skipped then.
theorem toOption_readChars_escape {source behind : List Char} {c : Char} {used : Nat}
    (escape : readEscape source = .ok (c, used)) (skipped : readChars source used = readChars behind 0) :
    (readChars ('\\' :: source) 0).toOption =
      (readChars behind 0).toOption.map fun (more, rest) => (c :: more, rest) := by
  rw [readChars, if_neg (by decide), if_pos rfl, escape]
  refine (toOption_bind (readChars source used) _).trans ?_
  rw [skipped]
  cases readChars behind 0 <;> rfl

theorem toOption_readChars_refused {source : List Char} (refused : (readEscape source).toOption = none) :
    (readChars ('\\' :: source) 0).toOption = none := by
  rw [readChars, if_neg (by decide), if_pos rfl, toOption_bind, refused]
  rfl

theorem readEscape_unit {source : List Char} {value : Nat} (read : readUnit source = .ok value) :
    readEscape ('u' :: source) =
      if isTrailing value then flawHere .loneSurrogate (source.drop 4)
      else if isLeading value then do
        let joined ← readTrailing value (source.drop 4)
        return (joined, 11)
      else return (Char.ofNat value, 5) := by
  have long : shortEscape? 'u' = none := by decide
  rw [readEscape, long]
  simp only [if_true, read]
  rfl

theorem toOption_readEscape_leading {a b c d : Char} {value : Nat} (spelled : hexUnit? [a, b, c, d] = some value)
    (other : ¬ isTrailing value = true) (leading : isLeading value = true) (behind : List Char) :
    (readEscape ('u' :: a :: b :: c :: d :: behind)).toOption =
      (readTrailing value behind).toOption.map fun joined => (joined, 11) := by
  rw [readEscape_unit (readUnit_spelled spelled behind), if_neg other, if_pos leading]
  refine (toOption_bind (readTrailing value behind) _).trans ?_
  cases readTrailing value behind <;> rfl

-- Only a trailing unit goes on with a leading one.
theorem toOption_readTrailing_other {leading : Nat} {pieces : List Piece} (rest : List Char)
    (other : ∀ a b c d value spelled more, pieces ≠ .unit a b c d value spelled :: more) :
    (readTrailing leading (closed pieces rest)).toOption = none := by
  have stops : ∀ {c : Char} (more : List Char), c ≠ '\\' → (readTrailing leading (c :: more)).toOption = none := by
    intro c more backslash
    rw [readTrailing.eq_def]
    split
    · rfl
    · next same => exact absurd (List.cons.inj same).1 backslash
    · next same => exact absurd (List.cons.inj same).1 backslash
    · rfl
    · rfl
  cases pieces with
  | nil => exact stops rest (by decide)
  | cons piece pieces =>
    rw [closed_cons]
    cases piece with
    | plain c visible => exact stops (closed pieces rest) (isUnescaped_iff.mp visible).2.1
    | short letter value spelled =>
      have other : letter ≠ 'u' := by
        rintro rfl
        cases spelled
      change (readTrailing leading ('\\' :: letter :: closed pieces rest)).toOption = none
      rw [readTrailing.eq_def]
      split
      · rfl
      · rfl
      · next same => exact absurd (List.cons.inj (List.cons.inj same).2).1 other
      · rfl
      · rfl
    | unit a b c d value spelled => exact absurd rfl (other a b c d value spelled pieces)

theorem toOption_readTrailing_unit {leading : Nat} {a b c d : Char} {value : Nat}
    (spelled : hexUnit? [a, b, c, d] = some value) (pieces : List Piece) (rest : List Char) :
    (readTrailing leading (closed (.unit a b c d value spelled :: pieces) rest)).toOption =
      if isTrailing value then some (joinSurrogates leading value) else none := by
  rw [closed_unit, readTrailing, readUnit_spelled spelled]
  change Except.toOption (if isTrailing value then _ else _) = _
  split <;> rfl

theorem toOption_readChars (pieces : List Piece) (rest : List Char) :
    (readChars (closed pieces rest) 0).toOption = (text? pieces).map fun text => (text, rest) := by
  fun_induction text? pieces with
  | case1 => rfl
  | case2 c visible pieces ih =>
    rw [closed_cons]
    refine (toOption_readChars_plain visible (closed pieces rest)).trans ?_
    rw [ih]
    cases text? pieces <;> rfl
  | case3 letter c spelled pieces ih =>
    have escape : readEscape (letter :: closed pieces rest) = .ok (c, 1) := by
      rw [readEscape, spelled]
    rw [closed_cons]
    refine (toOption_readChars_escape escape rfl).trans ?_
    rw [ih]
    cases text? pieces <;> rfl
  | case4 a b c d value spelled pieces trailing =>
    rw [closed_unit]
    apply toOption_readChars_refused
    rw [readEscape_unit (readUnit_spelled spelled _), if_pos trailing]
    rfl
  | case5 a b c d value spelled other leading a' b' c' d' second spelled' pieces trailing ih =>
    have escape := toOption_readEscape_leading spelled other leading
      (closed (.unit a' b' c' d' second spelled' :: pieces) rest)
    rw [toOption_readTrailing_unit, if_pos trailing] at escape
    rw [closed_unit]
    refine (toOption_readChars_escape (eq_ok_of_toOption escape) (by rw [closed_unit]; rfl)).trans ?_
    rw [ih]
    cases text? pieces <;> rfl
  | case6 a b c d value spelled other leading a' b' c' d' second spelled' pieces lone =>
    rw [closed_unit]
    apply toOption_readChars_refused
    rw [toOption_readEscape_leading spelled other leading, toOption_readTrailing_unit, if_neg lone]
    rfl
  | case7 a b c d value spelled pieces other leading lone =>
    rw [closed_unit]
    apply toOption_readChars_refused
    rw [toOption_readEscape_leading spelled other leading, toOption_readTrailing_other rest lone]
    rfl
  | case8 a b c d value spelled pieces other single ih =>
    have escape := readEscape_unit (readUnit_spelled spelled (closed pieces rest))
    rw [if_neg other, if_neg single] at escape
    rw [closed_unit]
    refine (toOption_readChars_escape escape rfl).trans ?_
    rw [ih]
    cases text? pieces <;> rfl

def string? (pieces : List Piece) : Option String := (text? pieces).map String.ofList

theorem toOption_readString (pieces : List Piece) (rest : List Char) :
    (readString (closed pieces rest)).toOption = (string? pieces).map fun text => (text, rest) := by
  refine (toOption_bind (readChars (closed pieces rest) 0) _).trans ?_
  rw [toOption_readChars, string?]
  cases text? pieces <;> rfl

theorem closed_append (pieces : List Piece) (text rest : List Char) :
    closed pieces text ++ rest = closed pieces (text ++ rest) := by
  rw [closed, List.append_assoc, List.cons_append, closed]

end Piece

inductive Token
  | null
  | boolean (value : Bool)
  | number (n : Number)
  | string (pieces : List Piece)

namespace Token

def chars : Token → List Char
  | .null => ['n', 'u', 'l', 'l']
  | .boolean false => ['f', 'a', 'l', 's', 'e']
  | .boolean true => ['t', 'r', 'u', 'e']
  | .number n => n.chars
  | .string pieces => '"' :: Piece.closed pieces []

def document? : Token → Option Document
  | .null => some .null
  | .boolean value => some (.boolean value)
  | .number n => n.document?
  | .string pieces => (Piece.string? pieces).map .string

end Token

theorem Number.unsignedChars_cons (number : Number) :
    ∃ c more, number.unsignedChars = c :: more ∧ c.isDigit = true := by
  rw [unsignedChars]
  obtain ⟨digits, unsigned⟩ := number.whole
  cases unsigned with
  | zero => exact ⟨'0', number.tailChars, rfl, rfl⟩
  | @positive c digits first _ _ => exact ⟨c, digits ++ number.tailChars, rfl, first⟩

theorem Token.opens (token : Token) : Opens token.chars := by
  cases token with
  | null => exact .cons rfl (by decide) _
  | boolean value => cases value <;> exact .cons rfl (by decide) _
  | string pieces => exact .cons rfl (by decide) _
  | number number =>
    rw [chars, Number.chars]
    split
    · exact .cons rfl (by decide) _
    · obtain ⟨c, more, spelled, digit⟩ := number.unsignedChars_cons
      rw [spelled]
      exact .cons (isBlank_digit digit) (digit_ne digit ']' rfl) _

theorem Token.toOption_readValue (token : Token) (fuel levels : Nat) {rest : List Char} (ends : EndsNumeral rest) :
    (readValue fuel levels (token.chars ++ rest)).toOption = token.document?.map fun d => (d, rest) := by
  cases token with
  | null =>
    unfold readValue
    rfl
  | boolean value =>
    unfold readValue
    cases value <;> rfl
  | string pieces =>
    rw [chars, List.cons_append, Piece.closed_append, List.nil_append, readValue_quote (skipBlanks_cons rfl _)]
    refine (toOption_bind (readString (Piece.closed pieces rest)) _).trans ?_
    rw [Piece.toOption_readString, document?]
    cases Piece.string? pieces <;> rfl
  | number number =>
    have read := number.toOption_readNumber ends
    rw [chars, Number.chars]
    split
    · next negative =>
      rw [negative] at read
      rw [List.cons_append, readValue_minus, read]
      rfl
    · next positive =>
      rw [Bool.not_eq_true] at positive
      rw [positive] at read
      obtain ⟨c, more, spelled, digit⟩ := number.unsignedChars_cons
      rw [spelled] at read ⊢
      rw [List.cons_append, readValue_digit digit, ← List.cons_append, read]
      rfl

end Treeline.Json
