import Treeline.Document.Printer
import Treeline.Document.Reader.Numeral
import Treeline.Proofs.Outcome

namespace Treeline.Document

-- Every printed numeral is read to its end, or refused, in the same way wherever it stands.

-- What cannot go on with a numeral.
def EndsNumeral (rest : List Char) : Prop :=
  ∀ c ∈ rest.head?, c.isDigit = false ∧ c ≠ '.' ∧ c ≠ 'e' ∧ c ≠ 'E'

def EndsDigits (rest : List Char) : Prop := ∀ c ∈ rest.head?, c.isDigit = false

theorem endsNumeral_nil : EndsNumeral [] := fun _ none => nomatch none

theorem EndsNumeral.endsDigits {rest : List Char} (ends : EndsNumeral rest) : EndsDigits rest :=
  fun c first => (ends c first).1

def Digits (piece : List Char) : Prop := ∀ c ∈ piece, c.isDigit = true

theorem digits_nil : Digits [] := fun _ member => absurd member List.not_mem_nil

theorem digits_toDigits (n : Nat) : Digits (Nat.toDigits 10 n) :=
  fun _ member => Nat.isDigit_of_mem_toDigits (by decide) (by decide) member

theorem digit_ne {c : Char} (digit : c.isDigit = true) (other : Char) (letter : other.isDigit = false) :
    c ≠ other := by
  rintro rfl
  rw [digit] at letter
  cases letter

-- The exponent of a numeral, the part behind its first digits, and the whole of it, sign aside. Each run of digits may
-- be empty here; the reader refuses that.
inductive Scale : List Char → Prop
  | none : Scale []
  | exponent {mark : Char} {digits : List Char} (sign : mark = '+' ∨ mark = '-') (all : Digits digits) :
      Scale ('e' :: mark :: digits)

inductive Tail : List Char → Prop
  | scale {scale : List Char} (ends : Scale scale) : Tail scale
  | fraction {digits scale : List Char} (all : Digits digits) (ends : Scale scale) : Tail ('.' :: (digits ++ scale))

inductive Numeral : List Char → Prop
  | mk {digits tail : List Char} (all : Digits digits) (ends : Tail tail) : Numeral (digits ++ tail)

-- The reader gives the same answer for a piece of text whatever follows, and leaves what follows.
def ReadsWhole {α : Type} (reader : Reader α) (piece : List Char) : Prop :=
  ∃ result : Option α, ∀ rest, EndsNumeral rest →
    (reader (piece ++ rest)).toOption = result.map fun value => (value, rest)

theorem takeDigits_append {digits : List Char} (all : Digits digits) (significand : Nat) :
    ∃ total taken left, Digits left ∧ ∀ rest, EndsDigits rest →
      takeDigits significand (digits ++ rest) = (total, taken, left ++ rest) := by
  induction digits generalizing significand with
  | nil =>
    refine ⟨significand, 0, [], digits_nil, ?_⟩
    intro rest ends
    cases rest with
    | nil => rfl
    | cons c rest => simp [takeDigits, ends c rfl]
  | cons c digits ih =>
    obtain ⟨first, others⟩ := List.forall_mem_cons.mp all
    by_cases fits : significand * 10 + digitValue c ≤ greatestWord
    · obtain ⟨total, taken, left, allLeft, same⟩ := ih others (significand * 10 + digitValue c)
      refine ⟨total, taken + 1, left, allLeft, ?_⟩
      intro rest ends
      simp [takeDigits, first, fits, same rest ends]
    · refine ⟨significand, 0, c :: digits, all, ?_⟩
      intro rest _
      simp [takeDigits, fits]

theorem dropWhile_digits {digits rest : List Char} (all : Digits digits) (ends : EndsDigits rest) :
    (digits ++ rest).dropWhile Char.isDigit = rest := by
  rw [List.dropWhile_append_of_pos all]
  cases rest with
  | nil => rfl
  | cons c rest => simp [ends c rfl]

theorem countDigits_append {digits rest : List Char} (all : Digits digits) (ends : EndsDigits rest) :
    countDigits (digits ++ rest) = (digits.length, rest) := by
  have taken : (digits ++ rest).takeWhile Char.isDigit = digits := by
    rw [List.takeWhile_append_of_pos all]
    cases rest with
    | nil => simp
    | cons c rest => simp [ends c rfl]
  rw [countDigits, taken, dropWhile_digits all ends]

theorem takeExponent_append {digits : List Char} (all : Digits digits) (value : Nat) :
    (∃ left, Digits left ∧ ∀ rest, takeExponent value (digits ++ rest) = .inl (left ++ rest)) ∨
    (∃ total, ∀ rest, EndsDigits rest → takeExponent value (digits ++ rest) = .inr (total, rest)) := by
  induction digits generalizing value with
  | nil =>
    refine .inr ⟨value, ?_⟩
    intro rest ends
    cases rest with
    | nil => rfl
    | cons c rest => simp [takeExponent, ends c rfl]
  | cons c digits ih =>
    obtain ⟨first, others⟩ := List.forall_mem_cons.mp all
    by_cases large : greatestExponent < value * 10 + digitValue c
    · exact .inl ⟨digits, others, fun rest => by simp [takeExponent, first, large]⟩
    · simp only [List.cons_append, takeExponent, first, large, if_true, if_false]
      exact ih others _

theorem finishDouble_readsWhole (negative : Bool) (significand : Nat) (exponent : Int) :
    ReadsWhole (finishDouble negative significand exponent) [] := by
  refine ⟨(Binary64.ofDecimal? significand exponent).map fun x => .double (signed negative x), ?_⟩
  intro rest _
  rw [List.nil_append, finishDouble]
  cases Binary64.ofDecimal? significand exponent <;> rfl

-- The sign of an exponent is dealt with before its digits.
theorem readExponent_mark {mark : Char} (sign : mark = '+' ∨ mark = '-') :
    ∃ down : Bool, ∀ negative significand exponent digits,
      readExponent negative significand exponent (mark :: digits) =
        match digits with
        | [] => flawHere .endOfValue []
        | c :: behind =>
          if c.isDigit then
            match takeExponent (digitValue c) behind with
            | .inr (value, behind) =>
              finishDouble negative significand (if down then exponent - value else exponent + value) behind
            | .inl behind =>
              if significand ≠ 0 ∧ !down then flawHere .numberOutOfRange behind
              else .ok (.double (signed negative (Binary64.ofNat 0)), behind.dropWhile Char.isDigit)
          else flawNext .invalidNumber digits := by
  rcases sign with rfl | rfl
  · exact ⟨false, fun _ _ _ _ => rfl⟩
  · exact ⟨true, fun _ _ _ _ => rfl⟩

theorem readExponent_readsWhole {mark : Char} {digits : List Char} (sign : mark = '+' ∨ mark = '-')
    (all : Digits digits) (negative : Bool) (significand : Nat) (exponent : Int) :
    ReadsWhole (readExponent negative significand exponent) (mark :: digits) := by
  obtain ⟨down, marked⟩ := readExponent_mark sign
  cases digits with
  | nil =>
    refine ⟨none, ?_⟩
    intro rest ends
    rw [List.cons_append, List.nil_append, marked]
    cases rest with
    | nil => rfl
    | cons c rest =>
      simp only [(ends c rfl).1, Bool.false_eq_true, if_false]
      rfl
  | cons c digits =>
    obtain ⟨first, others⟩ := List.forall_mem_cons.mp all
    rcases takeExponent_append others (digitValue c) with ⟨left, allLeft, large⟩ | ⟨value, fits⟩
    · refine ⟨if significand ≠ 0 ∧ !down then none else
        some (.double (signed negative (Binary64.ofNat 0))), ?_⟩
      intro rest ends
      rw [List.cons_append, List.cons_append, marked]
      simp only [first, large, if_true]
      split
      · rfl
      · rw [dropWhile_digits allLeft ends.endsDigits]
        rfl
    · obtain ⟨result, finished⟩ := finishDouble_readsWhole negative significand
        (if down then exponent - value else exponent + value)
      refine ⟨result, ?_⟩
      intro rest ends
      rw [List.cons_append, List.cons_append, marked]
      simp only [first, fits rest ends.endsDigits, if_true]
      exact finished rest ends

theorem readScale_of_ends {rest : List Char} (ends : EndsNumeral rest) (negative : Bool) (significand : Nat)
    (exponent : Int) :
    readScale negative significand exponent rest = finishDouble negative significand exponent rest := by
  unfold readScale
  split
  · exact absurd rfl (ends 'e' rfl).2.2.1
  · exact absurd rfl (ends 'E' rfl).2.2.2
  · rfl

theorem readScale_readsWhole {piece : List Char} (scale : Scale piece) (negative : Bool) (significand : Nat)
    (exponent : Int) : ReadsWhole (readScale negative significand exponent) piece := by
  cases scale with
  | none =>
    obtain ⟨result, finished⟩ := finishDouble_readsWhole negative significand exponent
    refine ⟨result, ?_⟩
    intro rest ends
    rw [List.nil_append, readScale_of_ends ends]
    exact finished rest ends
  | exponent sign all =>
    obtain ⟨result, finished⟩ := readExponent_readsWhole sign all negative significand exponent
    exact ⟨result, fun rest ends => finished rest ends⟩

theorem Scale.endsDigits {piece rest : List Char} (scale : Scale piece) (ends : EndsNumeral rest) :
    EndsDigits (piece ++ rest) := by
  cases scale with
  | none => exact ends.endsDigits
  | exponent sign all =>
    intro c first
    cases Option.some.inj first
    rfl

theorem readFraction_readsWhole {digits scale : List Char} (all : Digits digits) (ends : Scale scale)
    (negative : Bool) (significand : Nat) (exponent : Int) :
    ReadsWhole (readFraction negative significand exponent) (digits ++ scale) := by
  obtain ⟨total, taken, left, allLeft, same⟩ := takeDigits_append all significand
  obtain ⟨result, finished⟩ := readScale_readsWhole ends negative total (exponent - taken)
  refine ⟨if taken + left.length = 0 then none else result, ?_⟩
  intro rest after
  have stop := ends.endsDigits after
  rw [List.append_assoc]
  simp only [readFraction.eq_def, same _ stop, countDigits_append allLeft stop]
  split
  · cases digits ++ (scale ++ rest) <;> rfl
  · exact finished rest after

theorem Tail.endsDigits {piece rest : List Char} (tail : Tail piece) (ends : EndsNumeral rest) :
    EndsDigits (piece ++ rest) := by
  cases tail with
  | scale scale => exact scale.endsDigits ends
  | fraction all scale =>
    intro c first
    cases Option.some.inj first
    rfl

theorem readWhole_of_ends {rest : List Char} (ends : EndsNumeral rest) (negative : Bool) (significand dropped : Nat) :
    readWhole negative significand dropped rest =
      if dropped = 0 then .ok (wholeNumber negative significand, rest)
      else finishDouble negative significand dropped rest := by
  unfold readWhole
  split
  · exact absurd rfl (ends '.' rfl).2.1
  · split
    · exact absurd rfl (ends 'e' rfl).2.2.1
    · exact absurd rfl (ends 'E' rfl).2.2.2
    · rfl

theorem readWhole_readsWhole {tail : List Char} (ends : Tail tail) (negative : Bool) (significand dropped : Nat) :
    ReadsWhole (readWhole negative significand dropped) tail := by
  cases ends with
  | fraction all scale =>
    obtain ⟨result, finished⟩ := readFraction_readsWhole all scale negative significand dropped
    exact ⟨result, fun rest ends => finished rest ends⟩
  | scale scale =>
    cases scale with
    | exponent sign all =>
      obtain ⟨result, finished⟩ := readScale_readsWhole (.exponent sign all) negative significand dropped
      exact ⟨result, fun rest ends => finished rest ends⟩
    | none =>
      obtain ⟨result, finished⟩ := finishDouble_readsWhole negative significand dropped
      refine ⟨if dropped = 0 then some (wholeNumber negative significand) else result, ?_⟩
      intro rest ends
      rw [List.nil_append, readWhole_of_ends ends]
      split
      · rfl
      · exact finished rest ends

theorem readNumber_readsWhole {piece : List Char} (numeral : Numeral piece) (negative : Bool) :
    ReadsWhole (readNumber negative) piece := by
  obtain @⟨digits, tail, all, ends⟩ := numeral
  cases digits with
  | nil =>
    -- No digit comes first, and nothing else is taken.
    refine ⟨none, ?_⟩
    intro rest after
    have stop := ends.endsDigits after
    rw [List.nil_append]
    cases text : tail ++ rest with
    | nil => rfl
    | cons c behind =>
      rw [text] at stop
      have other : c.isDigit = false := stop c rfl
      have nonzero : c ≠ '0' := by
        rintro rfl
        cases other
      simp [readNumber, nonzero, other]
  | cons c digits =>
    obtain ⟨first, others⟩ := List.forall_mem_cons.mp all
    by_cases zero : c = '0'
    · cases digits with
      | nil =>
        obtain ⟨result, finished⟩ := readWhole_readsWhole ends negative 0 0
        refine ⟨result, ?_⟩
        intro rest after
        have stop := ends.endsDigits after
        rw [← finished rest after, zero]
        simp only [List.cons_append, List.nil_append, readNumber, if_true]
        cases text : tail ++ rest with
        | nil => rfl
        | cons d behind =>
          rw [text] at stop
          simp [stop d rfl]
      | cons d digits =>
        refine ⟨none, ?_⟩
        intro rest after
        simp [readNumber, zero, (List.forall_mem_cons.mp others).1]
    · obtain ⟨total, taken, left, allLeft, same⟩ := takeDigits_append others (digitValue c)
      obtain ⟨result, finished⟩ := readWhole_readsWhole ends negative total left.length
      refine ⟨result, ?_⟩
      intro rest after
      have stop := ends.endsDigits after
      rw [← finished rest after, List.append_assoc, List.cons_append]
      simp only [readNumber, zero, first, same _ stop, countDigits_append allLeft stop, if_true, if_false]

-- What is printed are numerals.

theorem Digits.append {first second : List Char} (left : Digits first) (right : Digits second) :
    Digits (first ++ second) := by
  intro c member
  rcases List.mem_append.mp member with before | behind
  · exact left c before
  · exact right c behind

theorem digits_zeros (count : Nat) : Digits (NumeralStyle.zeros count) := by
  intro c member
  rw [List.eq_of_mem_replicate member]
  rfl

theorem Numeral.ofDigits {digits : List Char} (all : Digits digits) : Numeral digits := by
  have plain := Numeral.mk all (.scale .none)
  rwa [List.append_nil] at plain

theorem Numeral.ofPoint {whole fraction : List Char} (all : Digits whole) (behind : Digits fraction) :
    Numeral (whole ++ '.' :: fraction) := by
  have pointed := Numeral.mk all (.fraction behind .none)
  rwa [List.append_nil] at pointed

theorem Numeral.placePoint {d : Decimal} (all : Digits d.digits) : Numeral (NumeralStyle.placePoint ['.', '0'] d) := by
  have zero : Digits ['0'] := digits_zeros 1
  unfold NumeralStyle.placePoint
  split
  · exact .ofPoint zero ((digits_zeros _).append all)
  · split
    · exact .ofPoint (all.append (digits_zeros _)) zero
    · exact .ofPoint (fun c member => all c (List.mem_of_mem_take member))
        (fun c member => all c (List.mem_of_mem_drop member))

theorem Numeral.exponential {d : Decimal} (all : Digits d.digits) : Numeral (NumeralStyle.exponential d) := by
  have scale : Scale ((if d.exponent < 0 then ['e', '-'] else ['e', '+']) ++ Nat.toDigits 10 d.exponent.natAbs) := by
    split
    · exact .exponent (.inr rfl) (digits_toDigits _)
    · exact .exponent (.inl rfl) (digits_toDigits _)
  unfold NumeralStyle.exponential
  rw [List.append_assoc]
  cases digits : d.digits with
  | nil => exact @Numeral.mk [] _ digits_nil (.scale scale)
  | cons first more =>
    rw [digits] at all
    cases more with
    | nil => exact .mk all (.scale scale)
    | cons second more =>
      obtain ⟨one, others⟩ := List.forall_mem_cons.mp all
      exact @Numeral.mk [first] _ (by simpa [Digits] using one) (.fraction others scale)

theorem digits_ofScaled (c : Nat) (e : Int) : Digits (Decimal.ofScaled c e).digits := by
  intro digit member
  have kept := (List.dropWhile_sublist _).subset (List.mem_reverse.mp member)
  exact digits_toDigits c digit (List.mem_reverse.mp kept)

theorem digits_onGrid {tie : Tie} {x : Binary64} {e : Int} {d : Decimal} (found : x.onGrid? tie e = some d) :
    Digits d.digits := by
  unfold Binary64.onGrid? at found
  dsimp only at found
  split at found
  · cases found
  all_goals
    cases Option.some.inj found
    exact digits_ofScaled _ _

theorem digits_shortest (tie : Tie) (x : Binary64) : Digits (x.shortest tie).digits := by
  unfold Binary64.shortest
  dsimp only
  cases found : (List.range 17).findSome? fun (n : Nat) =>
      x.onGrid? tie (Decimal.leadingExponent x.numerator Binary64.unit - n) with
  | none => exact digits_nil
  | some d =>
    obtain ⟨n, -, same⟩ := List.exists_of_findSome?_eq_some found
    exact digits_onGrid same

-- A point is all that stands between digits where no exponent is written.
theorem mem_placePoint {suffix : List Char} {d : Decimal} (all : Digits d.digits) :
    ∀ c ∈ NumeralStyle.placePoint suffix d, c.isDigit = true ∨ c = '.' ∨ c ∈ suffix := by
  have digit : ∀ {piece : List Char}, Digits piece → ∀ c ∈ piece, c.isDigit = true ∨ c = '.' ∨ c ∈ suffix :=
    fun digits c member => .inl (digits c member)
  unfold NumeralStyle.placePoint
  split
  · refine List.forall_mem_cons.mpr ⟨.inl rfl, List.forall_mem_cons.mpr ⟨.inr (.inl rfl), ?_⟩⟩
    exact digit ((digits_zeros _).append all)
  · split
    · exact List.forall_mem_append.mpr ⟨digit (all.append (digits_zeros _)), fun c member => .inr (.inr member)⟩
    · refine List.forall_mem_append.mpr ⟨digit fun c member => all c (List.mem_of_mem_take member), ?_⟩
      exact List.forall_mem_cons.mpr ⟨.inr (.inl rfl), digit fun c member => all c (List.mem_of_mem_drop member)⟩

-- What is not finite has a word in place of a numeral.
theorem unsigned_cases (x : Binary64) :
    NumeralStyle.document.unsigned x = ['N', 'a', 'N'] ∨ NumeralStyle.document.unsigned x = ['i', 'n', 'f'] ∨
      Numeral (NumeralStyle.document.unsigned x) := by
  unfold NumeralStyle.unsigned
  split
  · exact .inl rfl
  split
  · exact .inr (.inl rfl)
  refine .inr (.inr ?_)
  split
  · exact .placePoint (digits_zeros 1)
  dsimp only
  split
  · exact .placePoint (digits_shortest _ x)
  · exact .exponential (digits_shortest _ x)

theorem unsigned_ne_nil (style : NumeralStyle) (x : Binary64) (suffixed : style.wholeSuffix ≠ []) :
    style.unsigned x ≠ [] := by
  have placed : ∀ d, NumeralStyle.placePoint style.wholeSuffix d ≠ [] := by
    intro d
    unfold NumeralStyle.placePoint
    split
    · simp
    · split <;> simp [suffixed]
  unfold NumeralStyle.unsigned
  split
  · simp
  split
  · simp
  split
  · exact placed _
  dsimp only
  split
  · exact placed _
  · simp [NumeralStyle.exponential]

-- Whole numbers of 64 bits are read exactly.

theorem bounds_of_isDigit {c : Char} (digit : c.isDigit = true) : 48 ≤ c.toNat ∧ c.toNat ≤ 57 := by
  simpa [Char.isDigit, UInt32.le_iff_toNat_le] using digit

theorem digitValue_eq (c : Char) : digitValue c = c.toNat - 48 := rfl

theorem digitValue_lt {c : Char} (digit : c.isDigit = true) : digitValue c < 10 := by
  obtain ⟨-, high⟩ := bounds_of_isDigit digit
  rw [digitValue_eq]
  omega

theorem ofDigitChars_digit (c : Char) (digits : List Char) (value : Nat) :
    Nat.ofDigitChars 10 (c :: digits) value = Nat.ofDigitChars 10 digits (10 * value + digitValue c) :=
  Nat.ofDigitChars_cons

theorem le_ofDigitChars (digits : List Char) (value : Nat) : value ≤ Nat.ofDigitChars 10 digits value := by
  induction digits generalizing value with
  | nil => simp
  | cons c digits ih =>
    rw [Nat.ofDigitChars_cons]
    exact Nat.le_trans (by omega) (ih _)

theorem takeDigits_exact {digits : List Char} (all : Digits digits) {significand : Nat}
    (fits : Nat.ofDigitChars 10 digits significand ≤ greatestWord) {rest : List Char} (ends : EndsDigits rest) :
    takeDigits significand (digits ++ rest) = (Nat.ofDigitChars 10 digits significand, digits.length, rest) := by
  induction digits generalizing significand with
  | nil =>
    cases rest with
    | nil => rfl
    | cons c rest => simp [takeDigits, ends c rfl]
  | cons c digits ih =>
    obtain ⟨first, others⟩ := List.forall_mem_cons.mp all
    rw [ofDigitChars_digit, Nat.mul_comm 10] at fits ⊢
    have small := Nat.le_trans (le_ofDigitChars digits _) fits
    simp [takeDigits, first, small, ih others fits]

-- Some digit does not fit any more.
theorem takeDigits_large {digits : List Char} (all : Digits digits) {significand : Nat}
    (small : significand ≤ greatestWord) (large : greatestWord < Nat.ofDigitChars 10 digits significand) :
    ∃ total taken left, left ≠ [] ∧ Digits left ∧ takeDigits significand digits = (total, taken, left) := by
  induction digits generalizing significand with
  | nil =>
    rw [Nat.ofDigitChars_nil] at large
    exact absurd small (Nat.not_le_of_lt large)
  | cons c digits ih =>
    obtain ⟨first, others⟩ := List.forall_mem_cons.mp all
    rw [ofDigitChars_digit, Nat.mul_comm] at large
    by_cases fits : significand * 10 + digitValue c ≤ greatestWord
    · obtain ⟨total, taken, left, some, digits, same⟩ := ih others fits large
      exact ⟨total, taken + 1, left, some, digits, by simp [takeDigits, first, fits, same]⟩
    · exact ⟨significand, 0, c :: digits, List.cons_ne_nil _ _, all, by simp [takeDigits, fits]⟩

-- The digits of a whole number: a zero alone, or any digits behind one that is not zero.
inductive Unsigned : List Char → Prop
  | zero : Unsigned ['0']
  | positive {c : Char} {digits : List Char} (first : c.isDigit = true) (nonzero : c ≠ '0') (others : Digits digits) :
      Unsigned (c :: digits)

theorem Unsigned.digits {digits : List Char} (unsigned : Unsigned digits) : Digits digits := by
  cases unsigned with
  | zero => exact digits_zeros 1
  | positive first _ others => exact List.forall_mem_cons.mpr ⟨first, others⟩

-- Only zero itself begins with a zero.
theorem toDigits_head {n : Nat} (positive : 0 < n) {c : Char} {digits : List Char}
    (spelled : Nat.toDigits 10 n = c :: digits) : c ≠ '0' := by
  induction n using Nat.strongRecOn generalizing digits with
  | ind n ih =>
    by_cases small : n < 10
    · rw [Nat.toDigits_of_lt_base small] at spelled
      cases spelled
      simpa using Nat.ne_of_gt positive
    · rw [Nat.toDigits_of_base_le (by decide) (by omega)] at spelled
      cases front : Nat.toDigits 10 (n / 10) with
      | nil => exact absurd front Nat.toDigits_ne_nil
      | cons d more =>
        rw [front] at spelled
        cases spelled
        exact ih (n / 10) (by omega) (by omega) front

-- The digits of a positive number, the first of them apart.
theorem exists_toDigits {n : Nat} (positive : 0 < n) :
    ∃ c digits, Nat.toDigits 10 n = c :: digits ∧ c.isDigit = true ∧ c ≠ '0' ∧ Digits digits ∧
      Nat.ofDigitChars 10 digits (digitValue c) = n := by
  have all := digits_toDigits n
  have whole := @Nat.ofDigitChars_ten_toDigits n
  cases spelled : Nat.toDigits 10 n with
  | nil => exact absurd spelled Nat.toDigits_ne_nil
  | cons c digits =>
    rw [spelled] at all whole
    obtain ⟨first, others⟩ := List.forall_mem_cons.mp all
    rw [Nat.ofDigitChars_cons, Nat.mul_zero, Nat.zero_add] at whole
    exact ⟨c, digits, rfl, first, toDigits_head positive spelled, others, whole⟩

theorem readNumber_toDigits {n : Nat} (fits : n ≤ greatestWord) (negative : Bool) {rest : List Char}
    (ends : EndsNumeral rest) :
    readNumber negative (Nat.toDigits 10 n ++ rest) = .ok (wholeNumber negative n, rest) := by
  have plain : readWhole negative n 0 rest = .ok (wholeNumber negative n, rest) := by
    rw [readWhole_of_ends ends, if_pos rfl]
  by_cases zero : n = 0
  · subst zero
    rw [Nat.toDigits_zero, List.cons_append, List.nil_append, ← plain]
    cases rest with
    | nil => rfl
    | cons c rest => simp [readNumber, (ends c rfl).1]
  · obtain ⟨c, digits, spelled, first, nonzero, others, value⟩ := exists_toDigits (Nat.pos_of_ne_zero zero)
    have taken := takeDigits_exact others (value.symm ▸ fits) ends.endsDigits
    have left : countDigits rest = (0, rest) := @countDigits_append [] rest digits_nil ends.endsDigits
    rw [spelled]
    simp only [List.cons_append, readNumber, nonzero, first, taken, left, value, if_true, if_false]
    exact plain

end Treeline.Document
