import Treeline.Document.Reader.Value
import Treeline.Proofs.Numeral

namespace Treeline.Document

-- Words, strings and numbers that have been read are read again in the same way in front of any other text. Only numbers
-- look at what follows them.

-- Where `text` may be put behind what is left: a number must not go on in it.
def Joins (rest text : List Char) : Prop := rest = [] → EndsNumeral text

def Extends {α : Type} (reader : Reader α) : Prop :=
  ∀ {source rest : List Char} {a : α} (text : List Char), reader source = .ok (a, rest) → Joins rest text →
    reader (source ++ text) = .ok (a, rest ++ text)

theorem readWord_append {word source rest : List Char} (read : readWord word source = .ok rest) (text : List Char) :
    readWord word (source ++ text) = .ok (rest ++ text) := by
  induction word generalizing source with
  | nil =>
    cases read
    rfl
  | cons expected word ih =>
    cases source with
    | nil => cases read
    | cons c source =>
      rw [List.cons_append]
      rw [readWord] at read ⊢
      split at read
      · next same =>
        rw [if_pos same]
        exact ih read
      · cases read

-- Strings.

theorem hexUnit?_append {source : List Char} {unit : Nat} (read : hexUnit? source = some unit) (text : List Char) :
    hexUnit? (source ++ text) = some unit ∧ 4 ≤ source.length := by
  match source, read with
  | a :: b :: c :: d :: rest, read => exact ⟨read, by simp⟩

theorem readUnit_append {source : List Char} {unit : Nat} (read : readUnit source = .ok unit) (text : List Char) :
    readUnit (source ++ text) = .ok unit ∧ 4 ≤ source.length := by
  rw [readUnit] at read ⊢
  cases found : hexUnit? source with
  | none =>
    simp only [found] at read
    split at read <;> cases read
  | some read' =>
    obtain ⟨same, long⟩ := hexUnit?_append found text
    rw [found] at read
    rw [same]
    exact ⟨read, long⟩

theorem readTrailing_append {leading : Nat} {source : List Char} {joined : Char}
    (read : readTrailing leading source = .ok joined) (text : List Char) :
    readTrailing leading (source ++ text) = .ok joined := by
  rw [readTrailing.eq_def] at read
  split at read
  · cases read
  · cases read
  · next rest =>
    obtain ⟨unit, found, last⟩ := eq_ok_of_bind read
    rw [List.cons_append, List.cons_append, readTrailing, (readUnit_append found text).1]
    split at last
    · next trailing =>
      rw [← last]
      change (if isTrailing unit then _ else _) = _
      rw [if_pos trailing]
    · cases last
  · cases read
  · cases read

theorem readEscape_append {source : List Char} {plain : Char} {used : Nat}
    (read : readEscape source = .ok (plain, used)) (text : List Char) :
    readEscape (source ++ text) = .ok (plain, used) := by
  cases source with
  | nil => cases read
  | cons c source =>
    rw [List.cons_append]
    rw [readEscape] at read ⊢
    cases short : shortEscape? c with
    | some plain =>
      simp only [short] at read ⊢
      exact read
    | none =>
      simp only [short] at read ⊢
      by_cases coded : c = 'u'
      · rw [if_pos coded] at read ⊢
        obtain ⟨unit, found, more⟩ := eq_ok_of_bind read
        obtain ⟨same, long⟩ := readUnit_append found text
        rw [same]
        change (if isTrailing unit then _ else if isLeading unit then _ else _) = _ at more
        change (if isTrailing unit then _ else if isLeading unit then _ else _) = _
        split at more
        · cases more
        · next trailing =>
          rw [if_neg trailing]
          split at more
          · next leading =>
            obtain ⟨joined, second, last⟩ := eq_ok_of_bind more
            rw [if_pos leading, List.drop_append_of_le_length long, readTrailing_append second text]
            exact last
          · next leading =>
            rw [if_neg leading]
            exact more
      · rw [if_neg coded] at read
        cases read

theorem readChars_append {source rest characters : List Char} {skip : Nat}
    (read : readChars source skip = .ok (characters, rest)) (text : List Char) :
    readChars (source ++ text) skip = .ok (characters, rest ++ text) := by
  induction source generalizing skip characters with
  | nil => cases read
  | cons c source ih =>
    rw [List.cons_append]
    cases skip with
    | succ skip =>
      rw [readChars] at read ⊢
      exact ih read
    | zero =>
      rw [readChars] at read ⊢
      by_cases quote : c = '"'
      · rw [if_pos quote] at read ⊢
        cases read
        rfl
      · rw [if_neg quote] at read ⊢
        by_cases backslash : c = '\\'
        · rw [if_pos backslash] at read ⊢
          obtain ⟨⟨plain, used⟩, escape, others⟩ := eq_ok_of_bind read
          obtain ⟨⟨more, behind⟩, found, last⟩ := eq_ok_of_bind others
          cases last
          rw [readEscape_append escape text]
          change (readChars (source ++ text) used >>= _) = _
          rw [ih found]
          rfl
        · rw [if_neg backslash] at read ⊢
          by_cases control : c.toNat < 0x20
          · rw [if_pos control] at read
            cases read
          · rw [if_neg control] at read ⊢
            obtain ⟨⟨more, behind⟩, found, last⟩ := eq_ok_of_bind read
            cases last
            rw [ih found]
            rfl

theorem readString_append {source rest : List Char} {value : String} (read : readString source = .ok (value, rest))
    (text : List Char) : readString (source ++ text) = .ok (value, rest ++ text) := by
  obtain ⟨⟨characters, behind⟩, found, last⟩ := eq_ok_of_bind read
  cases last
  rw [readString, readChars_append found text]
  rfl

-- Numbers.

theorem takeDigits_extend {source rest text : List Char} {significand total taken : Nat}
    (read : takeDigits significand source = (total, taken, rest)) (ends : rest = [] → EndsDigits text) :
    takeDigits significand (source ++ text) = (total, taken, rest ++ text) := by
  induction source generalizing significand taken with
  | nil =>
    cases read
    cases text with
    | nil => rfl
    | cons c text => simp [takeDigits, ends rfl c rfl]
  | cons c source ih =>
    rw [List.cons_append]
    rw [takeDigits] at read ⊢
    split at read
    · next fits =>
      rw [if_pos fits]
      cases found : takeDigits (significand * 10 + digitValue c) source with
      | mk more count =>
        obtain ⟨count, behind⟩ := count
        rw [found] at read
        cases read
        rw [ih found]
    · next fits =>
      rw [if_neg fits]
      cases read
      rfl

theorem countDigits_extend {source rest text : List Char} {count : Nat} (read : countDigits source = (count, rest))
    (ends : rest = [] → EndsDigits text) : countDigits (source ++ text) = (count, rest ++ text) := by
  induction source generalizing count with
  | nil =>
    cases read
    exact countDigits_append digits_nil (ends rfl)
  | cons c source ih =>
    cases digit : c.isDigit with
    | false =>
      simp only [countDigits, List.cons_append, List.takeWhile_cons, List.dropWhile_cons, digit] at read ⊢
      cases read
      rfl
    | true =>
      simp only [countDigits, List.cons_append, List.takeWhile_cons, List.dropWhile_cons, digit, if_true,
        List.length_cons, Prod.mk.injEq] at read ih ⊢
      obtain ⟨counted, left⟩ := read
      obtain ⟨same, behind⟩ := ih ⟨rfl, left⟩
      exact ⟨by rw [same, counted], behind⟩

theorem takeExponent_extend {source text : List Char} {value : Nat} :
    (∀ rest, takeExponent value source = .inl rest → takeExponent value (source ++ text) = .inl (rest ++ text)) ∧
    ∀ total rest, takeExponent value source = .inr (total, rest) → (rest = [] → EndsDigits text) →
      takeExponent value (source ++ text) = .inr (total, rest ++ text) := by
  induction source generalizing value with
  | nil =>
    constructor
    · rintro rest ⟨⟩
    · intro total rest read ends
      cases read
      cases text with
      | nil => rfl
      | cons c text => simp [takeExponent, ends rfl c rfl]
  | cons c source ih =>
    simp only [List.cons_append, takeExponent]
    by_cases digit : c.isDigit = true
    · simp only [digit, if_true]
      by_cases large : greatestExponent < value * 10 + digitValue c
      · simp only [large, if_true]
        constructor
        · rintro rest ⟨⟩
          rfl
        · rintro total rest ⟨⟩
      · simp only [large, if_false]
        exact ih
    · simp only [digit, Bool.false_eq_true, if_false]
      constructor
      · rintro rest ⟨⟩
      · rintro total rest ⟨⟩ _
        rfl

theorem dropWhile_extend {source text : List Char} (ends : source.dropWhile Char.isDigit = [] → EndsDigits text) :
    (source ++ text).dropWhile Char.isDigit = source.dropWhile Char.isDigit ++ text :=
  congrArg Prod.snd (countDigits_extend rfl ends)

theorem finishDouble_extends (negative : Bool) (significand : Nat) (exponent : Int) :
    Extends (finishDouble negative significand exponent) := by
  intro source rest a text read _
  rw [finishDouble] at read ⊢
  cases found : Binary64.ofDecimal? significand exponent with
  | none =>
    rw [found] at read
    cases read
  | some x =>
    rw [found] at read
    cases read
    rfl

theorem finishDouble_rest {negative : Bool} {significand : Nat} {exponent : Int} {source rest : List Char}
    {a : Document} (read : finishDouble negative significand exponent source = .ok (a, rest)) : rest = source := by
  rw [finishDouble] at read
  cases found : Binary64.ofDecimal? significand exponent <;> rw [found] at read <;> cases read
  rfl

theorem Joins.endsDigits {rest text : List Char} (joins : Joins rest text) : rest = [] → EndsDigits text :=
  fun none => (joins none).endsDigits

-- An exponent without its mark: the sign in front, and the digits behind it.

def takeSign : List Char → Bool × List Char
  | '+' :: digits => (false, digits)
  | '-' :: digits => (true, digits)
  | digits => (false, digits)

def readExponentDigits (negative down : Bool) (significand : Nat) (exponent : Int) : Reader Document
  | [] => flawHere .endOfValue []
  | c :: behind =>
    if c.isDigit then
      match takeExponent (digitValue c) behind with
      | .inr (value, behind) =>
        finishDouble negative significand (if down then exponent - value else exponent + value) behind
      | .inl behind =>
        if significand ≠ 0 ∧ !down then flawHere .numberOutOfRange behind
        else .ok (.double (signed negative (Binary64.ofNat 0)), behind.dropWhile Char.isDigit)
    else flawNext .invalidNumber (c :: behind)

theorem readExponent_eq (negative : Bool) (significand : Nat) (exponent : Int) (rest : List Char) :
    readExponent negative significand exponent rest =
      readExponentDigits negative (takeSign rest).1 significand exponent (takeSign rest).2 := by
  rw [readExponent.eq_def]
  split
  next down digits same =>
    have sign : takeSign rest = (down, digits) := same
    rw [sign]
    cases digits <;> rfl

theorem readExponentDigits_extends (negative down : Bool) (significand : Nat) (exponent : Int) :
    Extends (readExponentDigits negative down significand exponent) := by
  intro source rest a text read joins
  cases source with
  | nil => cases read
  | cons c source =>
    rw [List.cons_append]
    rw [readExponentDigits] at read ⊢
    split at read
    · next digit =>
      rw [if_pos digit]
      cases found : takeExponent (digitValue c) source with
      | inl behind =>
        rw [found] at read
        rw [takeExponent_extend.1 behind found]
        change (if _ then _ else _) = _ at read
        change (if _ then _ else _) = _
        split at read
        · cases read
        · next small =>
          cases read
          rw [if_neg small, dropWhile_extend joins.endsDigits]
      | inr finished =>
        obtain ⟨value, behind⟩ := finished
        rw [found] at read
        rw [takeExponent_extend.2 value behind found (finishDouble_rest read ▸ joins.endsDigits)]
        exact finishDouble_extends negative significand _ text read joins
    · cases read

theorem takeSign_append {source : List Char} (filled : source ≠ []) (text : List Char) :
    takeSign (source ++ text) = ((takeSign source).1, (takeSign source).2 ++ text) := by
  cases source with
  | nil => exact absurd rfl filled
  | cons c source =>
    rw [List.cons_append]
    by_cases plus : c = '+'
    · rw [plus]
      rfl
    · by_cases minus : c = '-'
      · rw [minus]
        rfl
      · simp [takeSign, plus, minus]

theorem readExponent_extends (negative : Bool) (significand : Nat) (exponent : Int) :
    Extends (readExponent negative significand exponent) := by
  intro source rest a text read joins
  cases source with
  | nil => cases read
  | cons c source =>
    rw [readExponent_eq] at read ⊢
    rw [takeSign_append (List.cons_ne_nil c source)]
    exact readExponentDigits_extends _ _ _ _ text read joins

theorem readScale_extends (negative : Bool) (significand : Nat) (exponent : Int) :
    Extends (readScale negative significand exponent) := by
  intro source rest a text read joins
  cases source with
  | nil =>
    have none := finishDouble_rest read
    rw [List.nil_append, readScale_of_ends (joins none)]
    exact finishDouble_extends _ _ _ text read joins
  | cons c source =>
    rw [List.cons_append]
    by_cases small : c = 'e'
    · rw [small] at read ⊢
      exact readExponent_extends _ _ _ text read joins
    · by_cases capital : c = 'E'
      · rw [capital] at read ⊢
        exact readExponent_extends _ _ _ text read joins
      · have other : ∀ more, readScale negative significand exponent (c :: more) =
            finishDouble negative significand exponent (c :: more) := by
          intro more
          simp [readScale, small, capital]
        rw [other] at read ⊢
        exact finishDouble_extends _ _ _ text read joins

-- A number that is read from nothing leaves nothing.
theorem readScale_joins {negative : Bool} {significand : Nat} {exponent : Int} {source rest text : List Char}
    {a : Document} (read : readScale negative significand exponent source = .ok (a, rest)) (joins : Joins rest text) :
    Joins source text := by
  rintro rfl
  exact joins (finishDouble_rest read)

theorem countDigits_joins {source rest text : List Char} {count : Nat} (read : countDigits source = (count, rest))
    (joins : Joins rest text) : Joins source text := by
  rintro rfl
  cases read
  exact joins rfl

theorem readFraction_extends (negative : Bool) (significand : Nat) (exponent : Int) :
    Extends (readFraction negative significand exponent) := by
  intro source rest a text read joins
  rw [readFraction.eq_def] at read ⊢
  cases first : takeDigits significand source with
  | mk total more =>
    obtain ⟨taken, behind⟩ := more
    cases second : countDigits behind with
    | mk dropped left =>
      simp only [first, second] at read
      split at read
      · cases source <;> cases read
      · next some =>
        have behindLeft := readScale_joins read joins
        have behindFirst := countDigits_joins second behindLeft
        simp only [takeDigits_extend first behindFirst.endsDigits, countDigits_extend second behindLeft.endsDigits]
        rw [if_neg some]
        exact readScale_extends _ _ _ text read joins

theorem readWhole_joins {negative : Bool} {significand dropped : Nat} {source rest text : List Char} {a : Document}
    (read : readWhole negative significand dropped source = .ok (a, rest)) (joins : Joins rest text) :
    Joins source text := by
  rintro rfl
  change (if dropped = 0 then _ else _) = _ at read
  split at read
  · cases read
    exact joins rfl
  · exact joins (finishDouble_rest read)

theorem readWhole_extends (negative : Bool) (significand dropped : Nat) :
    Extends (readWhole negative significand dropped) := by
  intro source rest a text read joins
  have plain : ∀ more, readWhole negative significand dropped more =
      (if dropped = 0 then .ok (wholeNumber negative significand, more)
        else finishDouble negative significand dropped more) →
      readWhole negative significand dropped (more ++ text) =
        (if dropped = 0 then .ok (wholeNumber negative significand, more ++ text)
          else finishDouble negative significand dropped (more ++ text)) →
      readWhole negative significand dropped more = .ok (a, rest) →
      readWhole negative significand dropped (more ++ text) = .ok (a, rest ++ text) := by
    intro more here behind read
    rw [here] at read
    rw [behind]
    split at read
    · next zero =>
      cases read
      rw [if_pos zero]
    · next zero =>
      rw [if_neg zero]
      exact finishDouble_extends _ _ _ text read joins
  cases source with
  | nil => exact plain [] rfl (readWhole_of_ends (readWhole_joins read joins rfl) _ _ _) read
  | cons c source =>
    by_cases point : c = '.'
    · rw [point] at read ⊢
      exact readFraction_extends _ _ _ text read joins
    · by_cases scaled : c = 'e' ∨ c = 'E'
      · have same : ∀ more, readWhole negative significand dropped (c :: more) =
            readScale negative significand dropped (c :: more) := by
          intro more
          rcases scaled with rfl | rfl <;> rfl
        rw [same] at read
        rw [List.cons_append, same]
        exact readScale_extends _ _ _ text read joins
      · have other : ∀ more, readWhole negative significand dropped (c :: more) =
            (if dropped = 0 then .ok (wholeNumber negative significand, c :: more)
              else finishDouble negative significand dropped (c :: more)) := by
          intro more
          obtain ⟨small, capital⟩ := not_or.mp scaled
          simp [readWhole, point, small, capital]
        exact plain (c :: source) (other source) (other (source ++ text)) read

theorem readNumber_zero {rest : List Char} (ends : EndsDigits rest) (negative : Bool) :
    readNumber negative ('0' :: rest) = readWhole negative 0 0 rest := by
  cases rest with
  | nil => rfl
  | cons d rest => simp [readNumber, ends d rfl]

theorem readNumber_digit {c : Char} (digit : c.isDigit = true) (nonzero : c ≠ '0') (negative : Bool)
    (rest : List Char) :
    readNumber negative (c :: rest) =
      readWhole negative (takeDigits (digitValue c) rest).1 (countDigits (takeDigits (digitValue c) rest).2.2).1
        (countDigits (takeDigits (digitValue c) rest).2.2).2 := by
  rw [readNumber.eq_def]
  dsimp only
  rw [if_neg nonzero, if_pos digit]

theorem readNumber_extends (negative : Bool) : Extends (readNumber negative) := by
  intro source rest a text read joins
  cases source with
  | nil => cases read
  | cons c source =>
    rw [List.cons_append]
    by_cases zero : c = '0'
    · rw [zero] at read ⊢
      cases source with
      | nil =>
        change readWhole negative 0 0 [] = _ at read
        have ends := (readWhole_joins read joins rfl).endsDigits
        rw [List.nil_append, readNumber_zero ends]
        exact readWhole_extends _ _ _ text read joins
      | cons d source =>
        cases digit : d.isDigit with
        | true =>
          simp only [readNumber, digit, if_true] at read
          cases read
        | false =>
          have ends : ∀ more, EndsDigits (d :: more) := by
            rintro more c ⟨⟩
            exact digit
          rw [readNumber_zero (ends _)] at read
          rw [List.cons_append, readNumber_zero (ends _)]
          exact readWhole_extends _ _ _ text read joins
    · by_cases digit : c.isDigit = true
      · rw [readNumber_digit digit zero] at read ⊢
        cases first : takeDigits (digitValue c) source with
        | mk total more =>
          obtain ⟨taken, behind⟩ := more
          cases second : countDigits behind with
          | mk dropped left =>
            simp only [first, second] at read
            have behindLeft := readWhole_joins read joins
            have behindFirst := countDigits_joins second behindLeft
            simp only [takeDigits_extend first behindFirst.endsDigits, countDigits_extend second behindLeft.endsDigits]
            exact readWhole_extends _ _ _ text read joins
      · simp only [readNumber, zero, digit, Bool.false_eq_true, if_false] at read
        cases read

end Treeline.Document
