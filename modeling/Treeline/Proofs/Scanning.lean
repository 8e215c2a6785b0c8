import Treeline.Proofs.Brackets
import Treeline.Proofs.Whole

namespace Treeline

open Document

-- Readers go over a text as the scan of its brackets does: what they take of it opens and closes as many.

-- From one place of a text to a later one, without a quote and without a bracket.
def Skips (source rest : List Char) : Prop := ∃ eaten, source = eaten ++ rest ∧ ∀ c ∈ eaten, Brackets.isPlain c = true

namespace Skips

variable {source behind rest : List Char}

theorem refl (source : List Char) : Skips source source := ⟨[], rfl, List.forall_mem_nil _⟩

theorem cons {c : Char} (plain : Brackets.isPlain c = true) (skips : Skips source rest) : Skips (c :: source) rest := by
  obtain ⟨eaten, rfl, all⟩ := skips
  exact ⟨c :: eaten, rfl, List.forall_mem_cons.mpr ⟨plain, all⟩⟩

theorem trans (first : Skips source behind) (second : Skips behind rest) : Skips source rest := by
  obtain ⟨eaten, rfl, all⟩ := first
  obtain ⟨more, rfl, others⟩ := second
  exact ⟨eaten ++ more, (List.append_assoc ..).symm, List.forall_mem_append.mpr ⟨all, others⟩⟩

theorem length_le (skips : Skips source rest) : rest.length ≤ source.length := by
  obtain ⟨eaten, rfl, -⟩ := skips
  rw [List.length_append]
  exact Nat.le_add_left ..

theorem dropWhile {p : Char → Bool} (plain : ∀ c, p c = true → Brackets.isPlain c = true) (source : List Char) :
    Skips source (source.dropWhile p) := by
  refine ⟨source.takeWhile p, (List.takeWhile_append_dropWhile).symm, ?_⟩
  intro c taken
  exact plain c (List.all_eq_true.mp List.all_takeWhile c taken)

end Skips

-- Blanks, words and numbers.

theorem isPlain_blank (c : Char) (blank : isBlank c = true) : Brackets.isPlain c = true := by
  simp only [isBlank, Bool.or_eq_true, beq_iff_eq] at blank
  rcases blank with ((rfl | rfl) | rfl) | rfl <;> rfl

theorem skips_blanks (source : List Char) : Skips source (skipBlanks source) := .dropWhile isPlain_blank source

theorem skips_digits (source : List Char) : Skips source (source.dropWhile Char.isDigit) :=
  .dropWhile (fun _ => Brackets.isPlain_digit) source

theorem readWord_skips {word source rest : List Char} (plain : ∀ c ∈ word, Brackets.isPlain c = true)
    (read : readWord word source = .ok rest) : Skips source rest := by
  induction word generalizing source with
  | nil =>
    cases read
    exact .refl rest
  | cons expected word ih =>
    obtain ⟨first, others⟩ := List.forall_mem_cons.mp plain
    cases source with
    | nil => cases read
    | cons c source =>
      rw [readWord] at read
      split at read
      · next same => exact .cons (same ▸ first) (ih others read)
      · cases read

theorem takeDigits_skips (significand : Nat) (source : List Char) :
    Skips source (takeDigits significand source).2.2 := by
  induction source generalizing significand with
  | nil => exact .refl []
  | cons c source ih =>
    unfold takeDigits
    dsimp only
    split
    · next digit =>
      rw [Bool.and_eq_true] at digit
      exact .cons (Brackets.isPlain_digit digit.1) (ih _)
    · exact .refl _

theorem takeExponent_skips {value : Nat} {source : List Char} :
    (∀ rest, takeExponent value source = .inl rest → Skips source rest) ∧
    ∀ total rest, takeExponent value source = .inr (total, rest) → Skips source rest := by
  induction source generalizing value with
  | nil =>
    constructor
    · rintro rest ⟨⟩
    · rintro total rest ⟨⟩
      exact .refl []
  | cons c source ih =>
    unfold takeExponent
    dsimp only
    split
    · next digit =>
      have plain := Brackets.isPlain_digit digit
      split
      · constructor
        · rintro rest ⟨⟩
          exact .cons plain (.refl _)
        · rintro total rest ⟨⟩
      · exact ⟨fun rest found => .cons plain (ih.1 rest found),
          fun total rest found => .cons plain (ih.2 total rest found)⟩
    · constructor
      · rintro rest ⟨⟩
      · rintro total rest ⟨⟩
        exact .refl _

section Numbers

variable {negative : Bool} {significand dropped : Nat} {exponent : Int} {source rest : List Char} {d : Document}

theorem finishDouble_skips (read : finishDouble negative significand exponent source = .ok (d, rest)) :
    Skips source rest := by
  rw [finishDouble_rest read]
  exact .refl source

theorem readExponent_skips (read : readExponent negative significand exponent source = .ok (d, rest)) :
    Skips source rest := by
  have sign : Skips source (takeSign source).2 := by
    unfold takeSign
    split
    · exact .cons rfl (.refl _)
    · exact .cons rfl (.refl _)
    · exact .refl _
  rw [readExponent_eq] at read
  apply sign.trans
  rw [readExponentDigits.eq_def] at read
  split at read
  · cases read
  · next c behind digits =>
    rw [digits]
    split at read
    · next digit =>
      apply Skips.cons (Brackets.isPlain_digit digit)
      split at read
      · next found => exact (takeExponent_skips.2 _ _ found).trans (finishDouble_skips read)
      · next found =>
        split at read
        · cases read
        · cases read
          exact (takeExponent_skips.1 _ found).trans (skips_digits _)
    · cases read

theorem readScale_skips (read : readScale negative significand exponent source = .ok (d, rest)) :
    Skips source rest := by
  rw [readScale.eq_def] at read
  split at read
  · exact .cons rfl (readExponent_skips read)
  · exact .cons rfl (readExponent_skips read)
  · exact finishDouble_skips read

theorem readFraction_skips (read : readFraction negative significand exponent source = .ok (d, rest)) :
    Skips source rest := by
  rw [readFraction.eq_def] at read
  dsimp only at read
  split at read
  · split at read <;> cases read
  · exact ((takeDigits_skips _ _).trans (skips_digits _)).trans (readScale_skips read)

theorem readWhole_skips (read : readWhole negative significand dropped source = .ok (d, rest)) : Skips source rest := by
  rw [readWhole.eq_def] at read
  split at read
  · exact .cons rfl (readFraction_skips read)
  · split at read
    · exact readScale_skips read
    · exact readScale_skips read
    · split at read
      · cases read
        exact .refl _
      · exact finishDouble_skips read

theorem readNumber_skips (read : readNumber negative source = .ok (d, rest)) : Skips source rest := by
  rw [readNumber.eq_def] at read
  split at read
  · cases read
  · next c behind =>
    split at read
    · next zero =>
      have plain : Brackets.isPlain c = true := by
        rw [zero]
        rfl
      split at read
      · split at read
        · cases read
        · exact .cons plain (readWhole_skips read)
      · exact .cons plain (readWhole_skips read)
    · split at read
      · next digit =>
        apply Skips.cons (Brackets.isPlain_digit digit)
        exact ((takeDigits_skips _ _).trans (skips_digits _)).trans (readWhole_skips read)
      · cases read

end Numbers

-- What stands between the members of a bracket.

section Members

variable {first : Bool} {source rest : List Char} {member : Member}

-- The text at the end of a list or at an item.
def Document.Member.item : Member → List Char
  | .finished rest => ']' :: rest
  | .start rest => rest

-- The text at the end of an object or at a key.
def Document.Member.key : Member → List Char
  | .finished rest => '\x7d' :: rest
  | .start rest => '"' :: rest

theorem nextItem_skips (next : nextItem first source = .ok member) : Skips source member.item := by
  have blanks := skips_blanks source
  rw [nextItem.eq_def] at next
  split at next
  · cases next
  · next behind found =>
    cases next
    rwa [found] at blanks
  · next c behind other found =>
    rw [found] at blanks
    apply blanks.trans
    split at next
    · cases next
      exact .refl _
    split at next
    · next comma =>
      rw [comma]
      apply Skips.cons rfl
      split at next
      · cases next
      · cases next
      · cases next
        exact skips_blanks behind
    · cases next

theorem nextKey_skips (next : nextKey first source = .ok member) : Skips source member.key := by
  have blanks := skips_blanks source
  rw [nextKey.eq_def] at next
  split at next
  · cases next
  · next behind found =>
    cases next
    rwa [found] at blanks
  · next c behind other found =>
    rw [found] at blanks
    apply blanks.trans
    split at next
    · split at next
      · next quote =>
        cases next
        rw [quote]
        exact .refl _
      · cases next
    split at next
    · next comma =>
      rw [comma]
      apply Skips.cons rfl
      have further := skips_blanks behind
      split at next
      · cases next
      · next key start =>
        cases next
        rwa [start] at further
      · cases next
      · cases next
    · cases next

theorem readColon_skips (read : readColon source = .ok rest) : Skips source rest := by
  rw [readColon.eq_def] at read
  have blanks := skips_blanks source
  split at read
  · cases read
  · next found =>
    cases read
    rw [found] at blanks
    exact blanks.trans (.cons rfl (.refl _))
  · cases read

end Members

namespace Brackets

-- From one place of a text to a later one the scan goes from one state to another.
def Reaches (b : Brackets) (source : List Char) (b' : Brackets) (rest : List Char) : Prop :=
  ∃ eaten, source = eaten ++ rest ∧ b.scan eaten = b'

namespace Reaches

variable {a b c : Brackets} {source behind rest : List Char}

theorem refl (b : Brackets) (source : List Char) : b.Reaches source b source := ⟨[], rfl, rfl⟩

theorem cons {letter : Char} (reaches : (b.step letter).Reaches source c rest) :
    b.Reaches (letter :: source) c rest := by
  obtain ⟨eaten, rfl, scanned⟩ := reaches
  exact ⟨letter :: eaten, rfl, scanned⟩

theorem trans (first : a.Reaches source b behind) (second : b.Reaches behind c rest) : a.Reaches source c rest := by
  obtain ⟨eaten, rfl, scanned⟩ := first
  obtain ⟨more, rfl, further⟩ := second
  refine ⟨eaten ++ more, (List.append_assoc ..).symm, ?_⟩
  rw [scan_append, scanned, further]

theorem length_le (reaches : a.Reaches source b rest) : rest.length ≤ source.length := by
  obtain ⟨eaten, rfl, -⟩ := reaches
  rw [List.length_append]
  exact Nat.le_add_left ..

end Reaches

variable {depth deepest : Nat} {source rest : List Char}

theorem reaches_of_skips (skips : Skips source rest) :
    Reaches ⟨.between, depth, deepest⟩ source ⟨.between, depth, deepest⟩ rest := by
  obtain ⟨eaten, rfl, plain⟩ := skips
  exact ⟨eaten, rfl, scan_plain plain⟩

-- Strings: their escapes neither close the string nor hold another backslash than their own.

theorem hexValue?_plain {c : Char} {value : Nat} (found : hexValue? c = some value) : c ≠ '\\' ∧ c ≠ '"' := by
  constructor
  · rintro rfl
    cases found
  · rintro rfl
    cases found

theorem reaches_unit {unit : Nat} (found : hexUnit? source = some unit) :
    Reaches ⟨.quoted, depth, deepest⟩ source ⟨.quoted, depth, deepest⟩ (source.drop 4) := by
  rw [hexUnit?.eq_def] at found
  split at found
  · next a b c d rest =>
    obtain ⟨_, first, found⟩ := Option.bind_eq_some_iff.mp found
    obtain ⟨_, second, found⟩ := Option.bind_eq_some_iff.mp found
    obtain ⟨_, third, found⟩ := Option.bind_eq_some_iff.mp found
    obtain ⟨_, fourth, found⟩ := Option.bind_eq_some_iff.mp found
    refine ⟨[a, b, c, d], rfl, ?_⟩
    have stays : ∀ {c value} text, hexValue? c = some value →
        scan ⟨.quoted, depth, deepest⟩ (c :: text) = scan ⟨.quoted, depth, deepest⟩ text := by
      intro c value text hex
      rw [scan_cons, step_quoted (hexValue?_plain hex).1 (hexValue?_plain hex).2]
    rw [stays _ first, stays _ second, stays _ third, stays _ fourth]
    rfl
  · cases found

theorem hexUnit?_of_readUnit {unit : Nat} (read : readUnit source = .ok unit) : hexUnit? source = some unit := by
  unfold readUnit at read
  split at read
  · next found =>
    cases read
    exact found
  · dsimp only at read
    split at read <;> cases read

theorem reaches_trailing {leading : Nat} {joined : Char} (read : readTrailing leading source = .ok joined) :
    Reaches ⟨.quoted, depth, deepest⟩ source ⟨.quoted, depth, deepest⟩ (source.drop 6) := by
  rw [readTrailing.eq_def] at read
  split at read
  · cases read
  · cases read
  · obtain ⟨unit, hex, -⟩ := eq_ok_of_bind read
    exact .cons (.cons (reaches_unit (hexUnit?_of_readUnit hex)))
  · cases read
  · cases read

theorem reaches_escape {plain : Char} {used : Nat} (read : readEscape source = .ok (plain, used)) :
    Reaches ⟨.escaped, depth, deepest⟩ source ⟨.quoted, depth, deepest⟩ (source.drop used) := by
  rw [readEscape.eq_def] at read
  split at read
  · cases read
  · next c behind =>
    split at read
    · cases read
      exact .cons (.refl _ behind)
    · split at read
      · obtain ⟨unit, hex, more⟩ := eq_ok_of_bind read
        have leading : Reaches ⟨.quoted, depth, deepest⟩ behind ⟨.quoted, depth, deepest⟩ (behind.drop 4) :=
          reaches_unit (hexUnit?_of_readUnit hex)
        apply Reaches.cons
        split at more
        · cases more
        split at more
        · obtain ⟨joined, trailing, last⟩ := eq_ok_of_bind more
          cases last
          have second := leading.trans (reaches_trailing trailing)
          rwa [List.drop_drop] at second
        · cases more
          exact leading
      · cases read

theorem reaches_chars {skip : Nat} {characters : List Char} (read : readChars source skip = .ok (characters, rest)) :
    Reaches ⟨.quoted, depth, deepest⟩ (source.drop skip) ⟨.between, depth, deepest⟩ rest := by
  induction source generalizing skip characters with
  | nil => cases skip <;> cases read
  | cons c source ih =>
    cases skip with
    | succ skip => exact ih read
    | zero =>
      rw [readChars] at read
      split at read
      · next quote =>
        cases read
        rw [quote]
        exact .cons (.refl _ _)
      split at read
      · next backslash =>
        obtain ⟨⟨plain, used⟩, escape, more⟩ := eq_ok_of_bind read
        obtain ⟨⟨others, behind⟩, later, last⟩ := eq_ok_of_bind more
        cases last
        rw [backslash]
        exact .cons ((reaches_escape escape).trans (ih later))
      split at read
      · cases read
      · next quote backslash _ =>
        obtain ⟨⟨others, behind⟩, later, last⟩ := eq_ok_of_bind read
        cases last
        apply Reaches.cons
        rw [step_quoted backslash quote]
        exact ih later

theorem reaches_string {value : String} (read : readString source = .ok (value, rest)) :
    Reaches ⟨.quoted, depth, deepest⟩ source ⟨.between, depth, deepest⟩ rest := by
  obtain ⟨⟨characters, behind⟩, spelled, last⟩ := eq_ok_of_bind read
  cases last
  exact reaches_chars spelled

-- A value leaves the scan at the depth where it began, and has gone down by its nesting.
def Covers (item : Reader Document) : Prop :=
  ∀ {source rest : List Char} {d : Document}, item source = .ok (d, rest) → ∀ {depth deepest : Nat}, depth ≤ deepest →
    Reaches ⟨.between, depth, deepest⟩ source ⟨.between, depth, max deepest (depth + d.nesting)⟩ rest

theorem reaches_items {item : Reader Document} (covers : Covers item) {fuel : Nat} {first : Bool}
    {items : List Document} (read : readItems item fuel first source = .ok (items, rest))
    (within : depth + 1 ≤ deepest) :
    Reaches ⟨.between, depth + 1, deepest⟩ source
      ⟨.between, depth, max deepest (depth + 1 + itemsNesting items)⟩ rest := by
  induction fuel generalizing first source items deepest with
  | zero => cases read
  | succ fuel ih =>
    rcases readItems_cases read with ⟨next, rfl⟩ | ⟨start, d, behind, ds, next, here, there, rfl⟩
    · apply (reaches_of_skips (nextItem_skips next)).trans
      rw [itemsNesting, Nat.add_zero, Nat.max_eq_left within]
      exact .cons (.refl _ rest)
    · have deeper : depth + 1 ≤ max deepest (depth + 1 + d.nesting) := Nat.le_trans within (Nat.le_max_left ..)
      apply (reaches_of_skips (nextItem_skips next)).trans
      apply (covers here within).trans
      rw [itemsNesting, ← Nat.add_max_add_left, ← Nat.max_assoc]
      exact ih there deeper

theorem reaches_entries {item : Reader Document} (covers : Covers item) {fuel : Nat} {first : Bool}
    {entries : List (String × Document)} (read : readEntries item fuel first source = .ok (entries, rest))
    (within : depth + 1 ≤ deepest) :
    Reaches ⟨.between, depth + 1, deepest⟩ source
      ⟨.between, depth, max deepest (depth + 1 + entriesNesting entries)⟩ rest := by
  induction fuel generalizing first source entries deepest with
  | zero => cases read
  | succ fuel ih =>
    rcases readEntries_cases read with ⟨next, rfl⟩ |
      ⟨start, key, colon, value, d, behind, es, next, spelled, found, here, there, rfl⟩
    · apply (reaches_of_skips (nextKey_skips next)).trans
      rw [entriesNesting, Nat.add_zero, Nat.max_eq_left within]
      exact .cons (.refl _ rest)
    · have deeper : depth + 1 ≤ max deepest (depth + 1 + d.nesting) := Nat.le_trans within (Nat.le_max_left ..)
      apply (reaches_of_skips (nextKey_skips next)).trans
      apply Reaches.cons
      apply (reaches_string spelled).trans
      apply (reaches_of_skips (readColon_skips found)).trans
      apply (covers here within).trans
      rw [entriesNesting, ← Nat.add_max_add_left, ← Nat.max_assoc]
      exact ih there deeper

-- What holds no bracket covers nothing.
theorem reaches_flat {d : Document} (flat : d.nesting = 0) (within : depth ≤ deepest)
    (reaches : Reaches ⟨.between, depth, deepest⟩ source ⟨.between, depth, deepest⟩ rest) :
    Reaches ⟨.between, depth, deepest⟩ source ⟨.between, depth, max deepest (depth + d.nesting)⟩ rest := by
  rwa [flat, Nat.add_zero, Nat.max_eq_left within]

theorem nesting_of_opening {d : Document} (none : d.opening = none) : d.nesting = 0 := by
  cases d with
  | array items => cases none
  | object entries => cases none
  | _ => rfl

theorem max_entered (inner : Nat) :
    max (max deepest (depth + 1)) (depth + 1 + inner) = max deepest (depth + (1 + inner)) := by
  omega

theorem readValue_covers (fuel levels : Nat) : Covers (readValue fuel levels) := by
  induction levels using Nat.strongRecOn with
  | ind levels ih =>
    intro source rest d read depth deepest within
    have blanks := skips_blanks source
    rw [readValue.eq_def] at read
    split at read
    · cases read
    · next c behind found =>
      rw [found] at blanks
      apply (reaches_of_skips blanks).trans
      have word : ∀ {value : Document} {letters : List Char}, value.nesting = 0 →
          (∀ letter ∈ c :: letters, isPlain letter = true) →
          (do
            let left ← readWord letters behind
            return (value, left)) = .ok (d, rest) →
          Reaches ⟨.between, depth, deepest⟩ (c :: behind) ⟨.between, depth, max deepest (depth + d.nesting)⟩ rest := by
        intro value letters flat plain spelled
        obtain ⟨left, others, last⟩ := eq_ok_of_bind spelled
        cases last
        obtain ⟨first, letters⟩ := List.forall_mem_cons.mp plain
        exact reaches_flat flat within (reaches_of_skips (.cons first (readWord_skips letters others)))
      split at read
      · next letter => exact word rfl (letter ▸ List.all_eq_true.mp rfl) read
      split at read
      · next letter => exact word rfl (letter ▸ List.all_eq_true.mp rfl) read
      split at read
      · next letter => exact word rfl (letter ▸ List.all_eq_true.mp rfl) read
      split at read
      · next quote =>
        obtain ⟨⟨value, left⟩, spelled, last⟩ := eq_ok_of_bind read
        cases last
        rw [quote]
        exact reaches_flat rfl within (.cons (reaches_string spelled))
      split at read
      · next minus =>
        have flat := nesting_of_opening (readNumber_opening read)
        exact reaches_flat flat within (reaches_of_skips (.cons (minus ▸ rfl) (readNumber_skips read)))
      split at read
      · next digit =>
        have flat := nesting_of_opening (readNumber_opening read)
        exact reaches_flat flat within (reaches_of_skips (readNumber_skips read))
      split at read
      · next bracket =>
        split at read
        · cases read
        · next levels =>
          obtain ⟨⟨items, left⟩, inside, last⟩ := eq_ok_of_bind read
          cases last
          have covers : Covers (readValue fuel levels) := ih levels (Nat.lt_succ_self levels)
          have entered := reaches_items covers inside (Nat.le_max_right deepest (depth + 1))
          rw [max_entered] at entered
          rw [bracket]
          exact .cons entered
      split at read
      · next brace =>
        split at read
        · cases read
        · next levels =>
          obtain ⟨⟨entries, left⟩, inside, last⟩ := eq_ok_of_bind read
          cases last
          have covers : Covers (readValue fuel levels) := ih levels (Nat.lt_succ_self levels)
          have entered := reaches_entries covers inside (Nat.le_max_right deepest (depth + 1))
          rw [max_entered] at entered
          rw [brace]
          exact .cons entered
      · cases read

end Brackets

end Treeline
