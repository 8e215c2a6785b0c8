import Treeline.Proofs.Induction
import Treeline.Proofs.Numeral

namespace Treeline

open Document

-- How deep the brackets of a text stand inside each other, as its characters tell, those in strings aside.

-- Where a character stands.
inductive Standing
  | between
  | quoted
  | escaped
deriving DecidableEq, Repr

structure Brackets where
  standing : Standing
  depth : Nat
  deepest : Nat
deriving DecidableEq, Repr

namespace Brackets

def start : Brackets := ⟨.between, 0, 0⟩

def step (b : Brackets) (c : Char) : Brackets :=
  match b.standing with
  | .escaped => { b with standing := .quoted }
  | .quoted =>
    if c = '\\' then { b with standing := .escaped }
    else if c = '"' then { b with standing := .between }
    else b
  | .between =>
    if c = '"' then { b with standing := .quoted }
    else if c = '[' ∨ c = '\x7b' then ⟨.between, b.depth + 1, max b.deepest (b.depth + 1)⟩
    else if c = ']' ∨ c = '\x7d' then ⟨.between, b.depth - 1, b.deepest⟩
    else b

def scan (b : Brackets) (text : List Char) : Brackets := text.foldl step b

theorem scan_nil (b : Brackets) : b.scan [] = b := rfl

theorem scan_cons (b : Brackets) (c : Char) (text : List Char) : b.scan (c :: text) = (b.step c).scan text := rfl

theorem scan_append (b : Brackets) (first second : List Char) : b.scan (first ++ second) = (b.scan first).scan second :=
  List.foldl_append

-- Characters that neither quote nor bracket.
def isPlain (c : Char) : Bool := !(['"', '[', '\x7b', ']', '\x7d'].contains c)

variable {depth deepest : Nat}

theorem step_plain {c : Char} (plain : isPlain c = true) :
    step ⟨.between, depth, deepest⟩ c = ⟨.between, depth, deepest⟩ := by
  simp only [isPlain, Bool.not_eq_true', List.contains_eq_mem, decide_eq_false_iff_not, List.mem_cons,
    List.not_mem_nil, or_false, not_or] at plain
  obtain ⟨quote, bracket, brace, closing, closed⟩ := plain
  simp [step, quote, bracket, brace, closing, closed]

theorem scan_plain {text : List Char} (plain : ∀ c ∈ text, isPlain c = true) :
    scan ⟨.between, depth, deepest⟩ text = ⟨.between, depth, deepest⟩ := by
  induction text with
  | nil => rfl
  | cons c text ih =>
    obtain ⟨first, others⟩ := List.forall_mem_cons.mp plain
    rw [scan_cons, step_plain first, ih others]

theorem step_quoted {c : Char} (backslash : c ≠ '\\') (quote : c ≠ '"') :
    step ⟨.quoted, depth, deepest⟩ c = ⟨.quoted, depth, deepest⟩ := by
  simp [step, backslash, quote]

theorem hexDigit_plain : ∀ k < 16, hexDigit k ≠ '\\' ∧ hexDigit k ≠ '"' := by
  decide

theorem scan_escaped (c : Char) :
    scan ⟨.quoted, depth, deepest⟩ (Document.escaped c) = ⟨.quoted, depth, deepest⟩ := by
  have short : ∀ letter, scan ⟨.quoted, depth, deepest⟩ ['\\', letter] = ⟨.quoted, depth, deepest⟩ := fun _ => rfl
  unfold Document.escaped
  split
  · exact short '"'
  split
  · exact short '\\'
  split
  · exact short 'b'
  split
  · exact short 'f'
  split
  · exact short 'n'
  split
  · exact short 'r'
  split
  · exact short 't'
  split
  · next control =>
    have high := hexDigit_plain (c.toNat / 16) (by omega)
    have low := hexDigit_plain (c.toNat % 16) (by omega)
    have letter : ∀ rest, scan ⟨.quoted, depth, deepest⟩ ('\\' :: 'u' :: '0' :: '0' :: rest) =
        scan ⟨.quoted, depth, deepest⟩ rest := fun _ => rfl
    rw [letter, scan_cons, step_quoted high.1 high.2, scan_cons, step_quoted low.1 low.2, scan_nil]
  · next quote backslash _ _ _ _ _ _ => rw [scan_cons, step_quoted backslash quote, scan_nil]

theorem scan_stringChars (text : String) :
    scan ⟨.between, depth, deepest⟩ (stringChars text) = ⟨.between, depth, deepest⟩ := by
  have inner : ∀ chars : List Char,
      scan ⟨.quoted, depth, deepest⟩ (chars.flatMap Document.escaped) = ⟨.quoted, depth, deepest⟩ := by
    intro chars
    induction chars with
    | nil => rfl
    | cons c chars ih => rw [List.flatMap_cons, scan_append, scan_escaped, ih]
  have opened : step ⟨.between, depth, deepest⟩ '"' = ⟨.quoted, depth, deepest⟩ := rfl
  rw [stringChars, scan_cons, opened, scan_append, inner]
  rfl

-- Numerals and words hold no bracket.

theorem isPlain_digit {c : Char} (digit : c.isDigit = true) : isPlain c = true := by
  have other := digit_ne digit
  simp [isPlain, other '"' rfl, other '[' rfl, other '\x7b' rfl, other ']' rfl, other '\x7d' rfl]

theorem plain_scale {piece : List Char} (scale : Scale piece) : ∀ c ∈ piece, isPlain c = true := by
  cases scale with
  | none => exact List.forall_mem_nil _
  | exponent sign all =>
    refine List.forall_mem_cons.mpr ⟨rfl, List.forall_mem_cons.mpr ⟨?_, fun c member => isPlain_digit (all c member)⟩⟩
    rcases sign with rfl | rfl
    · rfl
    · rfl

theorem plain_numeral {piece : List Char} (numeral : Numeral piece) : ∀ c ∈ piece, isPlain c = true := by
  obtain ⟨all, ends⟩ := numeral
  refine List.forall_mem_append.mpr ⟨fun c member => isPlain_digit (all c member), ?_⟩
  cases ends with
  | scale scale => exact plain_scale scale
  | fraction behind scale =>
    refine List.forall_mem_cons.mpr ⟨rfl, List.forall_mem_append.mpr ⟨?_, plain_scale scale⟩⟩
    exact fun c member => isPlain_digit (behind c member)

theorem plain_integerChars (value : Int) : ∀ c ∈ integerChars value, isPlain c = true := by
  have digits : ∀ n, ∀ c ∈ Nat.toDigits 10 n, isPlain c = true :=
    fun n => plain_numeral (.ofDigits (digits_toDigits n))
  cases value with
  | ofNat n => exact digits n
  | negSucc n => exact List.forall_mem_cons.mpr ⟨rfl, digits (n + 1)⟩

theorem plain_write (x : Binary64) : ∀ c ∈ NumeralStyle.document.write x, isPlain c = true := by
  have unsigned : ∀ c ∈ NumeralStyle.document.unsigned x, isPlain c = true := by
    rcases unsigned_cases x with nan | infinite | numeral
    · rw [nan]
      exact List.all_eq_true.mp rfl
    · rw [infinite]
      exact List.all_eq_true.mp rfl
    · exact plain_numeral numeral
  unfold NumeralStyle.write
  split
  · exact List.forall_mem_cons.mpr ⟨rfl, unsigned⟩
  · exact unsigned

-- A document leaves the scan at the depth where it began, and has gone down by its nesting.
def Spans (d : Document) : Prop :=
  ∀ depth deepest, depth ≤ deepest →
    scan ⟨.between, depth, deepest⟩ d.chars = ⟨.between, depth, max deepest (depth + d.nesting)⟩

theorem Spans.flat {d : Document} (plain : ∀ c ∈ d.chars, isPlain c = true) (flat : d.nesting = 0) : Spans d := by
  intro depth deepest within
  rw [scan_plain plain, flat, Nat.add_zero, Nat.max_eq_left within]

theorem scan_comma (text : List Char) :
    scan ⟨.between, depth, deepest⟩ (',' :: text) = scan ⟨.between, depth, deepest⟩ text := by
  rw [scan_cons, step_plain rfl]

theorem scan_itemsChars {items : List Document} (known : ∀ item ∈ items, Spans item) (within : depth + 1 ≤ deepest) :
    scan ⟨.between, depth + 1, deepest⟩ (itemsChars items) =
      ⟨.between, depth, max deepest (depth + 1 + itemsNesting items)⟩ := by
  induction items generalizing deepest with
  | nil =>
    rw [itemsNesting, Nat.add_zero, Nat.max_eq_left within]
    rfl
  | cons item items ih =>
    obtain ⟨first, others⟩ := List.forall_mem_cons.mp known
    rw [itemsChars_cons, scan_comma, scan_append, first _ _ within, ih others (by omega), itemsNesting]
    congr 1
    omega

theorem scan_entry {value : Document} (known : Spans value) (within : depth ≤ deepest) (key : String)
    (rest : List Char) :
    scan ⟨.between, depth, deepest⟩ (stringChars key ++ ':' :: (value.chars ++ rest)) =
      scan ⟨.between, depth, max deepest (depth + value.nesting)⟩ rest := by
  rw [scan_append, scan_stringChars, scan_cons, step_plain rfl, scan_append, known _ _ within]

theorem scan_entriesChars {entries : List (String × Document)} (known : ∀ entry ∈ entries, Spans entry.2)
    (within : depth + 1 ≤ deepest) :
    scan ⟨.between, depth + 1, deepest⟩ (entriesChars entries) =
      ⟨.between, depth, max deepest (depth + 1 + entriesNesting entries)⟩ := by
  induction entries generalizing deepest with
  | nil =>
    rw [entriesNesting, Nat.add_zero, Nat.max_eq_left within]
    rfl
  | cons entry entries ih =>
    obtain ⟨first, others⟩ := List.forall_mem_cons.mp known
    rw [entriesChars_cons, scan_comma, scan_entry first within, ih others (by omega), entriesNesting]
    congr 1
    omega

-- The first member has no comma in front; with one, the text after the bracket would be that of all members.

theorem spans_array {items : List Document} (known : ∀ item ∈ items, Spans item) : Spans (.array items) := by
  intro depth deepest within
  have entered : ∀ text, scan ⟨.between, depth, deepest⟩ ('[' :: text) =
      scan ⟨.between, depth + 1, max deepest (depth + 1)⟩ text := fun _ => rfl
  have inside : scan ⟨.between, depth, deepest⟩ (Document.array items).chars =
      scan ⟨.between, depth + 1, max deepest (depth + 1)⟩ (itemsChars items) := by
    cases items with
    | nil => exact entered _
    | cons item items =>
      rw [chars_array_cons, itemsChars_cons]
      exact (entered _).trans (scan_comma _).symm
  rw [inside, scan_itemsChars known (by omega), nesting]
  congr 1
  omega

theorem spans_object {entries : List (String × Document)} (known : ∀ entry ∈ entries, Spans entry.2) :
    Spans (.object entries) := by
  intro depth deepest within
  have entered : ∀ text, scan ⟨.between, depth, deepest⟩ ('\x7b' :: text) =
      scan ⟨.between, depth + 1, max deepest (depth + 1)⟩ text := fun _ => rfl
  have inside : scan ⟨.between, depth, deepest⟩ (Document.object entries).chars =
      scan ⟨.between, depth + 1, max deepest (depth + 1)⟩ (entriesChars entries) := by
    cases entries with
    | nil => exact entered _
    | cons entry entries =>
      rw [chars_object_cons, entriesChars_cons]
      exact (entered _).trans (scan_comma _).symm
  rw [inside, scan_entriesChars known (by omega), nesting]
  congr 1
  omega

theorem spans (d : Document) : Spans d := by
  induction d with
  | null => exact .flat (List.all_eq_true.mp rfl) rfl
  | boolean value =>
    cases value with
    | true => exact .flat (List.all_eq_true.mp rfl) rfl
    | false => exact .flat (List.all_eq_true.mp rfl) rfl
  | integer value => exact .flat (plain_integerChars value) rfl
  | double value => exact .flat (plain_write value) rfl
  | string value =>
    intro depth deepest within
    have flat : (Document.string value).nesting = 0 := rfl
    rw [chars_string, scan_stringChars, flat, Nat.add_zero, Nat.max_eq_left within]
  | array items known => exact spans_array known
  | object entries known => exact spans_object known

end Brackets

-- How many brackets stand inside each other at the deepest place of a text.
def bracketDepth (text : String) : Nat := (Brackets.start.scan text.toList).deepest

theorem bracketDepth_text (d : Document) : bracketDepth d.text = d.nesting := by
  have scanned := Brackets.spans d 0 0 (Nat.le_refl 0)
  rw [Nat.zero_add, Nat.zero_max] at scanned
  rw [bracketDepth, Brackets.start, text, String.toList_ofList, scanned]

end Treeline
