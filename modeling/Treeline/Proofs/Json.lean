import Treeline.Proofs.Tokens

namespace Treeline.Json

open Document

-- Values as they may be written, with every blank and every spelling, and the documents that they are read as.

abbrev Blanks := { text : List Char // ∀ c ∈ text, isBlank c = true }

mutual

inductive Value
  | token (t : Token)
  | array (items : Items)
  | object (entries : Entries)

inductive Items
  | closed (before : Blanks)
  | item (before : Blanks) (value : Value) (behind : Blanks) (more : Items)

inductive Entries
  | closed (before : Blanks)
  | entry (before : Blanks) (key : List Piece) (behindKey beforeValue : Blanks) (value : Value) (behind : Blanks)
      (more : Entries)

end

-- What divides a member from the one before it.
def comma (first : Bool) : List Char := if first then [] else [',']

mutual

def Value.chars : Value → List Char
  | .token t => t.chars
  | .array items => '[' :: items.chars true
  | .object entries => '\x7b' :: entries.chars true

def Items.chars (first : Bool) : Items → List Char
  | .closed before => before.1 ++ [']']
  | .item before value behind more => comma first ++ (before.1 ++ (value.chars ++ (behind.1 ++ more.chars false)))

def Entries.chars (first : Bool) : Entries → List Char
  | .closed before => before.1 ++ ['\x7d']
  | .entry before key behindKey beforeValue value behind more =>
    comma first ++ (before.1 ++ '"' :: Piece.closed key (behindKey.1 ++
      ':' :: (beforeValue.1 ++ (value.chars ++ (behind.1 ++ more.chars false)))))

end

mutual

def Value.nesting : Value → Nat
  | .token _ => 0
  | .array items => 1 + items.nesting
  | .object entries => 1 + entries.nesting

def Items.nesting : Items → Nat
  | .closed _ => 0
  | .item _ value _ more => max value.nesting more.nesting

def Entries.nesting : Entries → Nat
  | .closed _ => 0
  | .entry _ _ _ _ value _ more => max value.nesting more.nesting

end

mutual

-- All tokens, those of the keys included.
def Value.tokens : Value → List Token
  | .token t => [t]
  | .array items => items.tokens
  | .object entries => entries.tokens

def Items.tokens : Items → List Token
  | .closed _ => []
  | .item _ value _ more => value.tokens ++ more.tokens

def Entries.tokens : Entries → List Token
  | .closed _ => []
  | .entry _ key _ _ value _ more => .string key :: (value.tokens ++ more.tokens)

end

mutual

def Value.document? : Value → Option Document
  | .token t => t.document?
  | .array items => items.documents?.map .array
  | .object entries => entries.members?.map .object

def Items.documents? : Items → Option (List Document)
  | .closed _ => some []
  | .item _ value _ more => do return (← value.document?) :: (← more.documents?)

def Entries.members? : Entries → Option (List (String × Document))
  | .closed _ => some []
  | .entry _ key _ _ value _ more => do return (← Piece.string? key, ← value.document?) :: (← more.members?)

end

mutual

-- A value is some document if all its tokens are.
theorem Value.isSome_document?_iff (v : Value) :
    v.document?.isSome = true ↔ ∀ token ∈ v.tokens, token.document?.isSome = true := by
  cases v with
  | token t => exact (@List.forall_mem_singleton Token (fun token => token.document?.isSome = true) t).symm
  | array items =>
    rw [Value.document?, Option.isSome_map, items.isSome_documents?_iff]
    rfl
  | object entries =>
    rw [Value.document?, Option.isSome_map, entries.isSome_members?_iff]
    rfl

theorem Items.isSome_documents?_iff (items : Items) :
    items.documents?.isSome = true ↔ ∀ token ∈ items.tokens, token.document?.isSome = true := by
  cases items with
  | closed before => simp [Items.documents?, Items.tokens]
  | item before value behind more =>
    rw [Items.tokens, List.forall_mem_append, ← value.isSome_document?_iff, ← more.isSome_documents?_iff,
      Items.documents?]
    cases value.document? <;> cases more.documents? <;> simp

theorem Entries.isSome_members?_iff (entries : Entries) :
    entries.members?.isSome = true ↔ ∀ token ∈ entries.tokens, token.document?.isSome = true := by
  cases entries with
  | closed before => simp [Entries.members?, Entries.tokens]
  | entry before key behindKey beforeValue value behind more =>
    rw [Entries.tokens, List.forall_mem_cons, List.forall_mem_append, ← value.isSome_document?_iff,
      ← more.isSome_members?_iff, Entries.members?, Token.document?]
    cases Piece.string? key <;> cases value.document? <;> cases more.members? <;> simp

end

-- Blanks are passed over wherever they may stand.

theorem skipBlanks_blanks (blanks : Blanks) (text : List Char) : skipBlanks (blanks.1 ++ text) = skipBlanks text :=
  List.dropWhile_append_of_pos blanks.2

theorem endsNumeral_blanks (blanks : Blanks) {rest : List Char} (ends : EndsNumeral rest) :
    EndsNumeral (blanks.1 ++ rest) := by
  obtain ⟨text, blank⟩ := blanks
  cases text with
  | nil => exact ends
  | cons c text =>
    have first := blank c List.mem_cons_self
    simp only [isBlank, Bool.or_eq_true, beq_iff_eq] at first
    apply endsNumeral_cons
    rcases first with ((rfl | rfl) | rfl) | rfl <;> decide

theorem readValue_blanks (fuel levels : Nat) (blanks : Blanks) (text : List Char) :
    readValue fuel levels (blanks.1 ++ text) = readValue fuel levels text := by
  rw [readValue.eq_def, skipBlanks_blanks, ← readValue.eq_def]

theorem readColon_blanks (blanks : Blanks) (text : List Char) : readColon (blanks.1 ++ ':' :: text) = .ok text := by
  rw [readColon, skipBlanks_blanks]
  rfl

theorem toOption_readItems_blanks (item : Reader Document) (fuel : Nat) (first : Bool) (blanks : Blanks)
    (text : List Char) :
    (readItems item fuel first (blanks.1 ++ text)).toOption = (readItems item fuel first text).toOption := by
  cases fuel with
  | zero => rfl
  | succ fuel => rw [readItems, readItems, nextItem, nextItem, skipBlanks_blanks]

theorem toOption_readEntries_blanks (item : Reader Document) (fuel : Nat) (first : Bool) (blanks : Blanks)
    (text : List Char) :
    (readEntries item fuel first (blanks.1 ++ text)).toOption = (readEntries item fuel first text).toOption := by
  cases fuel with
  | zero => rfl
  | succ fuel => rw [readEntries, readEntries, nextKey, nextKey, skipBlanks_blanks]

theorem nextItem_start (first : Bool) (before : Blanks) {piece : List Char} (opens : Opens piece) (rest : List Char) :
    nextItem first (comma first ++ (before.1 ++ (piece ++ rest))) = .ok (.start (piece ++ rest)) := by
  have found := (skipBlanks_blanks before (piece ++ rest)).trans (opens.skipBlanks_append rest)
  cases first with
  | true => exact nextItem_first opens found
  | false => exact nextItem_comma opens found

theorem nextKey_start (first : Bool) (before : Blanks) (text : List Char) :
    nextKey first (comma first ++ (before.1 ++ '"' :: text)) = .ok (.start text) := by
  have found : skipBlanks (before.1 ++ '"' :: text) = '"' :: text := skipBlanks_blanks before _
  cases first with
  | true =>
    change nextKey true (before.1 ++ '"' :: text) = _
    rw [nextKey, found]
    rfl
  | false => exact nextKey_comma found

theorem Value.opens (v : Value) : Opens v.chars := by
  cases v with
  | token t => exact t.opens
  | array items => exact .cons rfl (by decide) _
  | object entries => exact .cons rfl (by decide) _

theorem Items.endsNumeral_chars (items : Items) (rest : List Char) : EndsNumeral (items.chars false ++ rest) := by
  cases items with
  | closed before =>
    rw [chars, List.append_assoc]
    exact endsNumeral_blanks before (endsNumeral_cons (by decide))
  | item => exact endsNumeral_cons (by decide)

theorem Entries.endsNumeral_chars (entries : Entries) (rest : List Char) :
    EndsNumeral (entries.chars false ++ rest) := by
  cases entries with
  | closed before =>
    rw [chars, List.append_assoc]
    exact endsNumeral_blanks before (endsNumeral_cons (by decide))
  | entry => exact endsNumeral_cons (by decide)

theorem Value.length_pos (v : Value) : 0 < v.chars.length := by
  obtain ⟨c, more, spelled, -⟩ := v.opens
  rw [spelled]
  exact Nat.succ_pos _

theorem Items.length_pos (items : Items) (first : Bool) : 0 < (items.chars first).length := by
  cases items with
  | closed before => simp [chars]
  | item before value behind more =>
    have filled := value.length_pos
    simp only [chars, List.length_append]
    omega

theorem Entries.length_pos (entries : Entries) (first : Bool) : 0 < (entries.chars first).length := by
  cases entries with
  | closed before => simp [chars]
  | entry before key behindKey beforeValue value behind more =>
    simp only [chars, List.length_append, List.length_cons]
    omega

mutual

theorem Value.toOption_readValue (v : Value) {fuel levels : Nat} (enough : v.chars.length ≤ fuel)
    (shallow : v.nesting ≤ levels) {rest : List Char} (ends : EndsNumeral rest) :
    (readValue fuel levels (v.chars ++ rest)).toOption = v.document?.map fun d => (d, rest) := by
  cases v with
  | token t => exact t.toOption_readValue fuel levels ends
  | array items =>
    obtain ⟨lower, rfl, inner⟩ := exists_room shallow
    have read := items.toOption_readItems true (Nat.le_of_succ_le enough) (Nat.le_of_succ_le enough) inner rest
    refine (congrArg Except.toOption (readValue_bracket (skipBlanks_cons rfl _) fuel lower)).trans ?_
    refine (toOption_bind (readItems (readValue fuel lower) fuel true (items.chars true ++ rest)) _).trans ?_
    rw [read, Value.document?]
    cases items.documents? <;> rfl
  | object entries =>
    obtain ⟨lower, rfl, inner⟩ := exists_room shallow
    have read := entries.toOption_readEntries true (Nat.le_of_succ_le enough) (Nat.le_of_succ_le enough) inner rest
    refine (congrArg Except.toOption (readValue_brace (skipBlanks_cons rfl _) fuel lower)).trans ?_
    refine (toOption_bind (readEntries (readValue fuel lower) fuel true (entries.chars true ++ rest)) _).trans ?_
    rw [read, Value.document?]
    cases entries.members? <;> rfl

theorem Items.toOption_readItems (items : Items) (first : Bool) {fuel room levels : Nat}
    (enough : (items.chars first).length ≤ fuel) (within : (items.chars first).length ≤ room)
    (shallow : items.nesting ≤ levels) (rest : List Char) :
    (readItems (readValue room levels) fuel first (items.chars first ++ rest)).toOption =
      items.documents?.map fun ds => (ds, rest) := by
  cases fuel with
  | zero => exact absurd (items.length_pos first) (Nat.not_lt.mpr enough)
  | succ fuel =>
    cases items with
    | closed before =>
      rw [Items.chars, List.append_assoc, toOption_readItems_blanks]
      rfl
    | item before value behind more =>
      have filled := value.length_pos
      simp only [Items.chars, List.length_append] at enough within
      obtain ⟨here, further⟩ := Nat.max_le.mp shallow
      have later : (more.chars false).length ≤ room := by omega
      have fewer : (more.chars false).length ≤ fuel := by omega
      have single : value.chars.length ≤ room := by omega
      have others := more.toOption_readItems false fewer later further rest
      rw [← toOption_readItems_blanks _ _ _ behind] at others
      have one := value.toOption_readValue single here (endsNumeral_blanks behind (more.endsNumeral_chars rest))
      simp only [Items.chars, List.append_assoc]
      exact readItems_start (nextItem_start first before value.opens _) one others

theorem Entries.toOption_readEntries (entries : Entries) (first : Bool) {fuel room levels : Nat}
    (enough : (entries.chars first).length ≤ fuel) (within : (entries.chars first).length ≤ room)
    (shallow : entries.nesting ≤ levels) (rest : List Char) :
    (readEntries (readValue room levels) fuel first (entries.chars first ++ rest)).toOption =
      entries.members?.map fun es => (es, rest) := by
  cases fuel with
  | zero => exact absurd (entries.length_pos first) (Nat.not_lt.mpr enough)
  | succ fuel =>
    cases entries with
    | closed before =>
      rw [Entries.chars, List.append_assoc, toOption_readEntries_blanks]
      rfl
    | entry before key behindKey beforeValue value behind more =>
      have filled := value.length_pos
      simp only [Entries.chars, Piece.closed, List.length_append, List.length_cons] at enough within
      obtain ⟨here, further⟩ := Nat.max_le.mp shallow
      have later : (more.chars false).length ≤ room := by omega
      have fewer : (more.chars false).length ≤ fuel := by omega
      have single : value.chars.length ≤ room := by omega
      have others := more.toOption_readEntries false fewer later further rest
      rw [← toOption_readEntries_blanks _ _ _ behind] at others
      have one := value.toOption_readValue single here (endsNumeral_blanks behind (more.endsNumeral_chars rest))
      rw [← readValue_blanks _ _ beforeValue] at one
      simp only [Entries.chars, List.append_assoc, List.cons_append, Piece.closed_append]
      exact readEntries_start (nextKey_start first before _) (Piece.toOption_readString key _)
        (readColon_blanks behindKey _) one others

end

-- A value as a text of its own.
def Value.source (v : Value) (before behind : Blanks) : String := String.ofList (before.1 ++ (v.chars ++ behind.1))

end Treeline.Json
