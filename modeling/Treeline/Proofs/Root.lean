import Treeline.Proofs.Record
import Treeline.Proofs.Reread
import Treeline.Proofs.Vocabulary
import Treeline.Tree.Parse

namespace Treeline

open Document

-- Whole texts: an object whose tag stands first is read from its text as it is from the document.

namespace Document

variable {κ : Type} [Vocabulary κ]

theorem readRootTag_spell (faithful : Vocabulary.Faithful κ) (kind : κ) (rest : List Char) :
    readRootTag (stringChars (Vocabulary.spell kind) ++ rest) = .ok (kind, rest) := by
  have text : stringChars (Vocabulary.spell kind) ++ rest =
      '"' :: ((Vocabulary.spell kind).toList.flatMap escaped ++ '"' :: rest) := by
    simp [stringChars]
  rw [text, readRootTag, skipBlanks_cons rfl]
  simp only [readString_printed, bind, Except.bind, faithful kind]
  rfl

section Members

variable {value : Reader Document} {read : Document → Option Document}

theorem readRootEntries_tag {fuel : Nat} (faithful : Vocabulary.Faithful κ) (kind : κ) (rest : List Char) :
    readRootEntries value (fuel + 1) true none ('"' :: keyChars tagKey (stringChars (Vocabulary.spell kind) ++ rest)) =
      readRootEntries value fuel false (some kind) rest := by
  have first : ∀ text, nextKey true ('"' :: text) = .ok (.start text) := fun _ => rfl
  have named := readString_printed tagKey (':' :: (stringChars (Vocabulary.spell kind) ++ rest))
  have colon : ∀ text, readColon (':' :: text) = .ok text := fun _ => rfl
  have tagged := readRootTag_spell faithful kind rest
  rw [readRootEntries]
  simp only [first, keyChars, named, colon, tagged, bind, Except.bind, if_true, Option.isSome_none, Bool.false_eq_true,
    if_false]

theorem readRootEntries_start {text start behind rest : List Char} {key : String} (other : key ≠ tagKey) {fuel : Nat}
    {kind : κ} {one : Option Document} {others : Option (List (String × Document))}
    (next : nextKey false text = .ok (.start (keyChars key start)))
    (here : (value start).toOption = one.map fun found => (found, behind))
    (more : (readRootEntries value fuel false (some kind) behind).toOption =
      others.map fun found => ((kind, found), rest)) :
    (readRootEntries value (fuel + 1) false (some kind) text).toOption =
      (do return (← one.map fun item => (key, item)) :: (← others)).map fun found => ((kind, found), rest) := by
  have named := readString_printed key (':' :: start)
  have colon : readColon (':' :: start) = .ok start := rfl
  rw [readRootEntries, next]
  refine (toOption_bind (readString (keyChars key start)) _).trans ?_
  rw [keyChars, named]
  simp only [Except.toOption, Option.bind_some, other, if_false]
  refine (toOption_bind (readColon (':' :: start)) _).trans ?_
  rw [colon]
  refine (toOption_bind (value start) _).trans ?_
  rw [here]
  cases one with
  | none => rfl
  | some item =>
    refine (toOption_bind (readRootEntries value fuel false (some kind) behind) _).trans ?_
    rw [more]
    cases others <;> rfl

theorem readRootEntries_entriesChars {entries : List (String × Document)}
    (each : ∀ entry ∈ entries, ReadsTo value read entry.2) (untagged : ∀ entry ∈ entries, entry.1 ≠ tagKey) (kind : κ)
    {fuel : Nat} (enough : entries.length < fuel) (rest : List Char) :
    (readRootEntries value fuel false (some kind) (entriesChars entries ++ rest)).toOption =
      (entries.mapM (readEntry read)).map fun found => ((kind, found), rest) := by
  induction entries generalizing fuel with
  | nil =>
    cases fuel with
    | zero => cases enough
    | succ fuel => rfl
  | cons entry entries ih =>
    obtain ⟨first, others⟩ := List.forall_mem_cons.mp each
    obtain ⟨here, behind⟩ := List.forall_mem_cons.mp untagged
    cases fuel with
    | zero => cases enough
    | succ fuel =>
      obtain ⟨key, item⟩ := entry
      have more := ih others behind (Nat.lt_of_succ_lt_succ enough)
      rw [entriesChars_append, List.mapM_cons]
      exact readRootEntries_start here rfl (first _ (endsNumeral_entriesChars entries rest)) more

end Members

theorem chars_tagged (kind : κ) (entries : List (String × Document)) :
    (object (tagEntry kind :: entries)).chars =
      '\x7b' :: '"' :: keyChars tagKey (stringChars (Vocabulary.spell kind) ++ entriesChars entries) := by
  rw [tagEntry, chars_object_cons, stringChars_colon, chars_string]

theorem readRoot_brace (title : String) (rest : List Char) :
    (readRoot title ('\x7b' :: rest) : Except Stop ((κ × Members) × List Char)) = do
      let ((kind, entries), behind) ←
        readRootEntries (readValue (rest.length + 2) (nestingLimit - 1)) (rest.length + 2) true none rest
      return ((kind, .entries entries), behind) := rfl

theorem readRoot_tagged (faithful : Vocabulary.Faithful κ) (title : String) (kind : κ)
    {entries : List (String × Document)} (untagged : ∀ entry ∈ entries, entry.1 ≠ tagKey) :
    (readRoot title (object (tagEntry kind :: entries)).chars).toOption =
      (entries.mapM (readEntry (rereadWithin (nestingLimit - 1)))).map fun found => ((kind, .entries found), []) := by
  obtain ⟨many, shorter⟩ := length_object (tagEntry kind :: entries)
  rw [chars_tagged] at many shorter
  rw [chars_tagged, readRoot_brace, toOption_bind, readRootEntries_tag faithful]
  simp only [List.length_cons] at many shorter ⊢
  generalize (keyChars tagKey (stringChars (Vocabulary.spell kind) ++ entriesChars entries)).length = length at *
  have each : ∀ entry ∈ entries,
      ReadsTo (readValue (length + 1 + 2) (nestingLimit - 1)) (rereadWithin (nestingLimit - 1)) entry.2 :=
    fun entry member => readValue_chars entry.2 (Nat.le_succ_of_le (shorter entry (List.mem_cons_of_mem _ member))) _
  have members := readRootEntries_entriesChars each untagged kind (Nat.lt_of_succ_lt many) []
  rw [List.append_nil] at members
  rw [members]
  cases entries.mapM (readEntry (rereadWithin (nestingLimit - 1))) <;> rfl

-- Reading entries leaves their keys.
theorem keys_of_mapM {read : Document → Option Document} {entries found : List (String × Document)}
    (same : entries.mapM (readEntry read) = some found) : found.map Prod.fst = entries.map Prod.fst := by
  induction entries generalizing found with
  | nil =>
    cases same
    rfl
  | cons entry entries ih =>
    rw [List.mapM_cons] at same
    obtain ⟨first, here, others⟩ := Option.bind_eq_some_iff.mp same
    obtain ⟨rest, behind, joined⟩ := Option.bind_eq_some_iff.mp others
    obtain ⟨value, -, rfl⟩ := Option.map_eq_some_iff.mp here
    cases joined
    rw [List.map_cons, List.map_cons, ih behind]

theorem untagged_of_mapM {read : Document → Option Document} {entries found : List (String × Document)}
    (same : entries.mapM (readEntry read) = some found) (untagged : ∀ entry ∈ entries, entry.1 ≠ tagKey) :
    ∀ entry ∈ found, entry.1 ≠ tagKey := by
  intro entry present
  have key : entry.1 ∈ entries.map Prod.fst := keys_of_mapM same ▸ List.mem_map_of_mem present
  obtain ⟨original, listed, equal⟩ := List.mem_map.mp key
  exact equal ▸ untagged original listed

theorem rereadWithin_tagged (kind : κ) (entries : List (String × Document)) :
    rereadWithin nestingLimit (object (tagEntry kind :: entries)) =
      (entries.mapM (readEntry (rereadWithin (nestingLimit - 1)))).map
        fun found => object (tagEntry kind :: found) := by
  have tag : readEntry (rereadWithin (nestingLimit - 1)) (tagEntry kind) = some (tagEntry kind) := rfl
  have split := rereadWithin_object (nestingLimit - 1) (tagEntry kind :: entries)
  rw [List.mapM_cons, tag] at split
  refine split.symm.trans ?_
  cases entries.mapM (readEntry (rereadWithin (nestingLimit - 1))) <;> rfl

end Document

section Records

variable {κ ρ α : Type} [Vocabulary κ]

-- The members of an object with their readings.
def parts (reading : Document → ρ) (entries : List (String × Document)) : List (String × Part ρ) :=
  entries.map fun entry => (entry.1, ⟨entry.2, reading entry.2⟩)

@[simp] theorem parts_nil (reading : Document → ρ) : parts reading [] = [] := rfl

@[simp] theorem parts_cons (reading : Document → ρ) (key : String) (d : Document)
    (entries : List (String × Document)) :
    parts reading ((key, d) :: entries) = (key, ⟨d, reading d⟩) :: parts reading entries := rfl

theorem untagged_parts {reading : Document → ρ} {entries : List (String × Document)}
    (untagged : ∀ entry ∈ entries, entry.1 ≠ tagKey) : ∀ entry ∈ parts reading entries, entry.1 ≠ tagKey := by
  intro entry member
  obtain ⟨source, present, rfl⟩ := List.mem_map.mp member
  exact untagged source present

-- How a tagged object is decoded: the tag is taken away and chooses how the others are read.
def Decodes (reading : Document → ρ) (ofBody : κ → Body ρ → Except Fault α) (ofDocument : Document → Except Fault α) :
    Prop :=
  ∀ entries, ofDocument (.object entries) =
    tagOfEntries (parts reading entries) >>= fun tagged => ofBody tagged.1 tagged.2

variable {reading : Document → ρ} {ofBody : κ → Body ρ → Except Fault α} {ofDocument : Document → Except Fault α}

theorem Decodes.tagged (decodes : Decodes reading ofBody ofDocument) (faithful : Vocabulary.Faithful κ) (kind : κ)
    {entries : List (String × Document)} (untagged : ∀ entry ∈ entries, entry.1 ≠ tagKey) :
    ofDocument (.object (tagEntry kind :: entries)) = ofBody kind (.entries (parts reading entries)) := by
  rw [decodes, tagEntry, parts_cons, tagOfEntries_tagged (faithful kind) _ (untagged_parts untagged)]
  rfl

-- A text is read as its document is, if that begins with its tag.
theorem Decodes.toOption_parse (decodes : Decodes reading ofBody ofDocument) (faithful : Vocabulary.Faithful κ)
    (title : String) (kind : κ) {entries : List (String × Document)} (untagged : ∀ entry ∈ entries, entry.1 ≠ tagKey) :
    (parseTagged title (fun kind members => ofBody kind (members.body reading))
        (object (tagEntry kind :: entries)).text).toOption =
      (rereadWithin nestingLimit (object (tagEntry kind :: entries))).bind fun d => (ofDocument d).toOption := by
  rw [rereadWithin_tagged, parseTagged, toOption_bind, toOption_mapError, Document.text, String.toList_ofList,
    readRoot_tagged faithful title kind untagged]
  cases read : entries.mapM (readEntry (rereadWithin (nestingLimit - 1))) with
  | none => rfl
  | some found =>
    have direct : ofDocument (object (tagEntry kind :: found)) = ofBody kind ((Members.entries found).body reading) :=
      decodes.tagged faithful kind (untagged_of_mapM read untagged)
    simp only [Option.map_some, Option.bind_some, direct]
    cases ofBody kind ((Members.entries found).body reading) <;> rfl

end Records

theorem Expression.decodes : Decodes Expression.reading Expression.ofBody Expression.ofDocument := by
  intro entries
  rw [Expression.ofDocument, Expression.reading, fold_eq]
  rfl

theorem Statement.decodes : Decodes Statement.reading Statement.ofBody Statement.ofDocument := by
  intro entries
  rw [Statement.ofDocument, Statement.reading, fold_eq]
  rfl

theorem Expression.toOption_parse (kind : ExpressionKind) {entries : List (String × Document)}
    (untagged : ∀ entry ∈ entries, entry.1 ≠ tagKey) :
    (Expression.parse (object (tagEntry kind :: entries)).text).toOption =
      (rereadWithin nestingLimit (object (tagEntry kind :: entries))).bind
        fun d => (Expression.ofDocument d).toOption :=
  Expression.decodes.toOption_parse expressionKind_faithful Expression.title kind untagged

theorem Statement.toOption_parse (kind : StatementKind) {entries : List (String × Document)}
    (untagged : ∀ entry ∈ entries, entry.1 ≠ tagKey) :
    (Statement.parse (object (tagEntry kind :: entries)).text).toOption =
      (rereadWithin nestingLimit (object (tagEntry kind :: entries))).bind
        fun d => (Statement.ofDocument d).toOption :=
  Statement.decodes.toOption_parse statementKind_faithful Statement.title kind untagged

end Treeline
