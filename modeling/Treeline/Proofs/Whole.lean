import Treeline.Proofs.Locality
import Treeline.Proofs.Root

namespace Treeline

open Document

-- A whole text is read as the document that it spells, but for tags that are places in the vocabulary.

namespace Document

-- The bracket or quote that a document of its form begins with.
def opening : Document → Option Char
  | .string _ => some '"'
  | .array _ => some '['
  | .object _ => some '\x7b'
  | _ => none

def openingOf (c : Char) : Option Char := if c = '"' ∨ c = '[' ∨ c = '\x7b' then some c else none

-- No number begins with one.

theorem finishDouble_opening {negative : Bool} {significand : Nat} {exponent : Int} {source rest : List Char}
    {d : Document} (read : finishDouble negative significand exponent source = .ok (d, rest)) : d.opening = none := by
  rw [finishDouble] at read
  cases found : Binary64.ofDecimal? significand exponent <;> rw [found] at read <;> cases read
  rfl

theorem readExponent_opening {negative : Bool} {significand : Nat} {exponent : Int} {source rest : List Char}
    {d : Document} (read : readExponent negative significand exponent source = .ok (d, rest)) : d.opening = none := by
  rw [readExponent_eq, readExponentDigits.eq_def] at read
  split at read
  · cases read
  · split at read
    · split at read
      · exact finishDouble_opening read
      · split at read <;> cases read
        rfl
    · cases read

theorem readScale_opening {negative : Bool} {significand : Nat} {exponent : Int} {source rest : List Char}
    {d : Document} (read : readScale negative significand exponent source = .ok (d, rest)) : d.opening = none := by
  rw [readScale.eq_def] at read
  split at read
  · exact readExponent_opening read
  · exact readExponent_opening read
  · exact finishDouble_opening read

theorem readWhole_opening {negative : Bool} {significand dropped : Nat} {source rest : List Char} {d : Document}
    (read : readWhole negative significand dropped source = .ok (d, rest)) : d.opening = none := by
  rw [readWhole.eq_def] at read
  split at read
  · rw [readFraction.eq_def] at read
    dsimp only at read
    split at read
    · split at read <;> cases read
    · exact readScale_opening read
  · split at read
    · exact readScale_opening read
    · exact readScale_opening read
    · split at read
      · cases read
        rw [wholeNumber]
        split
        · rfl
        · split <;> rfl
      · exact finishDouble_opening read

theorem readNumber_opening {negative : Bool} {source rest : List Char} {d : Document}
    (read : readNumber negative source = .ok (d, rest)) : d.opening = none := by
  rw [readNumber.eq_def] at read
  split at read
  · cases read
  · split at read
    · split at read
      · split at read
        · cases read
        · exact readWhole_opening read
      · exact readWhole_opening read
    · split at read
      · exact readWhole_opening read
      · cases read

-- The first visible character tells the form of what is read.
theorem readValue_opening {fuel levels : Nat} {source rest : List Char} {d : Document}
    (read : readValue fuel levels source = .ok (d, rest)) :
    ∃ c behind, skipBlanks source = c :: behind ∧ d.opening = openingOf c := by
  rw [readValue.eq_def] at read
  split at read
  · cases read
  · next c behind found =>
    refine ⟨c, behind, found, ?_⟩
    have word : ∀ {value : Document} {letters : List Char}, value.opening = openingOf c →
        (do
          let left ← readWord letters behind
          return (value, left)) = .ok (d, rest) → d.opening = openingOf c := by
      intro value letters same spelled
      obtain ⟨left, -, last⟩ := eq_ok_of_bind spelled
      cases last
      exact same
    split at read
    · next letter => exact word (by rw [letter]; rfl) read
    split at read
    · next letter => exact word (by rw [letter]; rfl) read
    split at read
    · next letter => exact word (by rw [letter]; rfl) read
    split at read
    · next quote =>
      obtain ⟨⟨value, left⟩, -, last⟩ := eq_ok_of_bind read
      cases last
      rw [quote]
      rfl
    split at read
    · next minus =>
      rw [readNumber_opening read, minus]
      rfl
    split at read
    · next digit =>
      rw [readNumber_opening read]
      have other := digit_ne digit
      simp [openingOf, other]
    split at read
    · next bracket =>
      split at read
      · cases read
      · obtain ⟨⟨items, left⟩, -, last⟩ := eq_ok_of_bind read
        cases last
        rw [bracket]
        rfl
    split at read
    · next brace =>
      split at read
      · cases read
      · obtain ⟨⟨entries, left⟩, -, last⟩ := eq_ok_of_bind read
        cases last
        rw [brace]
        rfl
    · cases read

theorem openingOf_eq_some_iff {c q : Char} :
    openingOf c = some q ↔ c = q ∧ (q = '"' ∨ q = '[' ∨ q = '\x7b') := by
  rw [openingOf]
  split
  · next one =>
    rw [Option.some.injEq]
    exact ⟨fun same => ⟨same, same ▸ one⟩, And.left⟩
  · next none =>
    constructor
    · rintro ⟨⟩
    · rintro ⟨rfl, one⟩
      exact absurd one none

variable {κ : Type} [Vocabulary κ]

-- The word that tags a whole text: by its name only.
def textTag? (κ : Type) [Vocabulary κ] : Document → Option κ
  | .string name => Vocabulary.ofText? κ name
  | _ => none

theorem readValue_quote {source behind : List Char} (found : skipBlanks source = '"' :: behind) (fuel levels : Nat) :
    readValue fuel levels source = do
      let (text, behind) ← readString behind
      return (.string text, behind) := by
  rw [readValue.eq_def, found]
  rfl

theorem readRootTag_of_quote {source behind : List Char} (found : skipBlanks source = '"' :: behind) :
    (readRootTag source : Except Stop (κ × List Char)).toOption =
      (readString behind).toOption.bind fun name => (Vocabulary.ofText? κ name.1).map fun kind => (kind, name.2) := by
  rw [readRootTag, found]
  refine (toOption_bind (readString behind) _).trans ?_
  congr 1
  funext name
  cases known : Vocabulary.ofText? κ name.1 <;> simp [known] <;> rfl

theorem readRootTag_of_other {source : List Char} (other : ∀ behind, skipBlanks source ≠ '"' :: behind) :
    (readRootTag source : Except Stop (κ × List Char)).toOption = none := by
  rw [readRootTag.eq_def]
  split
  · next found => exact absurd found (other _)
  · rfl
  · rfl
  · rw [toOption_bind]
    cases (readValue 0 0 (skipBlanks source)).toOption <;> rfl

-- Wherever a value can be read, the tag is read as that of the value.
def TellsTags (κ : Type) [Vocabulary κ] (item : Reader Document) : Prop :=
  ∀ {source rest : List Char} {d : Document}, item source = .ok (d, rest) →
    (readRootTag source : Except Stop (κ × List Char)).toOption = (textTag? κ d).map fun kind => (kind, rest)

theorem readValue_tellsTags (fuel levels : Nat) : TellsTags κ (readValue fuel levels) := by
  intro source rest d read
  obtain ⟨c, behind, found, form⟩ := readValue_opening read
  by_cases quote : c = '"'
  · rw [quote] at found
    rw [readValue_quote found] at read
    obtain ⟨⟨name, left⟩, spelled, last⟩ := eq_ok_of_bind read
    cases last
    rw [readRootTag_of_quote found, spelled]
    rfl
  · have none : textTag? κ d = none := by
      cases d with
      | string name =>
        exact absurd (openingOf_eq_some_iff.mp form.symm).1 quote
      | _ => rfl
    rw [none]
    apply readRootTag_of_other
    intro behind same
    rw [same] at found
    exact quote (List.cons.inj found).1.symm

-- The values of all entries of a name, and the other entries.

def valuesOf (name : String) (entries : List (String × Document)) : List Document :=
  (entries.filter fun entry => entry.1 == name).map Prod.snd

def without (name : String) (entries : List (String × Document)) : List (String × Document) :=
  entries.filter fun entry => entry.1 != name

section Entries

variable {name key : String} {d : Document} {entries : List (String × Document)}

theorem valuesOf_cons_self : valuesOf name ((name, d) :: entries) = d :: valuesOf name entries := by
  simp [valuesOf]

theorem valuesOf_cons_of_ne (other : key ≠ name) : valuesOf name ((key, d) :: entries) = valuesOf name entries := by
  simp [valuesOf, other]

theorem without_cons_self : without name ((name, d) :: entries) = without name entries := by
  simp [without]

theorem without_cons_of_ne (other : key ≠ name) :
    without name ((key, d) :: entries) = (key, d) :: without name entries := by
  simp [without, other]

end Entries

-- The only tag among what was met before and these values.
def onlyTag? : Option κ → List Document → Option κ
  | tag, [] => tag
  | some _, _ :: _ => none
  | none, d :: values => (textTag? κ d).bind fun kind => onlyTag? (some kind) values

def taggedEntries? (tag : Option κ) (entries : List (String × Document)) : Option (κ × List (String × Document)) :=
  (onlyTag? tag (valuesOf tagKey entries)).map fun kind => (kind, without tagKey entries)

theorem taggedEntries?_cons_of_ne {key : String} (other : key ≠ tagKey) (tag : Option κ) (d : Document)
    (entries : List (String × Document)) :
    taggedEntries? tag ((key, d) :: entries) =
      (taggedEntries? tag entries).map fun tagged => (tagged.1, (key, d) :: tagged.2) := by
  rw [taggedEntries?, taggedEntries?, valuesOf_cons_of_ne other, without_cons_of_ne other, Option.map_map]
  rfl

theorem taggedEntries?_cons (tag : Option κ) (d : Document) (entries : List (String × Document)) :
    taggedEntries? tag ((tagKey, d) :: entries) =
      (onlyTag? tag [d]).bind fun kind => taggedEntries? (some kind) entries := by
  rw [taggedEntries?, valuesOf_cons_self, without_cons_self]
  cases tag with
  | some kind => rfl
  | none => cases first : textTag? κ d <;> simp [onlyTag?, first, taggedEntries?]

theorem readRootEntries_of_readEntries {item : Reader Document} (tags : TellsTags κ item) {fuel : Nat} {first : Bool}
    {source rest : List Char} {entries : List (String × Document)}
    (read : readEntries item fuel first source = .ok (entries, rest)) (tag : Option κ) :
    (readRootEntries item fuel first tag source).toOption =
      (taggedEntries? tag entries).map fun tagged => (tagged, rest) := by
  induction fuel generalizing first source entries tag with
  | zero => cases read
  | succ fuel ih =>
    rw [readRootEntries]
    rcases readEntries_cases read with ⟨next, rfl⟩ |
      ⟨start, key, colon, value, d, behind, es, next, spelled, found, here, there, rfl⟩
    · rw [next]
      cases tag <;> rfl
    · rw [next]
      refine (toOption_bind (readString start) _).trans ?_
      rw [spelled]
      change Except.toOption (if key = tagKey then _ else _) = _
      by_cases same : key = tagKey
      · rw [if_pos same, same]
        rw [taggedEntries?_cons]
        cases tag with
        | some kind =>
          change Except.toOption (duplicateTag colon) = none
          rw [duplicateTag.eq_def]
          split <;> rfl
        | none =>
          refine (toOption_bind (readColon colon) _).trans ?_
          rw [found]
          refine (toOption_bind (readRootTag value) _).trans ?_
          rw [tags here, onlyTag?]
          cases textTag? κ d with
          | none => rfl
          | some kind => exact ih there (some kind)
      · rw [if_neg same, taggedEntries?_cons_of_ne same]
        refine (toOption_bind (readColon colon) _).trans ?_
        rw [found]
        refine (toOption_bind (item value) _).trans ?_
        rw [here]
        refine (toOption_bind (readRootEntries item fuel false tag behind) _).trans ?_
        rw [ih there tag]
        cases taggedEntries? tag es <;> rfl

-- The tag in front of items, and the other items.
def taggedItems? : List Document → Option (κ × List Document)
  | [] => none
  | d :: items => (textTag? κ d).map fun kind => (kind, items)

-- With more fuel the same items are read.
theorem readItems_of_le {item : Reader Document} {fuel more : Nat} (enough : fuel ≤ more) {first : Bool}
    {source rest : List Char} {items : List Document} (read : readItems item fuel first source = .ok (items, rest)) :
    readItems item more first source = .ok (items, rest) := by
  have each : ∀ {source rest : List Char} {d : Document}, item source = .ok (d, rest) →
      d.nesting ≤ itemsNesting items → Joins rest [] → item (source ++ []) = .ok (d, rest ++ []) := by
    intro source rest d here _ _
    rwa [List.append_nil, List.append_nil]
  have same := readItems_extend each enough read (Nat.le_refl _)
  rwa [List.append_nil, List.append_nil] at same

theorem readRootItems_of_readItems {item : Reader Document} (tags : TellsTags κ item) {fuel : Nat}
    {source rest : List Char} {items : List Document} (read : readItems item fuel true source = .ok (items, rest)) :
    (readRootItems item fuel source : Except Stop ((κ × List Document) × List Char)).toOption =
      (taggedItems? items).map fun tagged => (tagged, rest) := by
  cases fuel with
  | zero => cases read
  | succ fuel =>
    rw [readRootItems]
    rcases readItems_cases read with ⟨next, rfl⟩ | ⟨start, d, behind, ds, next, here, there, rfl⟩
    · rw [next]
      rfl
    · rw [next, taggedItems?]
      refine (toOption_bind (readRootTag start) _).trans ?_
      rw [tags here]
      cases textTag? κ d with
      | none => rfl
      | some kind =>
        refine (toOption_bind (readItems item (fuel + 1) false behind) _).trans ?_
        rw [readItems_of_le (Nat.le_succ fuel) there]
        rfl

-- The tag and the members of a whole text's document.
def taggedMembers? (κ : Type) [Vocabulary κ] : Document → Option (κ × Members)
  | .object entries => (taggedEntries? none entries).map fun tagged => (tagged.1, .entries tagged.2)
  | .array items => (taggedItems? items).map fun tagged => (tagged.1, .items tagged.2)
  | _ => none

theorem readValue_brace {source behind : List Char} (found : skipBlanks source = '\x7b' :: behind)
    (fuel levels : Nat) :
    readValue fuel (levels + 1) source = do
      let (entries, behind) ← readEntries (readValue fuel levels) fuel true behind
      return (.object entries, behind) := by
  rw [readValue.eq_def, found]
  rfl

theorem readValue_bracket {source behind : List Char} (found : skipBlanks source = '[' :: behind)
    (fuel levels : Nat) :
    readValue fuel (levels + 1) source = do
      let (items, behind) ← readItems (readValue fuel levels) fuel true behind
      return (.array items, behind) := by
  rw [readValue.eq_def, found]
  rfl

theorem readRoot_of_readValue (title : String) {source rest : List Char} {d : Document}
    (read : readValue (source.length + 1) nestingLimit source = .ok (d, rest)) :
    (readRoot title source : Except Stop ((κ × Members) × List Char)).toOption =
      (taggedMembers? κ d).map fun tagged => (tagged, rest) := by
  obtain ⟨c, behind, found, form⟩ := readValue_opening read
  have deeper : nestingLimit = nestingLimit - 1 + 1 := rfl
  by_cases brace : c = '\x7b'
  · rw [brace] at found
    rw [deeper, readValue_brace found] at read
    obtain ⟨⟨entries, left⟩, inside, last⟩ := eq_ok_of_bind read
    cases last
    rw [readRoot, found, taggedMembers?]
    refine (toOption_bind (readRootEntries _ _ true none behind) _).trans ?_
    rw [readRootEntries_of_readEntries (readValue_tellsTags _ _) inside]
    cases taggedEntries? (none : Option κ) entries <;> rfl
  by_cases bracket : c = '['
  · rw [bracket] at found
    rw [deeper, readValue_bracket found] at read
    obtain ⟨⟨items, left⟩, inside, last⟩ := eq_ok_of_bind read
    cases last
    rw [readRoot, found, taggedMembers?]
    refine (toOption_bind (readRootItems _ _ behind) _).trans ?_
    rw [readRootItems_of_readItems (readValue_tellsTags _ _) inside]
    cases (taggedItems? items : Option (κ × List Document)) <;> rfl
  · have none : taggedMembers? κ d = none := by
      cases d with
      | object entries => exact absurd (openingOf_eq_some_iff.mp form.symm).1 brace
      | array items => exact absurd (openingOf_eq_some_iff.mp form.symm).1 bracket
      | _ => rfl
    rw [none, readRoot.eq_def]
    dsimp only
    rw [found]
    split
    · next same => exact absurd (List.cons.inj same).1 brace
    · next same => exact absurd (List.cons.inj same).1 bracket
    · refine (toOption_bind (readValue 0 0 (c :: behind)) _).trans ?_
      cases (readValue 0 0 (c :: behind)).toOption <;> rfl

-- The document that a text spells.
def ofText? (source : String) : Option Document := do
  let (d, rest) ← (readValue (source.toList.length + 1) nestingLimit source.toList).toOption
  (readEnd rest).toOption
  return d

theorem of_ofText? {source : String} {d : Document} (spelled : ofText? source = some d) :
    ∃ rest, readValue (source.toList.length + 1) nestingLimit source.toList = .ok (d, rest) ∧
      skipBlanks rest = [] := by
  obtain ⟨⟨found, rest⟩, read, more⟩ := Option.bind_eq_some_iff.mp spelled
  obtain ⟨_, finished, last⟩ := Option.bind_eq_some_iff.mp more
  cases last
  refine ⟨rest, eq_ok_of_toOption read, ?_⟩
  rw [readEnd] at finished
  split at finished
  · next none => exact none
  · cases finished

theorem ofText?_of_read {source : String} {d : Document} {rest : List Char}
    (read : readValue (source.toList.length + 1) nestingLimit source.toList = .ok (d, rest))
    (blank : skipBlanks rest = []) : ofText? source = some d := by
  have finished : readEnd rest = .ok () := by
    rw [readEnd, blank]
  rw [ofText?, read]
  change ((readEnd rest).toOption.bind fun _ => some d) = some d
  rw [finished]
  rfl

theorem ofText?_text (d : Document) : ofText? d.text = rereadWithin nestingLimit d := by
  have read := readValue_chars d (Nat.le_succ d.chars.length) nestingLimit [] endsNumeral_nil
  rw [List.append_nil] at read
  rw [ofText?, Document.text, String.toList_ofList, read]
  cases rereadWithin nestingLimit d <;> rfl

theorem ofText?_text_of_reread {d : Document} (same : d.reread = some d) (shallow : d.nesting ≤ nestingLimit) :
    ofText? d.text = some d := by
  rw [ofText?_text, rereadWithin, if_pos shallow, same]

-- The word that tags a node inside a document by its place in the vocabulary.
def indexTag? (κ : Type) [Vocabulary κ] : Document → Option κ
  | .integer index => if index < 0 then none else Vocabulary.ofIndex? κ index.toNat
  | _ => none

def hasIndexTag (κ : Type) [Vocabulary κ] : Document → Bool
  | .object entries =>
    match valuesOf tagKey entries with
    | [d] => (indexTag? κ d).isSome
    | _ => false
  | .array (d :: _) => (indexTag? κ d).isSome
  | _ => false

theorem textTag?_of_index {d : Document} (index : (indexTag? κ d).isSome = true) : textTag? κ d = none := by
  cases d with
  | integer value => rfl
  | _ => cases index

theorem toOption_readTag {d : Document} (named : (indexTag? κ d).isSome = false) :
    (d.readTag κ).toOption = textTag? κ d := by
  cases d with
  | string name =>
    rw [readTag, readWordOf, textTag?]
    cases Vocabulary.ofText? κ name <;> rfl
  | integer value =>
    have none : textTag? κ (integer value) = none := rfl
    rw [none, readTag]
    split
    · rfl
    · next positive =>
      rw [indexTag?, if_neg positive] at named
      cases found : Vocabulary.ofIndex? κ value.toNat with
      | none => rfl
      | some word =>
        rw [found] at named
        cases named
  | _ => rfl

end Document

section Tagged

variable {κ ρ α : Type} [Vocabulary κ] (reading : Document → ρ)

theorem named_parts (name : String) (entries : List (String × Document)) :
    named name (parts reading entries) = (valuesOf name entries).map fun d => ⟨d, reading d⟩ := by
  rw [named, parts, valuesOf, List.filter_map, List.map_map, List.map_map]
  rfl

def tagField (κ ρ : Type) [Vocabulary κ] : Field ρ κ := .required tagKey fun part => part.document.readTag κ

theorem toOption_tagOfEntries (entries : List (String × Part ρ)) :
    (tagOfEntries entries : Except Fault (κ × Body ρ)).toOption =
      ((tagField κ ρ).ofNamed (named tagKey entries)).map
        fun kind => (kind, .entries (entries.filter fun entry => entry.1 != tagKey)) := by
  rw [tagOfEntries, toOption_bind, toOption_mapError, Field.toOption_fromEntries]
  change (((tagField κ ρ).ofNamed (named tagKey entries)).bind _) = _
  cases (tagField κ ρ).ofNamed (named tagKey entries) <;> rfl

theorem ofNamed_tagField {entries : List (String × Document)} (named : (object entries).hasIndexTag κ = false) :
    (tagField κ ρ).ofNamed ((valuesOf tagKey entries).map fun d => ⟨d, reading d⟩) =
      onlyTag? none (valuesOf tagKey entries) := by
  rw [hasIndexTag] at named
  match valuesOf tagKey entries, named with
  | [], _ => rfl
  | [d], named =>
    refine (toOption_readTag named).trans ?_
    rw [onlyTag?]
    cases textTag? κ d <;> rfl
  | d :: second :: values, _ =>
    rw [onlyTag?]
    cases textTag? κ d <;> rfl

-- A tag that is a word is found alike in a text and inside a document.
theorem toOption_tagOfBody (title : String) {d : Document} (named : d.hasIndexTag κ = false) :
    (tagOfBody title d (d.body? reading) : Except Fault (κ × Body ρ)).toOption =
      (taggedMembers? κ d).map fun tagged => (tagged.1, tagged.2.body reading) := by
  cases d with
  | object entries =>
    have rest : (parts reading entries).filter (fun entry => entry.1 != tagKey) =
        parts reading (without tagKey entries) := by
      rw [parts, List.filter_map]
      rfl
    refine (toOption_tagOfEntries (parts reading entries)).trans ?_
    rw [named_parts, ofNamed_tagField reading named, rest, taggedMembers?, taggedEntries?, Option.map_map,
      Option.map_map]
    rfl
  | array items =>
    cases items with
    | nil => rfl
    | cons d items =>
      refine (toOption_bind (d.readTag κ) _).trans ?_
      rw [toOption_readTag named, taggedMembers?, taggedItems?]
      cases textTag? κ d <;> rfl
  | _ => rfl

theorem taggedMembers?_of_hasIndexTag {d : Document} (index : d.hasIndexTag κ = true) :
    taggedMembers? κ d = none := by
  cases d with
  | object entries =>
    have none : onlyTag? (none : Option κ) (valuesOf tagKey entries) = none := by
      rw [hasIndexTag] at index
      match valuesOf tagKey entries, index with
      | [d], index =>
        rw [onlyTag?, textTag?_of_index index]
        rfl
    rw [taggedMembers?, taggedEntries?, none]
    rfl
  | array items =>
    cases items with
    | nil => cases index
    | cons d items =>
      rw [taggedMembers?, taggedItems?, textTag?_of_index index]
      rfl
  | _ => cases index

variable {reading} {ofBody : κ → Body ρ → Except Fault α} {ofDocument : Document → Except Fault α}

theorem toOption_parse_of_text {title : String}
    (decodes : ∀ d, ofDocument d = tagOfBody title d (d.body? reading) >>= fun tagged => ofBody tagged.1 tagged.2)
    {source : String} {d : Document} (spelled : ofText? source = some d) :
    (parseTagged title (fun kind members => ofBody kind (members.body reading)) source).toOption =
      if d.hasIndexTag κ then none else (ofDocument d).toOption := by
  obtain ⟨rest, read, blank⟩ := of_ofText? spelled
  have finished : readEnd rest = .ok () := by
    rw [readEnd, blank]
  have whole : (parseTagged title (fun kind members => ofBody kind (members.body reading)) source).toOption =
      (taggedMembers? κ d).bind fun tagged => (ofBody tagged.1 (tagged.2.body reading)).toOption := by
    rw [parseTagged, toOption_bind, toOption_mapError, readRoot_of_readValue title read]
    cases taggedMembers? κ d with
    | none => rfl
    | some tagged =>
      refine (toOption_bind ((ofBody tagged.1 (tagged.2.body reading)).mapError DecodeError.ofFault) _).trans ?_
      rw [toOption_mapError, finished, Option.bind_some]
      cases ofBody tagged.1 (tagged.2.body reading) <;> rfl
  rw [whole]
  split
  · next index => rw [taggedMembers?_of_hasIndexTag index, Option.bind_none]
  · next named =>
    rw [decodes, toOption_bind, toOption_tagOfBody reading title (by simpa using named), Option.bind_map]
    rfl

end Tagged

theorem Expression.decodes_body (d : Document) :
    ofDocument d = tagOfBody title d (d.body? reading) >>= fun tagged => ofBody tagged.1 tagged.2 := by
  rw [ofDocument, reading, fold_eq]
  rfl

theorem Statement.decodes_body (d : Document) :
    ofDocument d = tagOfBody title d (d.body? reading) >>= fun tagged => ofBody tagged.1 tagged.2 := by
  rw [ofDocument, reading, fold_eq]
  rfl

section Nodes

variable {source : String} {d : Document} (spelled : ofText? source = some d)
include spelled

theorem Expression.toOption_parse_text :
    (Expression.parse source).toOption =
      if d.hasIndexTag ExpressionKind then none else (Expression.ofDocument d).toOption :=
  toOption_parse_of_text Expression.decodes_body spelled

theorem Statement.toOption_parse_text :
    (Statement.parse source).toOption =
      if d.hasIndexTag StatementKind then none else (Statement.ofDocument d).toOption :=
  toOption_parse_of_text Statement.decodes_body spelled

end Nodes

end Treeline
