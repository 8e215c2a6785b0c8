import Treeline.Document.Reader.Value
import Treeline.Document.Tagged

namespace Treeline.Document

-- The document of a whole text: its tag is checked while it is read, so a wrong tag is met before anything behind it.
-- Unlike tags inside a document, this one is always a string.

variable {κ : Type} [Vocabulary κ]

inductive Members
  | entries (entries : List (String × Document))
  | items (items : List Document)

def Members.body {ρ : Type} (reading : Document → ρ) : Members → Body ρ
  | .entries es => .entries (es.map fun entry => (entry.1, ⟨entry.2, reading entry.2⟩))
  | .items ds => .items (ds.map fun item => ⟨item, reading item⟩)

-- The tag; a bracket is wrong before it is opened, and other values once they are read.
def readRootTag : Reader κ := fun rest =>
  match skipBlanks rest with
  | '"' :: behind => do
    let (name, behind) ← readString behind
    match Vocabulary.ofText? κ name with
    | some kind => return (kind, behind)
    | none => faultHere (.unknownVariant name (Vocabulary.spellings κ)) behind
  | '[' :: behind => faultHere (.invalidType .sequence .tag) ('[' :: behind)
  | '\x7b' :: behind => faultHere (.invalidType .map .tag) ('\x7b' :: behind)
  | other => do
    let (value, behind) ← readValue 0 0 other
    faultHere (.invalidType value.found .tag) behind

-- A second tag is wrong at its key; the position is behind the blanks and the closing brace that may follow.
def duplicateTag {α : Type} (rest : List Char) : Except Stop α :=
  match skipBlanks rest with
  | '\x7d' :: behind => faultHere (.duplicateField tagKey) behind
  | other => faultHere (.duplicateField tagKey) other

def readRootEntries (item : Reader Document) :
    Nat → Bool → Option κ → Reader (κ × List (String × Document))
  | 0, _, _, rest => flawNext .endOfObject rest
  | fuel + 1, first, tag, rest => do
    match ← nextKey first rest with
    | .finished behind =>
      match tag with
      | some kind => return ((kind, []), behind)
      | none => faultHere (.missingField tagKey) behind
    | .start start =>
      let (key, behind) ← readString start
      if key = tagKey then
        if tag.isSome then duplicateTag behind
        else
          let behind ← readColon behind
          let (kind, behind) ← readRootTag behind
          readRootEntries item fuel false (some kind) behind
      else
        let behind ← readColon behind
        let (value, behind) ← item behind
        let ((kind, entries), behind) ← readRootEntries item fuel false tag behind
        return ((kind, (key, value) :: entries), behind)

def readRootItems (item : Reader Document) (fuel : Nat) : Reader (κ × List Document) := fun rest => do
  match ← nextItem true rest with
  | .finished behind => faultHere (.missingField tagKey) behind
  | .start start =>
    let (kind, behind) ← readRootTag start
    let (items, behind) ← readItems item fuel false behind
    return ((kind, items), behind)

def readRoot (title : String) : Reader (κ × Members) := fun rest =>
  let fuel := rest.length + 1
  let member := readValue fuel (nestingLimit - 1)
  match skipBlanks rest with
  | '\x7b' :: behind => do
    let ((kind, entries), behind) ← readRootEntries member fuel true none behind
    return ((kind, .entries entries), behind)
  | '[' :: behind => do
    let ((kind, items), behind) ← readRootItems member fuel behind
    return ((kind, .items items), behind)
  | other => do
    let (value, behind) ← readValue 0 0 other
    faultHere (.invalidType value.found (.tagged title)) behind

def readEnd (rest : List Char) : Except Stop Unit :=
  match skipBlanks rest with
  | [] => .ok ()
  | other => flawNext .trailingCharacters other

end Treeline.Document
