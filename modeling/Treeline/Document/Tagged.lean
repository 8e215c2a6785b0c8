import Treeline.Document.Record
import Treeline.Document.Scalar

namespace Treeline

-- Nodes tell their kind by a tag: the entry `kind` of an object, or the first item of an array. What is left is the
-- body of the kind's record.

def tagKey : String := "kind"

variable {κ ρ : Type}

def tagOfEntries [Vocabulary κ] (entries : List (String × Part ρ)) : Except Fault (κ × Body ρ) := do
  let tag := Field.required tagKey fun part : Part ρ => part.document.readTag κ
  let kind ← (tag.fromEntries 0 entries).mapError Complaint.fault
  return (kind, .entries (entries.filter fun entry => entry.1 != tagKey))

def tagOfItems [Vocabulary κ] : List (Part ρ) → Except Fault (κ × Body ρ)
  | [] => .error (.missingField tagKey)
  | part :: items => do
    let kind ← part.document.readTag κ
    return (kind, .items items)

def tagOfBody [Vocabulary κ] (title : String) (document : Document) : Option (Body ρ) → Except Fault (κ × Body ρ)
  | some (.entries entries) => tagOfEntries entries
  | some (.items items) => tagOfItems items
  | none => .error (.invalidType document.found (.tagged title))

end Treeline
