import Treeline.Document.Body
import Treeline.Document.Fault

namespace Treeline

-- A fault and its place: entries and items in their order, then absent fields in the order of the record.
structure Complaint where
  place : Nat
  fault : Fault

def earliest {α β : Type} : Except Complaint α → Except Complaint β → Except Complaint (α × β)
  | .ok a, .ok b => .ok (a, b)
  | .ok _, .error right => .error right
  | .error left, .ok _ => .error left
  | .error left, .error right => .error (if left.place ≤ right.place then left else right)

structure Field (ρ α : Type) where
  name : String
  read : Part ρ → Except Fault α
  absent : Option α
  beyond : Option α

namespace Field

variable {ρ α : Type}

def required (name : String) (read : Part ρ → Except Fault α) : Field ρ α := ⟨name, read, none, none⟩

-- A place for a child: null is empty, and so is an absent entry, but not an absent item.
def place (name : String) (read : Part ρ → Except Fault α) : Field ρ (Option α) :=
  ⟨name, fun part => match part.document with
    | .null => .ok none
    | _ => some <$> read part, some none, none⟩

def list (name : String) (read : Part ρ → Except Fault (List α)) : Field ρ (List α) := ⟨name, read, some [], some []⟩

def occurrences (name : String) (entries : List (String × Part ρ)) : List (Part ρ × Nat) :=
  (entries.zipIdx.filter fun entry => entry.1.1 == name).map fun entry => (entry.1.2, entry.2)

-- A second entry of the name is wrong before its value is looked at.
def fromEntries (field : Field ρ α) (index : Nat) (entries : List (String × Part ρ)) : Except Complaint α :=
  match occurrences field.name entries with
  | [] =>
    match field.absent with
    | some value => .ok value
    | none => .error ⟨entries.length + index, .missingField field.name⟩
  | (part, place) :: again =>
    match field.read part, again with
    | .error fault, _ => .error ⟨place, fault⟩
    | .ok value, [] => .ok value
    | .ok _, (_, second) :: _ => .error ⟨second, .duplicateField field.name⟩

def fromItems (field : Field ρ α) (short : Nat → Fault) (index : Nat) (items : List (Part ρ)) : Except Complaint α :=
  match items[index]? with
  | some part => (field.read part).mapError fun fault => ⟨index, fault⟩
  | none =>
    match field.beyond with
    | some value => .ok value
    | none => .error ⟨index, short index⟩

end Field

structure Fields (ρ α : Type) where
  size : Nat
  fromEntries : Nat → List (String × Part ρ) → Except Complaint α
  fromItems : (Nat → Fault) → Nat → List (Part ρ) → Except Complaint α

namespace Fields

variable {ρ α β : Type}

def one (field : Field ρ α) : Fields ρ α := ⟨1, field.fromEntries, field.fromItems⟩

def both (left : Fields ρ α) (right : Fields ρ β) : Fields ρ (α × β) where
  size := left.size + right.size
  fromEntries index entries :=
    earliest (left.fromEntries index entries) (right.fromEntries (index + left.size) entries)
  fromItems short index items :=
    earliest (left.fromItems short index items) (right.fromItems short (index + left.size) items)

def map (f : α → β) (fields : Fields ρ α) : Fields ρ β where
  size := fields.size
  fromEntries index entries := f <$> fields.fromEntries index entries
  fromItems short index items := f <$> fields.fromItems short index items

-- The record that a body spells. Items beyond the last field are wrong; entries of other names are passed over.
def read (title : String) (fields : Fields ρ α) : Body ρ → Except Fault α
  | .entries entries => (fields.fromEntries 0 entries).mapError Complaint.fault
  | .items items => do
    let short index := Fault.invalidLength index (.recordOf title fields.size)
    let value ← (fields.fromItems short 0 items).mapError Complaint.fault
    if fields.size < items.length then .error (.invalidLength items.length (.sequenceOf fields.size)) else .ok value

def readUntagged (title : String) (fields : Fields ρ α) (document : Document) : Option (Body ρ) → Except Fault α
  | some body => fields.read title body
  | none => .error (.invalidType document.found (.record title))

end Fields

end Treeline
