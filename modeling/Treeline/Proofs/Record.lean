import Treeline.Document.Tagged
import Treeline.Proofs.Outcome

namespace Treeline

-- Records read from entries, up to which fault is met: each field is found by its name, wherever it stands.

variable {ρ α β κ : Type}

theorem toOption_earliest (left : Except Complaint α) (right : Except Complaint β) :
    (earliest left right).toOption = left.toOption.bind fun a => right.toOption.map fun b => (a, b) := by
  cases left <;> cases right <;> rfl

-- The values of all entries of a name.
def named (name : String) (entries : List (String × Part ρ)) : List (Part ρ) :=
  (entries.filter fun entry => entry.1 == name).map Prod.snd

@[simp] theorem named_nil (name : String) : named name ([] : List (String × Part ρ)) = [] := rfl

@[simp] theorem named_cons (name key : String) (part : Part ρ) (entries : List (String × Part ρ)) :
    named name ((key, part) :: entries) = if key = name then part :: named name entries else named name entries := by
  by_cases same : key = name <;> simp [named, same]

theorem map_occurrences (name : String) (entries : List (String × Part ρ)) :
    (Field.occurrences name entries).map Prod.fst = named name entries := by
  have from_any : ∀ start, ((entries.zipIdx start).filter fun entry => entry.1.1 == name).map (fun entry => entry.1.2) =
      named name entries := by
    induction entries with
    | nil => exact fun _ => rfl
    | cons entry entries ih =>
      intro start
      obtain ⟨key, part⟩ := entry
      rw [List.zipIdx_cons, named_cons, ← ih (start + 1)]
      by_cases same : key = name <;> simp [same]
  rw [← from_any 0, Field.occurrences, List.map_map]
  rfl

-- A field is read from the only entry of its name. It may be absent, but not there twice.
def Field.ofNamed (field : Field ρ α) : List (Part ρ) → Option α
  | [] => field.absent
  | [part] => (field.read part).toOption
  | _ => none

theorem Field.toOption_fromEntries (field : Field ρ α) (index : Nat) (entries : List (String × Part ρ)) :
    (field.fromEntries index entries).toOption = field.ofNamed (named field.name entries) := by
  rw [← map_occurrences, Field.fromEntries]
  cases Field.occurrences field.name entries with
  | nil => cases absent : field.absent <;> simp [Field.ofNamed, absent, Except.toOption]
  | cons first again =>
    obtain ⟨part, place⟩ := first
    cases again with
    | nil => cases read : field.read part <;> simp [Field.ofNamed, read, Except.toOption]
    | cons second more => cases read : field.read part <;> simp [Field.ofNamed, read, Except.toOption]

@[simp] theorem Field.name_required (name : String) (read : Part ρ → Except Fault α) :
    (Field.required name read).name = name := rfl

@[simp] theorem Field.name_place (name : String) (read : Part ρ → Except Fault α) :
    (Field.place name read).name = name := rfl

@[simp] theorem Field.name_list (name : String) (read : Part ρ → Except Fault (List α)) :
    (Field.list name read).name = name := rfl

@[simp] theorem Field.ofNamed_required (name : String) (read : Part ρ → Except Fault α) (part : Part ρ) :
    (Field.required name read).ofNamed [part] = (read part).toOption := rfl

@[simp] theorem Field.ofNamed_list (name : String) (read : Part ρ → Except Fault (List α)) (part : Part ρ) :
    (Field.list name read).ofNamed [part] = (read part).toOption := rfl

-- A place for a child, read from a document.
def placeOf (read : Document → Except Fault α) : Document → Option (Option α)
  | .null => some none
  | d => (read d).toOption.map some

theorem Field.ofNamed_place (name : String) {read : Part ρ → Except Fault α} {decode : Document → Except Fault α}
    {part : Part ρ} (same : read part = decode part.document) :
    (Field.place name read).ofNamed [part] = placeOf decode part.document := by
  obtain ⟨d, reading⟩ := part
  have filled : (some <$> read ⟨d, reading⟩).toOption = (decode d).toOption.map some := by
    rw [toOption_map, same]
  cases d with
  | null => rfl
  | _ => exact filled

namespace Fields

variable (index : Nat) (entries : List (String × Part ρ))

@[simp] theorem toOption_one (field : Field ρ α) :
    ((one field).fromEntries index entries).toOption = field.ofNamed (named field.name entries) :=
  field.toOption_fromEntries index entries

@[simp] theorem toOption_both (left : Fields ρ α) (right : Fields ρ β) :
    ((left.both right).fromEntries index entries).toOption =
      (left.fromEntries index entries).toOption.bind fun a =>
        (right.fromEntries (index + left.size) entries).toOption.map fun b => (a, b) :=
  toOption_earliest _ _

@[simp] theorem toOption_mapped (f : α → β) (fields : Fields ρ α) :
    ((fields.map f).fromEntries index entries).toOption = (fields.fromEntries index entries).toOption.map f :=
  toOption_map _ _

theorem toOption_read (title : String) (fields : Fields ρ α) :
    (fields.read title (.entries entries)).toOption = (fields.fromEntries 0 entries).toOption :=
  toOption_mapError _ _

end Fields

-- The tag in front of other entries is found and taken away.
theorem tagOfEntries_tagged [Vocabulary κ] {kind : κ} (known : Vocabulary.ofText? κ (Vocabulary.spell kind) = some kind)
    (reading : ρ) {entries : List (String × Part ρ)} (others : ∀ entry ∈ entries, entry.1 ≠ tagKey) :
    tagOfEntries ((tagKey, ⟨.string (Vocabulary.spell kind), reading⟩) :: entries) = .ok (kind, .entries entries) := by
  have single : named tagKey entries = [] := by
    rw [named, List.map_eq_nil_iff, List.filter_eq_nil_iff]
    intro entry member
    simpa using others entry member
  have kept : entries.filter (fun entry => entry.1 != tagKey) = entries := by
    rw [List.filter_eq_self]
    intro entry member
    simpa using others entry member
  have read : (Document.string (Vocabulary.spell kind)).readTag κ = .ok kind := by
    rw [Document.readTag, Document.readWordOf, known]
  let tag := Field.required tagKey fun part : Part ρ => part.document.readTag κ
  have found : tag.fromEntries 0 ((tagKey, ⟨.string (Vocabulary.spell kind), reading⟩) :: entries) = .ok kind := by
    apply eq_ok_of_toOption
    rw [Field.toOption_fromEntries]
    simp [tag, single, read, Except.toOption]
  have dropped : ((tagKey, (⟨.string (Vocabulary.spell kind), reading⟩ : Part ρ)) :: entries).filter
      (fun entry => entry.1 != tagKey) = entries := by
    rw [List.filter_cons_of_neg (by simp), kept]
  rw [tagOfEntries, dropped]
  exact congrArg (fun result => do
    let kind ← Except.mapError Complaint.fault result
    return (kind, Body.entries entries)) found

end Treeline
