import Treeline.Document.Basic

namespace Treeline

structure Part (ρ : Type) where
  document : Document
  reading : ρ

inductive Body (ρ : Type)
  | entries (entries : List (String × Part ρ))
  | items (items : List (Part ρ))

namespace Document

variable {ρ : Type}

-- The members of a document, each with its reading; scalars have none.
def body? (reading : Document → ρ) : Document → Option (Body ρ)
  | .object entries => some (.entries (entries.map fun entry => (entry.1, ⟨entry.2, reading entry.2⟩)))
  | .array items => some (.items (items.map fun item => ⟨item, reading item⟩))
  | _ => none

mutual

-- Reads a document from the readings of its members.
def fold (read : Document → Option (Body ρ) → ρ) : Document → ρ
  | .object entries => read (.object entries) (some (.entries (foldEntries read entries)))
  | .array items => read (.array items) (some (.items (foldItems read items)))
  | scalar => read scalar none
termination_by structural d => d

def foldEntries (read : Document → Option (Body ρ) → ρ) : List (String × Document) → List (String × Part ρ)
  | [] => []
  | (key, value) :: entries => (key, ⟨value, fold read value⟩) :: foldEntries read entries
termination_by structural es => es

def foldItems (read : Document → Option (Body ρ) → ρ) : List Document → List (Part ρ)
  | [] => []
  | item :: items => ⟨item, fold read item⟩ :: foldItems read items
termination_by structural ds => ds

end

theorem foldEntries_eq_map (read : Document → Option (Body ρ) → ρ) (entries : List (String × Document)) :
    foldEntries read entries = entries.map fun entry => (entry.1, ⟨entry.2, fold read entry.2⟩) := by
  induction entries with
  | nil => rfl
  | cons entry entries ih => simp [foldEntries, ih]

theorem foldItems_eq_map (read : Document → Option (Body ρ) → ρ) (items : List Document) :
    foldItems read items = items.map fun item => ⟨item, fold read item⟩ := by
  induction items with
  | nil => rfl
  | cons item items ih => simp [foldItems, ih]

theorem fold_eq (read : Document → Option (Body ρ) → ρ) (document : Document) :
    fold read document = read document (document.body? (fold read)) := by
  cases document <;> simp [fold, body?, foldEntries_eq_map, foldItems_eq_map]

end Document

end Treeline
