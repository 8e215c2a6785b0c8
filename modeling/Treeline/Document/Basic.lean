import Treeline.Number.Binary64

namespace Treeline

-- A document is JSON data. Entries keep their order and their duplicates, because both decide which error is met
-- first. Integers and doubles are told apart by their spelling.
inductive Document
  | null
  | boolean (value : Bool)
  | integer (value : Int)
  | double (value : Binary64)
  | string (value : String)
  | array (items : List Document)
  | object (entries : List (String × Document))

namespace Document

mutual

def nesting : Document → Nat
  | .array items => 1 + itemsNesting items
  | .object entries => 1 + entriesNesting entries
  | _ => 0

def itemsNesting : List Document → Nat
  | [] => 0
  | item :: items => max item.nesting (itemsNesting items)

def entriesNesting : List (String × Document) → Nat
  | [] => 0
  | (_, value) :: entries => max value.nesting (entriesNesting entries)

end

def nestingLimit : Nat := 127

end Document

end Treeline
