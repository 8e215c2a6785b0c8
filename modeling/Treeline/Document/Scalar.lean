import Treeline.Document.Fault
import Treeline.Document.Vocabulary

namespace Treeline.Document

def readText : Document → Except Fault String
  | .string value => .ok value
  | other => .error (.invalidType other.found .text)

def readBoolean : Document → Except Fault Bool
  | .boolean value => .ok value
  | other => .error (.invalidType other.found .boolean)

-- Doubles are no integers, whatever their value.
def readInteger : Document → Except Fault Int64
  | .integer value =>
    if Int64.minValue.toInt ≤ value ∧ value ≤ Int64.maxValue.toInt then .ok (Int64.ofInt value)
    else .error (.invalidValue (.integer value) .integer)
  | other => .error (.invalidType other.found .integer)

def readDouble : Document → Except Fault Binary64
  | .double value => .ok value
  | .integer value => .ok (Binary64.ofInt value)
  | other => .error (.invalidType other.found .double)

def readList {α : Type} (read : Document → Except Fault α) : Document → Except Fault (List α)
  | .array items => items.mapM read
  | other => .error (.invalidType other.found .sequence)

def readWordOf (κ : Type) [Vocabulary κ] (name : String) : Except Fault κ :=
  match Vocabulary.ofText? κ name with
  | some word => .ok word
  | none => .error (.unknownVariant name (Vocabulary.spellings κ))

-- A word by itself: as a string, or as the only key of an object that holds nothing else.
def readSymbol (κ : Type) [Vocabulary κ] : Document → Except Fault κ
  | .string name => readWordOf κ name
  | .object [(name, value)] => do
    let word ← readWordOf κ name
    match value with
    | .null | .object [] => return word
    | other => .error (.invalidType other.found .unit)
  | .object _ => .error (.invalidValue .map .singleKey)
  | other => .error (.invalidType other.found .symbol)

-- The word that tags a node inside a document: by its name or by its place in the vocabulary.
def readTag (κ : Type) [Vocabulary κ] : Document → Except Fault κ
  | .string name => readWordOf κ name
  | .integer index =>
    if index < 0 then .error (.invalidType (.integer index) .tag)
    else
      match Vocabulary.ofIndex? κ index.toNat with
      | some word => .ok word
      | none => .error (.invalidValue (.integer index) (.tagIndex (Vocabulary.spellings κ).length))
  | other => .error (.invalidType other.found .tag)

end Treeline.Document
