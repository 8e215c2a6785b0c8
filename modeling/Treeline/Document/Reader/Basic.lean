import Treeline.Document.Fault

namespace Treeline.Document

-- Reading goes over the characters that are left. Where it stops is told by the number of bytes left, so no offset is
-- carried along; the position is computed once, from the whole text.
structure Stop where
  cause : Cause
  left : Nat

abbrev Reader (α : Type) := List Char → Except Stop (α × List Char)

def byteCount (rest : List Char) : Nat := rest.foldl (fun count c => count + c.utf8Size) 0

def Stop.here (cause : Cause) (rest : List Char) : Stop := ⟨cause, byteCount rest⟩

def Stop.next (cause : Cause) (rest : List Char) : Stop := ⟨cause, byteCount rest - 1⟩

def flawHere {α : Type} (flaw : Flaw) (rest : List Char) : Except Stop α := .error (.here (.flaw flaw) rest)

def flawNext {α : Type} (flaw : Flaw) (rest : List Char) : Except Stop α := .error (.next (.flaw flaw) rest)

def faultHere {α : Type} (fault : Fault) (rest : List Char) : Except Stop α := .error (.here (.fault fault) rest)

def Stop.error (source : String) (stop : Stop) : DecodeError :=
  let bytes := Bytes.ofText source
  ⟨stop.cause, some (.behind bytes (bytes.length - stop.left))⟩

def isBlank (c : Char) : Bool := c == ' ' || c == '\n' || c == '\t' || c == '\r'

def skipBlanks (rest : List Char) : List Char := rest.dropWhile isBlank

def digitValue (c : Char) : Nat := c.toNat - '0'.toNat

def readWord : List Char → List Char → Except Stop (List Char)
  | [], rest => .ok rest
  | _ :: _, [] => flawHere .endOfValue []
  | expected :: word, c :: rest =>
    if c = expected then readWord word rest else flawNext .expectedWord (c :: rest)

end Treeline.Document
