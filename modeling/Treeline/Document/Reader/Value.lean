import Treeline.Document.Reader.Numeral
import Treeline.Document.Reader.Quoted

namespace Treeline.Document

-- What stands before the next member of a bracket: its end, with the rest behind it, or the member's start.
inductive Member
  | finished (rest : List Char)
  | start (rest : List Char)

def nextItem (first : Bool) (rest : List Char) : Except Stop Member :=
  match skipBlanks rest with
  | [] => flawNext .endOfList []
  | ']' :: behind => .ok (.finished behind)
  | c :: behind =>
    if first then .ok (.start (c :: behind))
    else if c = ',' then
      match skipBlanks behind with
      | [] => flawNext .endOfValue []
      | ']' :: more => flawNext .trailingComma (']' :: more)
      | item => .ok (.start item)
    else flawNext .expectedListEnd (c :: behind)

def nextKey (first : Bool) (rest : List Char) : Except Stop Member :=
  match skipBlanks rest with
  | [] => flawNext .endOfObject []
  | '\x7d' :: behind => .ok (.finished behind)
  | c :: behind =>
    if first then
      if c = '"' then .ok (.start behind) else flawNext .keyNotString (c :: behind)
    else if c = ',' then
      match skipBlanks behind with
      | [] => flawNext .endOfValue []
      | '"' :: key => .ok (.start key)
      | '\x7d' :: more => flawNext .trailingComma ('\x7d' :: more)
      | other => flawNext .keyNotString other
    else flawNext .expectedObjectEnd (c :: behind)

def readColon (rest : List Char) : Except Stop (List Char) :=
  match skipBlanks rest with
  | [] => flawNext .endOfObject []
  | ':' :: behind => .ok behind
  | other => flawNext .expectedColon other

-- Every member takes at least one character, so `fuel` does not run out if it exceeds the number of characters left.

-- The items of a list; `first` tells whether the bracket has just been opened.
def readItems (item : Reader Document) : Nat → Bool → Reader (List Document)
  | 0, _, rest => flawNext .endOfList rest
  | fuel + 1, first, rest => do
    match ← nextItem first rest with
    | .finished behind => return ([], behind)
    | .start start =>
      let (value, behind) ← item start
      let (values, behind) ← readItems item fuel false behind
      return (value :: values, behind)

-- The entries of an object; `first` tells whether the brace has just been opened.
def readEntries (item : Reader Document) : Nat → Bool → Reader (List (String × Document))
  | 0, _, rest => flawNext .endOfObject rest
  | fuel + 1, first, rest => do
    match ← nextKey first rest with
    | .finished behind => return ([], behind)
    | .start start =>
      let (key, behind) ← readString start
      let behind ← readColon behind
      let (value, behind) ← item behind
      let (entries, behind) ← readEntries item fuel false behind
      return ((key, value) :: entries, behind)

-- A value with at most `levels` brackets inside each other, and blanks before it.
def readValue (fuel levels : Nat) : Reader Document := fun rest =>
  match skipBlanks rest with
  | [] => flawNext .endOfValue []
  | c :: behind =>
    if c = 'n' then do
      let behind ← readWord ['u', 'l', 'l'] behind
      return (.null, behind)
    else if c = 't' then do
      let behind ← readWord ['r', 'u', 'e'] behind
      return (.boolean true, behind)
    else if c = 'f' then do
      let behind ← readWord ['a', 'l', 's', 'e'] behind
      return (.boolean false, behind)
    else if c = '"' then do
      let (text, behind) ← readString behind
      return (.string text, behind)
    else if c = '-' then readNumber true behind
    else if c.isDigit then readNumber false (c :: behind)
    else if c = '[' then
      match levels with
      | 0 => flawNext .nestingLimit (c :: behind)
      | levels + 1 => do
        let (items, behind) ← readItems (readValue fuel levels) fuel true behind
        return (.array items, behind)
    else if c = '\x7b' then
      match levels with
      | 0 => flawNext .nestingLimit (c :: behind)
      | levels + 1 => do
        let (entries, behind) ← readEntries (readValue fuel levels) fuel true behind
        return (.object entries, behind)
    else flawNext .expectedValue (c :: behind)

end Treeline.Document
