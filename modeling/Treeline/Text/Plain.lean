import Treeline.Text.Bytes

namespace Treeline.Text

def isControlBlank (c : Char) : Bool := c = '\t' || c = '\n' || c = '\x0c' || c = '\r'

def isPlain (c : Char) : Bool := (0x20 ≤ c.toNat && c ≠ '\x7f') || isControlBlank c

inductive Sequence
  | escape
  | escapeIntermediate
  | control
  | deviceEntry
  | deviceParameter
  | deviceIntermediate
  | text
  | systemText
deriving DecidableEq, Repr

namespace Sequence

-- Characters that have no meaning in a sequence change nothing.
def advance (sequence : Sequence) (c : Char) : Option Sequence :=
  match sequence with
  | .escape =>
    if c = '[' then some .control
    else if c = ']' then some .systemText
    else if c = 'P' then some .deviceEntry
    else if c = 'X' || c = '^' || c = '_' then some .text
    else if ' ' ≤ c && c ≤ '/' then some .escapeIntermediate
    else if '0' ≤ c && c ≤ '~' then none
    else some .escape
  | .escapeIntermediate => if '0' ≤ c && c ≤ '~' then none else some .escapeIntermediate
  | .control => if '@' ≤ c && c ≤ '~' then none else some .control
  | .deviceEntry =>
    if ' ' ≤ c && c ≤ '/' then some .deviceIntermediate
    else if '0' ≤ c && c ≤ '?' then some .deviceParameter
    else if '@' ≤ c && c ≤ '~' then some .text
    else some .deviceEntry
  | .deviceParameter =>
    if ' ' ≤ c && c ≤ '/' then some .deviceIntermediate
    else if '<' ≤ c && c ≤ '~' then some .text
    else some .deviceParameter
  | .deviceIntermediate => if '0' ≤ c && c ≤ '~' then some .text else some .deviceIntermediate
  -- The byte that ends such a text is looked for in the encoding, so that it may be part of a character.
  | .text => if (String.utf8EncodeChar c).contains 0x9C then none else some .text
  | .systemText => if c = '\x07' then none else some .systemText

def keepsBlanks : Sequence → Bool
  | .escape | .escapeIntermediate | .control => true
  | _ => false

end Sequence

-- How far a text has been read. A blank kept inside a sequence lets the text behind it through, and the sequence goes
-- on at the next control character, unless a character beyond ASCII has ended it before.
structure Scan where
  sequence : Option Sequence := none
  showing : Bool := true
deriving DecidableEq, Repr

namespace Scan

def keeps (scan : Scan) (c : Char) : Bool :=
  (scan.showing && isPlain c) || (scan.sequence.any Sequence.keepsBlanks && isControlBlank c)

def keep (scan : Scan) (c : Char) : Scan := ⟨if c.toNat < 0x80 then scan.sequence else none, true⟩

def skip (scan : Scan) (c : Char) : Scan :=
  let sequence :=
    if c = '\x1b' then some .escape
    else if c = '\x18' || c = '\x1a' then none
    else scan.sequence.bind (·.advance c)
  ⟨sequence, sequence.isNone⟩

def plain (scan : Scan) : List Char → List Char
  | [] => []
  | c :: rest => if scan.keeps c then c :: (scan.keep c).plain rest else (scan.skip c).plain rest

end Scan

def plain (text : String) : String := String.ofList (Scan.plain {} text.toList)

end Treeline.Text
