import Treeline.Document.Reader.Basic

namespace Treeline.Document

def hexValue? (c : Char) : Option Nat :=
  if c.isDigit then some (digitValue c)
  else if 'a' ≤ c ∧ c ≤ 'f' then some (c.toNat - 'a'.toNat + 10)
  else if 'A' ≤ c ∧ c ≤ 'F' then some (c.toNat - 'A'.toNat + 10)
  else none

def hexUnit? : List Char → Option Nat
  | a :: b :: c :: d :: _ => do
    let a ← hexValue? a
    let b ← hexValue? b
    let c ← hexValue? c
    let d ← hexValue? d
    return ((a * 16 + b) * 16 + c) * 16 + d
  | _ => none

-- Four hexadecimal digits. Fewer than four bytes are an end of text whatever they are; four wrong ones are consumed.
def readUnit (rest : List Char) : Except Stop Nat :=
  match hexUnit? rest with
  | some unit => .ok unit
  | none =>
    let left := byteCount rest
    if left < 4 then flawHere .endOfString [] else .error ⟨.flaw .invalidEscape, left - 4⟩

def isLeading (unit : Nat) : Bool := 0xD800 ≤ unit && unit < 0xDC00

def isTrailing (unit : Nat) : Bool := 0xDC00 ≤ unit && unit < 0xE000

def joinSurrogates (leading trailing : Nat) : Char :=
  Char.ofNat (0x10000 + (leading - 0xD800) * 0x400 + (trailing - 0xDC00))

def readTrailing (leading : Nat) : List Char → Except Stop Char
  | [] => flawHere .endOfString []
  | ['\\'] => flawHere .endOfString []
  | '\\' :: 'u' :: rest => do
    let unit ← readUnit rest
    if isTrailing unit then .ok (joinSurrogates leading unit) else flawHere .loneSurrogate (rest.drop 4)
  | '\\' :: c :: rest => flawNext .brokenSurrogate (c :: rest)
  | c :: rest => flawNext .brokenSurrogate (c :: rest)

def shortEscape? (c : Char) : Option Char :=
  if c = '"' then some '"'
  else if c = '\\' then some '\\'
  else if c = '/' then some '/'
  else if c = 'b' then some '\x08'
  else if c = 'f' then some '\x0c'
  else if c = 'n' then some '\n'
  else if c = 'r' then some '\r'
  else if c = 't' then some '\t'
  else none

-- The escape behind a backslash: the character, and how many characters spell it.
def readEscape : List Char → Except Stop (Char × Nat)
  | [] => flawHere .endOfString []
  | c :: rest =>
    match shortEscape? c with
    | some plain => .ok (plain, 1)
    | none =>
      if c = 'u' then do
        let unit ← readUnit rest
        if isTrailing unit then flawHere .loneSurrogate (rest.drop 4)
        else if isLeading unit then do
          let joined ← readTrailing unit (rest.drop 4)
          return (joined, 11)
        else return (Char.ofNat unit, 5)
      else flawNext .invalidEscape (c :: rest)

-- The characters up to the closing quote; `skip` of them belong to an escape that was read already.
def readChars : List Char → Nat → Except Stop (List Char × List Char)
  | [], _ => flawHere .endOfString []
  | _ :: rest, skip + 1 => readChars rest skip
  | c :: rest, 0 =>
    if c = '"' then .ok ([], rest)
    else if c = '\\' then do
      let (plain, used) ← readEscape rest
      let (more, behind) ← readChars rest used
      return (plain :: more, behind)
    else if c.toNat < 0x20 then flawNext .controlCharacter (c :: rest)
    else do
      let (more, behind) ← readChars rest 0
      return (c :: more, behind)

def readString : Reader String := fun rest => do
  let (characters, behind) ← readChars rest 0
  return (String.ofList characters, behind)

end Treeline.Document
