import Treeline.Document.Reader.Basic

namespace Treeline.Document

-- A number is collected into a 64-bit significand and a decimal exponent. Digits that no longer fit change the
-- exponent in the whole part and are dropped in the fraction.

def greatestWord : Nat := 0xFFFFFFFFFFFFFFFF

def greatestExponent : Nat := 0x7FFFFFFF

def takeDigits (significand : Nat) : List Char → Nat × Nat × List Char
  | [] => (significand, 0, [])
  | c :: rest =>
    let grown := significand * 10 + digitValue c
    if c.isDigit && grown ≤ greatestWord then
      let (total, count, behind) := takeDigits grown rest
      (total, count + 1, behind)
    else (significand, 0, c :: rest)

def countDigits (rest : List Char) : Nat × List Char :=
  ((rest.takeWhile Char.isDigit).length, rest.dropWhile Char.isDigit)

-- The digits of an exponent. On the left: the rest behind the digit that makes it too large.
def takeExponent (value : Nat) : List Char → List Char ⊕ (Nat × List Char)
  | [] => .inr (value, [])
  | c :: rest =>
    if c.isDigit then
      let grown := value * 10 + digitValue c
      if greatestExponent < grown then .inl rest else takeExponent grown rest
    else .inr (value, c :: rest)

def signed (negative : Bool) (x : Binary64) : Binary64 := if negative then x.negate else x

-- A whole number. Minus zero and what lies below the 64-bit integers are doubles.
def wholeNumber (negative : Bool) (significand : Nat) : Document :=
  if !negative then .integer significand
  else if 1 ≤ significand ∧ significand ≤ 0x8000000000000000 then .integer (-significand)
  else .double (Binary64.ofNat significand).negate

def finishDouble (negative : Bool) (significand : Nat) (exponent : Int) : Reader Document := fun rest =>
  match Binary64.ofDecimal? significand exponent with
  | some x => .ok (.double (signed negative x), rest)
  | none => flawHere .numberOutOfRange rest

def readExponent (negative : Bool) (significand : Nat) (exponent : Int) : Reader Document := fun rest =>
  let (down, digits) := match rest with
    | '+' :: digits => (false, digits)
    | '-' :: digits => (true, digits)
    | digits => (false, digits)
  match digits with
  | [] => flawHere .endOfValue []
  | c :: behind =>
    if c.isDigit then
      match takeExponent (digitValue c) behind with
      | .inr (value, behind) =>
        finishDouble negative significand (if down then exponent - value else exponent + value) behind
      | .inl behind =>
        if significand ≠ 0 ∧ !down then flawHere .numberOutOfRange behind
        else .ok (.double (signed negative (Binary64.ofNat 0)), behind.dropWhile Char.isDigit)
    else flawNext .invalidNumber digits

def readScale (negative : Bool) (significand : Nat) (exponent : Int) : Reader Document
  | 'e' :: rest => readExponent negative significand exponent rest
  | 'E' :: rest => readExponent negative significand exponent rest
  | rest => finishDouble negative significand exponent rest

def readFraction (negative : Bool) (significand : Nat) (exponent : Int) : Reader Document := fun rest =>
  let (total, taken, behind) := takeDigits significand rest
  let (dropped, behind) := countDigits behind
  if taken + dropped = 0 then
    match rest with
    | [] => flawNext .endOfValue []
    | _ :: _ => flawNext .invalidNumber rest
  else readScale negative total (exponent - taken) behind

-- What may follow the whole part, whose last `dropped` digits did not fit.
def readWhole (negative : Bool) (significand dropped : Nat) : Reader Document
  | '.' :: rest => readFraction negative significand dropped rest
  | rest =>
    match rest with
    | 'e' :: _ | 'E' :: _ => readScale negative significand dropped rest
    | _ => if dropped = 0 then .ok (wholeNumber negative significand, rest)
      else finishDouble negative significand dropped rest

-- A number, from behind its sign. No digit follows a leading zero.
def readNumber (negative : Bool) : Reader Document
  | [] => flawHere .endOfValue []
  | c :: rest =>
    if c = '0' then
      match rest with
      | d :: _ => if d.isDigit then flawNext .invalidNumber rest else readWhole negative 0 0 rest
      | [] => readWhole negative 0 0 []
    else if c.isDigit then
      let (significand, _, behind) := takeDigits (digitValue c) rest
      let (dropped, behind) := countDigits behind
      readWhole negative significand dropped behind
    else flawNext .invalidNumber (c :: rest)

end Treeline.Document
