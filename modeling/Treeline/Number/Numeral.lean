import Treeline.Number.Shortest

namespace Treeline

structure NumeralStyle where
  tie : Tie
  -- Exponents of the first digit that are written without an exponent mark.
  positional : Int → Bool
  -- What a whole number carries behind its digits.
  wholeSuffix : List Char

namespace NumeralStyle

def zeros (count : Nat) : List Char := List.replicate count '0'

def placePoint (wholeSuffix : List Char) (d : Decimal) : List Char :=
  match d.exponent with
  | .negSucc before => '0' :: '.' :: (zeros before ++ d.digits)
  | .ofNat e =>
    if d.digits.length ≤ e + 1 then d.digits ++ zeros (e + 1 - d.digits.length) ++ wholeSuffix
    else d.digits.take (e + 1) ++ '.' :: d.digits.drop (e + 1)

def exponential (d : Decimal) : List Char :=
  let point := match d.digits with
    | first :: second :: more => first :: '.' :: second :: more
    | digits => digits
  let mark := if d.exponent < 0 then ['e', '-'] else ['e', '+']
  point ++ mark ++ Nat.toDigits 10 d.exponent.natAbs

def unsigned (style : NumeralStyle) (x : Binary64) : List Char :=
  if x.isNaN then "NaN".toList
  else if x.isInfinite then "inf".toList
  else if x.isZero then placePoint style.wholeSuffix ⟨['0'], 0⟩
  else
    let d := x.shortest style.tie
    if style.positional d.exponent then placePoint style.wholeSuffix d else exponential d

-- The numeral of a double; a NaN has no sign.
def write (style : NumeralStyle) (x : Binary64) : List Char :=
  if x.isNegative && !x.isNaN then '-' :: style.unsigned x else style.unsigned x

def label : NumeralStyle := ⟨.up, fun _ => true, []⟩

def document : NumeralStyle := ⟨.even, fun e => -5 ≤ e && e ≤ 15, ['.', '0']⟩

end NumeralStyle

end Treeline
