import Treeline.Number.Binary64

namespace Treeline

-- Decimal digits, the first one standing for a multiple of `10 ^ exponent`, without trailing zeros.
structure Decimal where
  digits : List Char
  exponent : Int
deriving DecidableEq, Repr

inductive Tie
  | up
  | even
deriving DecidableEq, Repr

namespace Decimal

def reaches (e : Int) (a b : Nat) : Bool :=
  if 0 ≤ e then Nat.pow 10 e.natAbs * b ≤ a else b ≤ a * Nat.pow 10 e.natAbs

def leadingExponent (a b : Nat) : Int :=
  let guess : Int := (Nat.toDigits 10 a).length - (Nat.toDigits 10 b).length
  if reaches guess a b then guess else guess - 1

def ratio (c : Nat) (e : Int) : Nat × Nat :=
  if 0 ≤ e then (c * Nat.pow 10 e.natAbs, 1) else (c, Nat.pow 10 e.natAbs)

def ofScaled (c : Nat) (e : Int) : Decimal :=
  let digits := Nat.toDigits 10 c
  ⟨(digits.reverse.dropWhile (· == '0')).reverse, e + digits.length - 1⟩

end Decimal

namespace Binary64

-- Over the denominator `4 * unit`. Below a power of two the neighbours stand twice as close.
def roundingInterval (x : Binary64) : Nat × Nat :=
  let step := Nat.pow 2 x.scale
  let below := if x.fractionField = 0 ∧ 1 < x.exponentField then step else 2 * step
  (4 * x.numerator - below, 4 * x.numerator + 2 * step)

def covers (x : Binary64) (c : Nat) (e : Int) : Bool :=
  let (low, high) := x.roundingInterval
  let (a, b) := Decimal.ratio c e
  let value := a * (4 * unit)
  if x.significand % 2 = 0 then low * b ≤ value && value ≤ high * b
  else low * b < value && value < high * b

-- The multiple of `10 ^ e` nearest to `x`, if one rounds to `x`: only the two neighbours of `x` among them can.
def onGrid? (tie : Tie) (x : Binary64) (e : Int) : Option Decimal :=
  let (a, b) := Decimal.ratio 1 e
  let below := x.numerator * b / (unit * a)
  let above := below + 1
  match x.covers below e, x.covers above e with
  | false, false => none
  | true, false => some (.ofScaled below e)
  | false, true => some (.ofScaled above e)
  | true, true =>
    let value := 2 * x.numerator * b
    let middle := (below + above) * (unit * a)
    let takeAbove := middle < value || (value = middle && (tie = .up || below % 2 = 1))
    some (.ofScaled (if takeAbove then above else below) e)

-- Grids of one digit, two digits and so on are tried; seventeen digits always suffice.
def shortest (tie : Tie) (x : Binary64) : Decimal :=
  let leading := Decimal.leadingExponent x.numerator unit
  ((List.range 17).findSome? fun (n : Nat) => x.onGrid? tie (leading - n)).getD ⟨[], 0⟩

end Binary64

end Treeline
