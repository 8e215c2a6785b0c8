namespace Treeline

-- All arithmetic on doubles is exact arithmetic on naturals followed by one rounding.
structure Binary64 where
  bits : UInt64
deriving DecidableEq, Repr

namespace Binary64

def signBit : Nat := 0x8000000000000000

def hiddenBit : Nat := 0x10000000000000

def infiniteMagnitude : Nat := 2047 * hiddenBit

def isNegative (x : Binary64) : Bool := signBit ≤ x.bits.toNat

def magnitude (x : Binary64) : Nat := x.bits.toNat % signBit

def isNaN (x : Binary64) : Bool := infiniteMagnitude < x.magnitude

def isInfinite (x : Binary64) : Bool := x.magnitude = infiniteMagnitude

def isFinite (x : Binary64) : Bool := x.magnitude < infiniteMagnitude

def isZero (x : Binary64) : Bool := x.magnitude = 0

-- Equality of the numbers: a NaN equals nothing, and the two zeros are equal.
def equal (x y : Binary64) : Bool :=
  !x.isNaN && !y.isNaN && (x.bits == y.bits || (x.isZero && y.isZero))

def exponentField (x : Binary64) : Nat := x.magnitude / hiddenBit

def fractionField (x : Binary64) : Nat := x.magnitude % hiddenBit

def significand (x : Binary64) : Nat :=
  if x.exponentField = 0 then x.fractionField else hiddenBit + x.fractionField

def scale (x : Binary64) : Nat := x.exponentField - 1

def unit : Nat := Nat.pow 2 1074

def numerator (x : Binary64) : Nat := x.significand * Nat.pow 2 x.scale

def ofMagnitude (negative : Bool) (magnitude : Nat) : Binary64 :=
  ⟨UInt64.ofNat (if negative then signBit + magnitude else magnitude)⟩

def negate (x : Binary64) : Binary64 := ofMagnitude (!x.isNegative) x.magnitude

def roundDiv (a b : Nat) : Nat :=
  let quotient := a / b
  let twice := 2 * (a % b)
  if twice < b then quotient
  else if b < twice then quotient + 1
  else quotient + quotient % 2

-- The magnitude nearest to `a / b`, ties to even. A significand rounded up to 54 bits carries into the exponent by the
-- addition alone.
def nearestMagnitude (a b : Nat) : Nat :=
  let scaled := a * unit
  let scale := (scaled / b).log2 - 52
  min (scale * hiddenBit + roundDiv scaled (b * Nat.pow 2 scale)) infiniteMagnitude

def ofRatio (a b : Nat) : Binary64 := ofMagnitude false (nearestMagnitude a b)

def ofNat (n : Nat) : Binary64 := ofRatio n 1

def ofInt (i : Int) : Binary64 :=
  if i < 0 then (ofNat i.natAbs).negate else ofNat i.natAbs

def mul (x y : Binary64) : Binary64 := ofRatio (x.numerator * y.numerator) (unit * unit)

def div (x y : Binary64) : Binary64 := ofRatio x.numerator y.numerator

def powerOfTen (n : Nat) : Binary64 := ofNat (Nat.pow 10 n)

def greatestPowerOfTen : Nat := 308

-- Division by a power of ten, 10 ^ 308 at a time, each step rounded. Two full steps take every 64-bit significand
-- below the smallest double, so what needs a third step is zero.
def divPowerOfTen (x : Binary64) (n : Nat) : Binary64 :=
  if n ≤ greatestPowerOfTen then x.div (powerOfTen n)
  else
    let once := x.div (powerOfTen greatestPowerOfTen)
    let left := n - greatestPowerOfTen
    if left ≤ greatestPowerOfTen then once.div (powerOfTen left) else ofNat 0

-- The double that a 64-bit significand and a decimal exponent stand for, or nothing if it would be infinite. The
-- significand is rounded first and the scaled value again, so this is not always the nearest double.
def ofDecimal? (significand : Nat) (exponent : Int) : Option Binary64 :=
  let x := ofNat significand
  if exponent < 0 then some (x.divPowerOfTen exponent.natAbs)
  else if x.isZero then some x
  else if exponent.natAbs ≤ greatestPowerOfTen then
    let product := x.mul (powerOfTen exponent.natAbs)
    if product.isInfinite then none else some product
  else none

end Binary64

end Treeline
