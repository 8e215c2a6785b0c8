namespace Treeline

-- What the program owes to the way it was built: its numbers are machine words, and it can pad a text only so far.

-- What becomes of a number that no word can hold: the program stops, or goes on with what a word holds of it.
inductive Overflow
  | stops
  | wraps
deriving DecidableEq, Repr

def Overflow.word? : Overflow → Nat → Option UInt64
  | .stops, n => if n < UInt64.size then some (.ofNat n) else none
  | .wraps, n => some (.ofNat n)

theorem Overflow.word?_of_lt (overflow : Overflow) {n : Nat} (small : n < UInt64.size) :
    overflow.word? n = some (.ofNat n) := by
  cases overflow with
  | stops => exact if_pos small
  | wraps => rfl

structure Build where
  overflow : Overflow
  -- The greatest width that a text can be padded to; a greater one stops the program.
  widest : Nat
deriving DecidableEq, Repr

end Treeline
