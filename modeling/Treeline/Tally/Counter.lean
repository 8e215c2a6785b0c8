import Treeline.Build
import Treeline.Tally.Survey

namespace Treeline

-- Counting with machine words.

structure Counter where
  expressions : UInt64
  statements : UInt64
  declarations : UInt64
  maxDepth : UInt64
deriving DecidableEq, Repr

inductive CountFault
  | missing (missing : Missing)
  | overflow
deriving DecidableEq, Repr

namespace Counter

def new : Counter := ⟨0, 0, 0, 0⟩

def get (counter : Counter) : Category → UInt64
  | .expression => counter.expressions
  | .statement => counter.statements
  | .declaration => counter.declarations

def set (counter : Counter) (count : UInt64) : Category → Counter
  | .expression => { counter with expressions := count }
  | .statement => { counter with statements := count }
  | .declaration => { counter with declarations := count }

def enter? (overflow : Overflow) (category : Category) (depth : Depth) (counter : Counter) : Option Counter := do
  let reached ← overflow.word? depth
  let count ← overflow.word? ((counter.get category).toNat + 1)
  return { counter.set count category with maxDepth := max counter.maxDepth reached }

def surveyor (overflow : Overflow) : Surveyor CountFault Counter where
  enter kind depth counter := (counter.enter? overflow kind.category depth).elim (.error .overflow) .ok
  missing := .missing

end Counter

end Treeline
