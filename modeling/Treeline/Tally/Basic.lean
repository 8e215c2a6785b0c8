import Treeline.Tree.Kind
import Treeline.Tree.Slot

namespace Treeline

inductive Category
  | expression
  | statement
  | declaration
deriving DecidableEq, Repr

-- Declarations are counted apart from the other statements.
def Kind.category : Kind → Category
  | .expression _ => .expression
  | .statement .variableDecl | .statement .functionDecl | .statement .classDecl => .declaration
  | .statement _ => .statement

structure Tally where
  expressions : Nat
  statements : Nat
  declarations : Nat
  maxDepth : Depth
deriving DecidableEq, Repr

namespace Tally

def empty : Tally := ⟨0, 0, 0, 0⟩

def total (tally : Tally) : Nat := tally.expressions + tally.statements + tally.declarations

-- Counts one node.
def enter (category : Category) (depth : Depth) (tally : Tally) : Tally :=
  let deepest := max tally.maxDepth depth
  match category with
  | .expression => { tally with expressions := tally.expressions + 1, maxDepth := deepest }
  | .statement => { tally with statements := tally.statements + 1, maxDepth := deepest }
  | .declaration => { tally with declarations := tally.declarations + 1, maxDepth := deepest }

end Tally

end Treeline
