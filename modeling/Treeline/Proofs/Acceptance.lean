import Treeline.Proofs.Depth
import Treeline.Proofs.Grammar
import Treeline.Proofs.Json

namespace Treeline

open Document

-- Texts are read by the grammar, however they are written, as long as all their tokens can be held.

namespace Json

def Blanks.none : Blanks := ⟨[], List.forall_mem_nil _⟩

-- A text that needs no escapes.
def Piece.plains (text : String) (visible : text.toList.all isUnescaped = true) : List Piece :=
  text.toList.pmap .plain (List.all_eq_true.mp visible)

def Value.word (text : String) (visible : text.toList.all isUnescaped = true := by decide +kernel) : Value :=
  .token (.string (Piece.plains text visible))

def Entries.member (key : String) (value : Value) (more : Entries)
    (visible : key.toList.all isUnescaped = true := by decide +kernel) : Entries :=
  .entry .none (Piece.plains key visible) .none .none value .none more

end Json

end Treeline
