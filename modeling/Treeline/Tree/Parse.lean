import Treeline.Document.Reader.Tagged
import Treeline.Tree.Decode
import Treeline.Tree.Encode

namespace Treeline

open Document

-- The node that a text spells. A fault of the node comes before anything that follows its document.
def parseTagged {κ α : Type} [Vocabulary κ] (title : String) (ofMembers : κ → Members → Except Fault α)
    (source : String) : Except DecodeError α := do
  let ((kind, members), rest) ← (readRoot title source.toList).mapError (Stop.error source)
  let node ← (ofMembers kind members).mapError DecodeError.ofFault
  (readEnd rest).mapError (Stop.error source)
  return node

def Expression.parse : String → Except DecodeError Expression :=
  parseTagged title fun kind members => ofBody kind (members.body reading)

def Statement.parse : String → Except DecodeError Statement :=
  parseTagged title fun kind members => ofBody kind (members.body reading)

def Statement.text (statement : Statement) : String := statement.toDocument.text

def Expression.text (expression : Expression) : String := expression.toDocument.text

end Treeline
