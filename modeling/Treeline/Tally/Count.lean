import Treeline.Tally.Survey

namespace Treeline

-- Counting with numbers of any size.

abbrev Counting := Surveying Missing Tally

def enterNode (kind : Kind) (depth : Depth) : Counting := fun tally => .ok (tally.enter kind.category depth)

def Tally.surveyor : Surveyor Missing Tally := ⟨enterNode, id⟩

def Statement.count (depth : Depth) (s : Statement) : Counting := s.survey Tally.surveyor depth

def Node.count (depth : Depth) (node : Node) : Counting := node.survey Tally.surveyor depth

def Node.tally (node : Node) : Except Missing Tally := node.count Depth.root Tally.empty

end Treeline
