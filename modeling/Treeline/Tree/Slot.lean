import Treeline.Document.Vocabulary

namespace Treeline

-- The places for children that a pass cannot do without.
inductive Slot
  | expression
  | operand
  | leftOperand
  | rightOperand
  | condition
  | body
  | initializer
  | update
deriving DecidableEq, Repr

def Slot.name : Slot → String
  | .expression => "expression"
  | .operand => "operand"
  | .leftOperand => "left operand"
  | .rightOperand => "right operand"
  | .condition => "condition"
  | .body => "body"
  | .initializer => "initializer"
  | .update => "update"

instance : Vocabulary Slot where
  words := [.expression, .operand, .leftOperand, .rightOperand, .condition, .body, .initializer, .update]
  spell := Slot.name

-- A child that a pass needed and did not find; the node is told by its label.
structure Missing where
  node : String
  slot : Slot
deriving DecidableEq, Repr

def Missing.message (missing : Missing) : String := missing.node ++ " is missing its " ++ missing.slot.name

abbrev Depth := Nat

def Depth.root : Depth := 0

abbrev Depth.deeper (depth : Depth) : Depth := depth + 1

end Treeline
