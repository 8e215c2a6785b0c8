import Treeline.Tree.Equality
import Treeline.Tree.Label

namespace Treeline.Assembly

-- A value on the stack: a node, or nothing, for a place that stays empty.
abbrev Value := Option Node

def Value.typeName : Value → String
  | none => "none"
  | some (.expression _) => "expression"
  | some (.comparison _) => "comparison"
  | some (.assignment _) => "assignment"
  | some (.variableDecl _) => "variable"
  | some (.block _) => "block"
  | some (.statement _) => "statement"

def Value.label : Value → String
  | none => ""
  | some node => node.label

def Value.equal : Value → Value → Bool
  | none, none => true
  | some a, some b => a.equal b
  | _, _ => false

-- What a value stands for where a certain kind of child is asked for; nothing if it does not fit.

def Value.expression? : Value → Option Expression
  | some (.expression e) => some e
  | some (.comparison c) => some c.toExpression
  | _ => none

def Value.expressionPlace? : Value → Option (Option Expression)
  | none => some none
  | value => value.expression?.map some

def Value.comparisonPlace? : Value → Option (Option Comparison)
  | none => some none
  | some (.comparison c) => some (some c)
  | _ => none

def Value.blockPlace? : Value → Option (Option Block)
  | none => some none
  | some (.block b) => some (some b)
  | _ => none

def Value.assignmentPlace? : Value → Option (Option Assignment)
  | none => some none
  | some (.assignment a) => some (some a)
  | _ => none

def Value.variable? : Value → Option Variable
  | some (.variableDecl v) => some v
  | _ => none

def Value.statement? : Value → Option Statement
  | some (.statement s) => some s
  | some (.expression e) => some (.expression (some e))
  | some (.block b) => some (.block b)
  | some (.assignment a) => some (.assignment a)
  | some (.variableDecl v) => some (.variableDecl v)
  | _ => none

end Treeline.Assembly
