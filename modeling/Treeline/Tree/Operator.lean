import Treeline.Document.Vocabulary

namespace Treeline

inductive UnaryOp
  | minus
  | not
deriving DecidableEq, Repr

inductive BinaryOp
  | add
  | subtract
  | multiply
  | divide
  | modulo
  | and
  | or
deriving DecidableEq, Repr

inductive CompareOp
  | less
  | lessEqual
  | greater
  | greaterEqual
  | equal
  | notEqual
deriving DecidableEq, Repr

def UnaryOp.symbol : UnaryOp → String
  | .minus => "-"
  | .not => "!"

def BinaryOp.symbol : BinaryOp → String
  | .add => "+"
  | .subtract => "-"
  | .multiply => "*"
  | .divide => "/"
  | .modulo => "%"
  | .and => "&&"
  | .or => "||"

def CompareOp.symbol : CompareOp → String
  | .less => "<"
  | .lessEqual => "<="
  | .greater => ">"
  | .greaterEqual => ">="
  | .equal => "=="
  | .notEqual => "!="

instance : Vocabulary UnaryOp where
  words := [.minus, .not]
  spell := UnaryOp.symbol

instance : Vocabulary BinaryOp where
  words := [.add, .subtract, .multiply, .divide, .modulo, .and, .or]
  spell := BinaryOp.symbol

instance : Vocabulary CompareOp where
  words := [.less, .lessEqual, .greater, .greaterEqual, .equal, .notEqual]
  spell := CompareOp.symbol

end Treeline
