import Treeline.Number.Binary64
import Treeline.Tree.Operator

namespace Treeline

-- Syntax trees. Every place for a single child may be empty: an unfinished tree is still a tree, and only the passes
-- over it insist on the children they need.

inductive Expression
  | integer (value : Int64)
  | double (value : Binary64)
  | string (value : String)
  | boolean (value : Bool)
  | identifier (name : String)
  | unary (operator : UnaryOp) (operand : Option Expression)
  | binary (operator : BinaryOp) (left right : Option Expression)
  | comparison (operator : CompareOp) (left right : Option Expression)
  | call (callee : String) (arguments : List Expression)

structure Comparison where
  operator : CompareOp
  left : Option Expression
  right : Option Expression

structure Assignment where
  target : String
  expression : Option Expression

-- The declaration of a variable; also a parameter of a function.
structure Variable where
  typeName : String
  name : String
  assignment : Option Assignment

inductive Statement
  | expression (expression : Option Expression)
  | assignment (assignment : Assignment)
  | variableDecl (declared : Variable)
  | returning (expression : Option Expression)
  | block (statements : List Statement)
  | conditional (condition : Option Comparison) (thenBlock elseBlock : Option (List Statement))
  | whileLoop (condition : Option Expression) (body elseBlock : Option (List Statement))
  | forLoop (init : Option Assignment) (condition : Option Expression) (body : Option (List Statement))
      (update : Option Assignment)
  | functionDecl (returnType name : String) (parameters : List Variable) (body : Option (List Statement))
  | classDecl (name : String) (body : Option (List Statement))

abbrev Block := List Statement

def Comparison.toExpression (c : Comparison) : Expression := .comparison c.operator c.left c.right

inductive Node
  | expression (expression : Expression)
  | comparison (comparison : Comparison)
  | assignment (assignment : Assignment)
  | variableDecl (declared : Variable)
  | block (block : Block)
  | statement (statement : Statement)

end Treeline
