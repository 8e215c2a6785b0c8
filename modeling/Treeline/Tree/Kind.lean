import Treeline.Tree.Basic

namespace Treeline

inductive ExpressionKind
  | integer
  | double
  | string
  | boolean
  | identifier
  | unary
  | binary
  | comparison
  | call
deriving DecidableEq, Repr

inductive StatementKind
  | expression
  | assignment
  | variableDecl
  | returning
  | block
  | conditional
  | whileLoop
  | forLoop
  | functionDecl
  | classDecl
deriving DecidableEq, Repr

def ExpressionKind.tag : ExpressionKind → String
  | .integer => "Integer"
  | .double => "Double"
  | .string => "String"
  | .boolean => "Boolean"
  | .identifier => "Identifier"
  | .unary => "Unary"
  | .binary => "Binary"
  | .comparison => "Comparison"
  | .call => "MethodCall"

def StatementKind.tag : StatementKind → String
  | .expression => "Expression"
  | .assignment => "Assignment"
  | .variableDecl => "VariableDeclaration"
  | .returning => "Return"
  | .block => "Block"
  | .conditional => "Conditional"
  | .whileLoop => "WhileLoop"
  | .forLoop => "ForLoop"
  | .functionDecl => "FunctionDeclaration"
  | .classDecl => "ClassDeclaration"

instance : Vocabulary ExpressionKind where
  words := [.integer, .double, .string, .boolean, .identifier, .unary, .binary, .comparison, .call]
  spell := ExpressionKind.tag

instance : Vocabulary StatementKind where
  words := [.expression, .assignment, .variableDecl, .returning, .block, .conditional, .whileLoop, .forLoop,
    .functionDecl, .classDecl]
  spell := StatementKind.tag

def ExpressionKind.title : ExpressionKind → String
  | .integer => "Integer"
  | .double => "Double"
  | .string => "StringLiteral"
  | .boolean => "Boolean"
  | .identifier => "Identifier"
  | .unary => "UnaryOperator"
  | .binary => "BinaryOperator"
  | .comparison => "CompOperator"
  | .call => "MethodCall"

def StatementKind.title : StatementKind → String
  | .expression => "ExpressionStatement"
  | .assignment => "Assignment"
  | .variableDecl => "VariableDeclaration"
  | .returning => "Return"
  | .block => "Block"
  | .conditional => "Conditional"
  | .whileLoop => "WhileLoop"
  | .forLoop => "ForLoop"
  | .functionDecl => "FunctionDeclaration"
  | .classDecl => "ClassDeclaration"

def Expression.kind : Expression → ExpressionKind
  | .integer _ => .integer
  | .double _ => .double
  | .string _ => .string
  | .boolean _ => .boolean
  | .identifier _ => .identifier
  | .unary .. => .unary
  | .binary .. => .binary
  | .comparison .. => .comparison
  | .call .. => .call

def Statement.kind : Statement → StatementKind
  | .expression _ => .expression
  | .assignment _ => .assignment
  | .variableDecl _ => .variableDecl
  | .returning _ => .returning
  | .block _ => .block
  | .conditional .. => .conditional
  | .whileLoop .. => .whileLoop
  | .forLoop .. => .forLoop
  | .functionDecl .. => .functionDecl
  | .classDecl .. => .classDecl

-- The nineteen kinds of nodes.
inductive Kind
  | expression (kind : ExpressionKind)
  | statement (kind : StatementKind)
deriving DecidableEq, Repr

-- Comparisons, assignments, declarations and blocks have the kind of the expression or statement they make.
def Node.kind : Node → Kind
  | .expression e => .expression e.kind
  | .comparison _ => .expression .comparison
  | .assignment _ => .statement .assignment
  | .variableDecl _ => .statement .variableDecl
  | .block _ => .statement .block
  | .statement s => .statement s.kind

-- What a pass does with one node: exactly one operation, chosen by the node's kind, with the given scope.
def Node.dispatch {σ α : Type} (operation : Kind → σ → α) (scope : σ) (node : Node) : α := operation node.kind scope

end Treeline
