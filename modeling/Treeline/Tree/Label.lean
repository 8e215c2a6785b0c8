import Treeline.Number.Numeral
import Treeline.Tree.Kind

namespace Treeline

-- The label of a node: its title, and what tells it from others of its kind.

def Expression.label : Expression → String
  | .integer value => "Integer: " ++ toString value.toInt
  | .double value => "Double: " ++ String.ofList (NumeralStyle.label.write value)
  | .string value => "String: " ++ value
  | .boolean value => "Boolean: " ++ (if value then "true" else "false")
  | .identifier name => "Identifier: " ++ name
  | .unary operator _ => "UnaryOperator: " ++ operator.symbol
  | .binary operator _ _ => "BinaryOperator: " ++ operator.symbol
  | .comparison operator _ _ => "CompOperator: " ++ operator.symbol
  | .call callee _ => "MethodCall: " ++ callee

def Comparison.label (c : Comparison) : String := "CompOperator: " ++ c.operator.symbol

def Assignment.label (a : Assignment) : String := "Assignment: " ++ a.target

def Variable.label (v : Variable) : String := "VariableDeclaration: " ++ v.typeName ++ " " ++ v.name

def Block.label : String := "Block"

def Statement.label : Statement → String
  | .expression _ => "ExpressionStatement"
  | .assignment a => a.label
  | .variableDecl v => v.label
  | .returning _ => "Return"
  | .block _ => Block.label
  | .conditional .. => "Conditional"
  | .whileLoop .. => "WhileLoop"
  | .forLoop .. => "ForLoop"
  | .functionDecl returnType name _ _ => "FunctionDeclaration: " ++ returnType ++ " " ++ name
  | .classDecl name _ => "ClassDeclaration: " ++ name

def Node.label : Node → String
  | .expression e => e.label
  | .comparison c => c.label
  | .assignment a => a.label
  | .variableDecl v => v.label
  | .block _ => Block.label
  | .statement s => s.label

end Treeline
