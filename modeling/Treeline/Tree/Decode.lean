import Treeline.Document.Tagged
import Treeline.Tree.Kind

namespace Treeline

-- Trees spelled by documents. A part of a document is read once, in every role in which a tree may need it, and the
-- record around it takes the role that its field asks for.

def textField {ρ : Type} (name : String) : Fields ρ String := .one (.required name fun part => part.document.readText)

def symbolField {ρ : Type} (κ : Type) [Vocabulary κ] : Fields ρ κ :=
  .one (.required "operator" fun part => part.document.readSymbol κ)

def childField {ρ α : Type} (name : String) (read : Document → Except Fault α) : Fields ρ (Option α) :=
  .one (.place name fun part => read part.document)

def readMany {ρ α : Type} (one : ρ → Except Fault α) (document : Document) : Option (Body ρ) → Except Fault (List α)
  | some (.items items) => items.mapM fun part => one part.reading
  | _ => .error (.invalidType document.found .sequence)

namespace Expression

structure Reading where
  one : Except Fault Expression
  many : Except Fault (List Expression)

def operandField (name : String) : Fields Reading (Option Expression) := .one (.place name fun part => part.reading.one)

def comparisonFields : Fields Reading Comparison :=
  ((symbolField CompareOp).both ((operandField "left").both (operandField "right"))).map
    fun (operator, left, right) => ⟨operator, left, right⟩

def fields : ExpressionKind → Fields Reading Expression
  | .integer => (Fields.one (.required "value" fun part => part.document.readInteger)).map .integer
  | .double => (Fields.one (.required "value" fun part => part.document.readDouble)).map .double
  | .string => (textField "value").map .string
  | .boolean => (Fields.one (.required "value" fun part => part.document.readBoolean)).map .boolean
  | .identifier => (textField "name").map .identifier
  | .unary => ((symbolField UnaryOp).both (operandField "operand")).map
      fun (operator, operand) => .unary operator operand
  | .binary => ((symbolField BinaryOp).both ((operandField "left").both (operandField "right"))).map
      fun (operator, left, right) => .binary operator left right
  | .comparison => comparisonFields.map Comparison.toExpression
  | .call => ((textField "callee").both (.one (.list "arguments" fun part => part.reading.many))).map
      fun (callee, arguments) => .call callee arguments

def ofBody (kind : ExpressionKind) (body : Body Reading) : Except Fault Expression := (fields kind).read kind.title body

def title : String := "Expression"

def read (document : Document) (body : Option (Body Reading)) : Reading where
  one := do
    let (kind, body) ← tagOfBody title document body
    ofBody kind body
  many := readMany Reading.one document body

def reading : Document → Reading := Document.fold read

def ofDocument (document : Document) : Except Fault Expression := (reading document).one

end Expression

def Comparison.ofDocument (document : Document) : Except Fault Comparison :=
  Expression.comparisonFields.readUntagged ExpressionKind.comparison.title document
    (document.body? Expression.reading)

namespace Assignment

def fields {ρ : Type} : Fields ρ Assignment :=
  ((textField "target").both (childField "expression" Expression.ofDocument)).map
    fun (target, expression) => ⟨target, expression⟩

def ofDocument (document : Document) : Except Fault Assignment :=
  fields.readUntagged StatementKind.assignment.title document (document.body? fun _ => ())

end Assignment

namespace Variable

def fields {ρ : Type} : Fields ρ Variable :=
  ((textField "type_name").both ((textField "name").both (childField "assignment" Assignment.ofDocument))).map
    fun (typeName, name, assignment) => ⟨typeName, name, assignment⟩

def ofDocument (document : Document) : Except Fault Variable :=
  fields.readUntagged StatementKind.variableDecl.title document (document.body? fun _ => ())

end Variable

namespace Statement

structure Reading where
  one : Except Fault Statement
  many : Except Fault (List Statement)
  block : Except Fault Block

def expressionField (name : String) : Fields Reading (Option Expression) := childField name Expression.ofDocument

def blockField (name : String) : Fields Reading (Option Block) := .one (.place name fun part => part.reading.block)

def blockFields : Fields Reading Block := .one (.list "statements" fun part => part.reading.many)

def fields : StatementKind → Fields Reading Statement
  | .expression => (expressionField "expression").map .expression
  | .assignment => Assignment.fields.map .assignment
  | .variableDecl => Variable.fields.map .variableDecl
  | .returning => (expressionField "expression").map .returning
  | .block => blockFields.map .block
  | .conditional =>
    ((childField "condition" Comparison.ofDocument).both ((blockField "then_block").both (blockField "else_block"))).map
      fun (condition, thenBlock, elseBlock) => .conditional condition thenBlock elseBlock
  | .whileLoop => ((expressionField "condition").both ((blockField "body").both (blockField "else_block"))).map
      fun (condition, body, elseBlock) => .whileLoop condition body elseBlock
  | .forLoop =>
    ((childField "init" Assignment.ofDocument).both ((expressionField "condition").both
      ((blockField "body").both (childField "update" Assignment.ofDocument)))).map
      fun (init, condition, body, update) => .forLoop init condition body update
  | .functionDecl =>
    ((textField "return_type").both ((textField "name").both
      ((Fields.one (.list "parameters" fun part => part.document.readList Variable.ofDocument)).both
        (blockField "body")))).map
      fun (returnType, name, parameters, body) => .functionDecl returnType name parameters body
  | .classDecl => ((textField "name").both (blockField "body")).map fun (name, body) => .classDecl name body

def ofBody (kind : StatementKind) (body : Body Reading) : Except Fault Statement := (fields kind).read kind.title body

def title : String := "Statement"

def read (document : Document) (body : Option (Body Reading)) : Reading where
  one := do
    let (kind, body) ← tagOfBody title document body
    ofBody kind body
  many := readMany Reading.one document body
  block := blockFields.readUntagged StatementKind.block.title document body

def reading : Document → Reading := Document.fold read

def ofDocument (document : Document) : Except Fault Statement := (reading document).one

end Statement

end Treeline
