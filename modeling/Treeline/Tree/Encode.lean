import Treeline.Document.Printer
import Treeline.Document.Tagged
import Treeline.Tree.Kind

namespace Treeline

-- The document of a tree: the tag first where there is one, then every field in its order. Empty places are null.

def tagEntry {κ : Type} [Vocabulary κ] (kind : κ) : String × Document :=
  (tagKey, .string (Vocabulary.spell kind))

def placeDocument {α : Type} (encode : α → Document) : Option α → Document
  | none => .null
  | some child => encode child

-- A double; documents have no spelling for what is not finite.
def Binary64.toDocument (x : Binary64) : Document := if x.isFinite then .double x else .null

mutual

def Expression.toDocument : Expression → Document
  | .integer value => .object [tagEntry ExpressionKind.integer, ("value", .integer value.toInt)]
  | .double value => .object [tagEntry ExpressionKind.double, ("value", value.toDocument)]
  | .string value => .object [tagEntry ExpressionKind.string, ("value", .string value)]
  | .boolean value => .object [tagEntry ExpressionKind.boolean, ("value", .boolean value)]
  | .identifier name => .object [tagEntry ExpressionKind.identifier, ("name", .string name)]
  | .unary operator operand => .object [tagEntry ExpressionKind.unary, ("operator", .string operator.symbol),
      ("operand", Expression.slotDocument operand)]
  | .binary operator left right => .object [tagEntry ExpressionKind.binary, ("operator", .string operator.symbol),
      ("left", Expression.slotDocument left), ("right", Expression.slotDocument right)]
  | .comparison operator left right => .object [tagEntry ExpressionKind.comparison,
      ("operator", .string operator.symbol), ("left", Expression.slotDocument left),
      ("right", Expression.slotDocument right)]
  | .call callee arguments => .object [tagEntry ExpressionKind.call, ("callee", .string callee),
      ("arguments", .array (Expression.listDocuments arguments))]
termination_by structural e => e

def Expression.slotDocument : Option Expression → Document
  | none => .null
  | some child => child.toDocument
termination_by structural e => e

def Expression.listDocuments : List Expression → List Document
  | [] => []
  | e :: es => e.toDocument :: Expression.listDocuments es
termination_by structural es => es

end

def Comparison.entries (c : Comparison) : List (String × Document) :=
  [("operator", .string c.operator.symbol), ("left", Expression.slotDocument c.left),
    ("right", Expression.slotDocument c.right)]

def Comparison.toDocument (c : Comparison) : Document := .object c.entries

def Assignment.entries (a : Assignment) : List (String × Document) :=
  [("target", .string a.target), ("expression", Expression.slotDocument a.expression)]

def Assignment.toDocument (a : Assignment) : Document := .object a.entries

def Variable.entries (v : Variable) : List (String × Document) :=
  [("type_name", .string v.typeName), ("name", .string v.name),
    ("assignment", placeDocument Assignment.toDocument v.assignment)]

def Variable.toDocument (v : Variable) : Document := .object v.entries

mutual

def Statement.toDocument : Statement → Document
  | .expression e => .object [tagEntry StatementKind.expression, ("expression", Expression.slotDocument e)]
  | .assignment a => .object (tagEntry StatementKind.assignment :: a.entries)
  | .variableDecl v => .object (tagEntry StatementKind.variableDecl :: v.entries)
  | .returning e => .object [tagEntry StatementKind.returning, ("expression", Expression.slotDocument e)]
  | .block statements => .object [tagEntry StatementKind.block,
      ("statements", .array (Statement.listDocuments statements))]
  | .conditional condition thenBlock elseBlock => .object [tagEntry StatementKind.conditional,
      ("condition", placeDocument Comparison.toDocument condition),
      ("then_block", Statement.blockDocument thenBlock), ("else_block", Statement.blockDocument elseBlock)]
  | .whileLoop condition body elseBlock => .object [tagEntry StatementKind.whileLoop,
      ("condition", Expression.slotDocument condition), ("body", Statement.blockDocument body),
      ("else_block", Statement.blockDocument elseBlock)]
  | .forLoop init condition body update => .object [tagEntry StatementKind.forLoop,
      ("init", placeDocument Assignment.toDocument init), ("condition", Expression.slotDocument condition),
      ("body", Statement.blockDocument body), ("update", placeDocument Assignment.toDocument update)]
  | .functionDecl returnType name parameters body => .object [tagEntry StatementKind.functionDecl,
      ("return_type", .string returnType), ("name", .string name),
      ("parameters", .array (parameters.map Variable.toDocument)), ("body", Statement.blockDocument body)]
  | .classDecl name body => .object [tagEntry StatementKind.classDecl, ("name", .string name),
      ("body", Statement.blockDocument body)]
termination_by structural s => s

def Statement.blockDocument : Option (List Statement) → Document
  | none => .null
  | some statements => .object [("statements", .array (Statement.listDocuments statements))]
termination_by structural b => b

def Statement.listDocuments : List Statement → List Document
  | [] => []
  | s :: ss => s.toDocument :: Statement.listDocuments ss
termination_by structural ss => ss

end

def Node.toDocument : Node → Document
  | .expression e => e.toDocument
  | .comparison c => c.toDocument
  | .assignment a => a.toDocument
  | .variableDecl v => v.toDocument
  | .block b => Statement.blockDocument (some b)
  | .statement s => s.toDocument

end Treeline
