import Mathlib.Data.List.Forall2
import Mathlib.Data.List.Nodup
import Treeline.Proofs.Reparse

namespace Treeline

open Document

-- How nodes are laid out as records: the fields of every kind in their order, and what they hold.

-- The part that a document plays in a tree. Expressions and statements tell their kind by a tag; where one of the
-- others is expected, only one kind can stand.
inductive Role
  | expression
  | comparison
  | assignment
  | variableDecl
  | block
  | statement
deriving DecidableEq, Repr

def Role.isTagged : Role → Bool
  | .expression | .statement => true
  | _ => false

def Node.role : Node → Role
  | .expression _ => .expression
  | .comparison _ => .comparison
  | .assignment _ => .assignment
  | .variableDecl _ => .variableDecl
  | .block _ => .block
  | .statement _ => .statement

def Kind.tag : Kind → String
  | .expression kind => kind.tag
  | .statement kind => kind.tag

-- What a field may hold: a value of its own, a place for a child, or a list of children.
inductive Content
  | scalar
  | place (role : Role)
  | list (role : Role)
deriving DecidableEq, Repr

def ExpressionKind.layout : ExpressionKind → List (String × Content)
  | .integer | .double | .string | .boolean => [("value", .scalar)]
  | .identifier => [("name", .scalar)]
  | .unary => [("operator", .scalar), ("operand", .place .expression)]
  | .binary | .comparison => [("operator", .scalar), ("left", .place .expression), ("right", .place .expression)]
  | .call => [("callee", .scalar), ("arguments", .list .expression)]

def StatementKind.layout : StatementKind → List (String × Content)
  | .expression | .returning => [("expression", .place .expression)]
  | .assignment => [("target", .scalar), ("expression", .place .expression)]
  | .variableDecl => [("type_name", .scalar), ("name", .scalar), ("assignment", .place .assignment)]
  | .block => [("statements", .list .statement)]
  | .conditional => [("condition", .place .comparison), ("then_block", .place .block), ("else_block", .place .block)]
  | .whileLoop => [("condition", .place .expression), ("body", .place .block), ("else_block", .place .block)]
  | .forLoop => [("init", .place .assignment), ("condition", .place .expression), ("body", .place .block),
      ("update", .place .assignment)]
  | .functionDecl => [("return_type", .scalar), ("name", .scalar), ("parameters", .list .variableDecl),
      ("body", .place .block)]
  | .classDecl => [("name", .scalar), ("body", .place .block)]

def Kind.layout : Kind → List (String × Content)
  | .expression kind => kind.layout
  | .statement kind => kind.layout

-- The value of one field of a node.
inductive Value
  | text (value : String)
  | word (spelling : String)
  | boolean (value : Bool)
  | integer (value : Int64)
  | double (value : Binary64)
  | place (child : Option Node)
  | list (children : List Node)

def Expression.record : Expression → List (String × Value)
  | .integer value => [("value", .integer value)]
  | .double value => [("value", .double value)]
  | .string value => [("value", .text value)]
  | .boolean value => [("value", .boolean value)]
  | .identifier name => [("name", .text name)]
  | .unary operator operand => [("operator", .word operator.symbol), ("operand", .place (operand.map .expression))]
  | .binary operator left right => [("operator", .word operator.symbol), ("left", .place (left.map .expression)),
      ("right", .place (right.map .expression))]
  | .comparison operator left right => [("operator", .word operator.symbol), ("left", .place (left.map .expression)),
      ("right", .place (right.map .expression))]
  | .call callee arguments => [("callee", .text callee), ("arguments", .list (arguments.map .expression))]

def Assignment.record (a : Assignment) : List (String × Value) :=
  [("target", .text a.target), ("expression", .place (a.expression.map .expression))]

def Variable.record (v : Variable) : List (String × Value) :=
  [("type_name", .text v.typeName), ("name", .text v.name), ("assignment", .place (v.assignment.map .assignment))]

def Block.record (statements : Block) : List (String × Value) :=
  [("statements", .list (List.map .statement statements))]

def Statement.record : Statement → List (String × Value)
  | .expression e | .returning e => [("expression", .place (e.map .expression))]
  | .assignment a => a.record
  | .variableDecl v => v.record
  | .block statements => Block.record statements
  | .conditional condition thenBlock elseBlock => [("condition", .place (condition.map .comparison)),
      ("then_block", .place (thenBlock.map .block)), ("else_block", .place (elseBlock.map .block))]
  | .whileLoop condition body elseBlock => [("condition", .place (condition.map .expression)),
      ("body", .place (body.map .block)), ("else_block", .place (elseBlock.map .block))]
  | .forLoop init condition body update => [("init", .place (init.map .assignment)),
      ("condition", .place (condition.map .expression)), ("body", .place (body.map .block)),
      ("update", .place (update.map .assignment))]
  | .functionDecl returnType name parameters body => [("return_type", .text returnType), ("name", .text name),
      ("parameters", .list (parameters.map .variableDecl)), ("body", .place (body.map .block))]
  | .classDecl name body => [("name", .text name), ("body", .place (body.map .block))]

-- The fields of a node with their values.
def Node.record : Node → List (String × Value)
  | .expression e => e.record
  | .comparison c => c.toExpression.record
  | .assignment a => a.record
  | .variableDecl v => v.record
  | .block b => Block.record b
  | .statement s => s.record

-- A value is of the sort that the layout gives, and its children are of the role that it names.
inductive Value.Suits : Value → Content → Prop
  | text (value : String) : Suits (.text value) .scalar
  | word (spelling : String) : Suits (.word spelling) .scalar
  | boolean (value : Bool) : Suits (.boolean value) .scalar
  | integer (value : Int64) : Suits (.integer value) .scalar
  | double (value : Binary64) : Suits (.double value) .scalar
  | place {child : Option Node} {role : Role} (fits : ∀ node ∈ child, node.role = role) :
      Suits (.place child) (.place role)
  | list {children : List Node} {role : Role} (fits : ∀ node ∈ children, node.role = role) :
      Suits (.list children) (.list role)

-- A record follows a layout, field by field.
abbrev Follows : List (String × Value) → List (String × Content) → Prop :=
  List.Forall₂ fun field slot => field.1 = slot.1 ∧ field.2.Suits slot.2

namespace Value.Suits

variable {α : Type} (wrap : α → Node) {role : Role}

theorem ofPlace (fits : ∀ child, (wrap child).role = role) (child : Option α) :
    Suits (.place (child.map wrap)) (.place role) := by
  apply Suits.place
  intro node present
  obtain ⟨inner, -, rfl⟩ := Option.map_eq_some_iff.mp present
  exact fits inner

theorem ofList (fits : ∀ child, (wrap child).role = role) (children : List α) :
    Suits (.list (children.map wrap)) (.list role) := by
  apply Suits.list
  intro node present
  obtain ⟨inner, -, rfl⟩ := List.mem_map.mp present
  exact fits inner

end Value.Suits

section Following

open Value

theorem Expression.record_follows (e : Expression) : Follows e.record e.kind.layout := by
  have operand : ∀ child : Option Expression, Suits (.place (child.map .expression)) (.place .expression) :=
    Suits.ofPlace Node.expression fun _ => rfl
  cases e with
  | integer value => exact .cons ⟨rfl, .integer value⟩ .nil
  | double value => exact .cons ⟨rfl, .double value⟩ .nil
  | string value => exact .cons ⟨rfl, .text value⟩ .nil
  | boolean value => exact .cons ⟨rfl, .boolean value⟩ .nil
  | identifier name => exact .cons ⟨rfl, .text name⟩ .nil
  | unary operator child => exact .cons ⟨rfl, .word _⟩ (.cons ⟨rfl, operand child⟩ .nil)
  | binary operator left right | comparison operator left right =>
    exact .cons ⟨rfl, .word _⟩ (.cons ⟨rfl, operand left⟩ (.cons ⟨rfl, operand right⟩ .nil))
  | call callee arguments =>
    exact .cons ⟨rfl, .text callee⟩ (.cons ⟨rfl, Suits.ofList Node.expression (fun _ => rfl) arguments⟩ .nil)

theorem Assignment.record_follows (a : Assignment) : Follows a.record StatementKind.assignment.layout :=
  .cons ⟨rfl, .text _⟩ (.cons ⟨rfl, Suits.ofPlace Node.expression (fun _ => rfl) a.expression⟩ .nil)

theorem Variable.record_follows (v : Variable) : Follows v.record StatementKind.variableDecl.layout :=
  .cons ⟨rfl, .text _⟩ (.cons ⟨rfl, .text _⟩
    (.cons ⟨rfl, Suits.ofPlace Node.assignment (fun _ => rfl) v.assignment⟩ .nil))

theorem Block.record_follows (statements : Block) : Follows (Block.record statements) StatementKind.block.layout :=
  .cons ⟨rfl, Suits.ofList Node.statement (fun _ => rfl) statements⟩ .nil

theorem Statement.record_follows (s : Statement) : Follows s.record s.kind.layout := by
  have operand : ∀ child : Option Expression, Suits (.place (child.map .expression)) (.place .expression) :=
    Suits.ofPlace Node.expression fun _ => rfl
  have assigned : ∀ child : Option Assignment, Suits (.place (child.map .assignment)) (.place .assignment) :=
    Suits.ofPlace Node.assignment fun _ => rfl
  have inner : ∀ child : Option Block, Suits (.place (child.map .block)) (.place .block) :=
    Suits.ofPlace Node.block fun _ => rfl
  cases s with
  | expression e | returning e => exact .cons ⟨rfl, operand e⟩ .nil
  | assignment a => exact a.record_follows
  | variableDecl v => exact v.record_follows
  | block statements => exact Block.record_follows statements
  | conditional condition thenBlock elseBlock =>
    exact .cons ⟨rfl, Suits.ofPlace Node.comparison (fun _ => rfl) condition⟩
      (.cons ⟨rfl, inner thenBlock⟩ (.cons ⟨rfl, inner elseBlock⟩ .nil))
  | whileLoop condition body elseBlock =>
    exact .cons ⟨rfl, operand condition⟩ (.cons ⟨rfl, inner body⟩ (.cons ⟨rfl, inner elseBlock⟩ .nil))
  | forLoop init condition body update =>
    exact .cons ⟨rfl, assigned init⟩
      (.cons ⟨rfl, operand condition⟩ (.cons ⟨rfl, inner body⟩ (.cons ⟨rfl, assigned update⟩ .nil)))
  | functionDecl returnType name parameters body =>
    exact .cons ⟨rfl, .text returnType⟩ (.cons ⟨rfl, .text name⟩
      (.cons ⟨rfl, Suits.ofList Node.variableDecl (fun _ => rfl) parameters⟩ (.cons ⟨rfl, inner body⟩ .nil)))
  | classDecl name body => exact .cons ⟨rfl, .text name⟩ (.cons ⟨rfl, inner body⟩ .nil)

theorem Node.record_follows (node : Node) : Follows node.record node.kind.layout := by
  cases node with
  | expression e => exact e.record_follows
  | comparison c => exact c.toExpression.record_follows
  | assignment a => exact a.record_follows
  | variableDecl v => exact v.record_follows
  | block b => exact Block.record_follows b
  | statement s => exact s.record_follows

end Following

-- No field is called like the tag.
theorem Kind.tagKey_not_mem_layout (kind : Kind) : ∀ slot ∈ kind.layout, slot.1 ≠ tagKey := by
  rcases kind with kind | kind <;> cases kind <;>
    simp [Kind.layout, ExpressionKind.layout, StatementKind.layout, tagKey]

-- No two fields of a kind are called alike.
theorem Kind.nodup_layout (kind : Kind) : (kind.layout.map Prod.fst).Nodup := by
  rcases kind with kind | kind <;> cases kind <;> simp [Kind.layout, ExpressionKind.layout, StatementKind.layout]

end Treeline
