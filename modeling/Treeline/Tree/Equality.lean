import Treeline.Tree.Basic

namespace Treeline

-- Equality of trees. Doubles are compared as numbers, so a tree that holds a NaN differs from itself and the two zeros
-- are the same.

mutual

def Expression.equal : Expression → Expression → Bool
  | .integer a, .integer b => a == b
  | .double a, .double b => a.equal b
  | .string a, .string b => a == b
  | .boolean a, .boolean b => a == b
  | .identifier a, .identifier b => a == b
  | .unary p a, .unary q b => p == q && Expression.equalSlot a b
  | .binary p a c, .binary q b d => p == q && Expression.equalSlot a b && Expression.equalSlot c d
  | .comparison p a c, .comparison q b d => p == q && Expression.equalSlot a b && Expression.equalSlot c d
  | .call f as, .call g bs => f == g && Expression.equalList as bs
  | _, _ => false
termination_by structural e => e

def Expression.equalSlot : Option Expression → Option Expression → Bool
  | none, none => true
  | some a, some b => a.equal b
  | _, _ => false
termination_by structural e => e

def Expression.equalList : List Expression → List Expression → Bool
  | [], [] => true
  | a :: as, b :: bs => a.equal b && Expression.equalList as bs
  | _, _ => false
termination_by structural es => es

end

-- Equality of two places for a child, given equality of children.
def equalPlaces {α : Type} (equal : α → α → Bool) : Option α → Option α → Bool
  | none, none => true
  | some a, some b => equal a b
  | _, _ => false

-- Equality of two lists of children, given equality of children.
def equalLists {α : Type} (equal : α → α → Bool) : List α → List α → Bool
  | [], [] => true
  | a :: as, b :: bs => equal a b && equalLists equal as bs
  | _, _ => false

def Comparison.equal (a b : Comparison) : Bool := a.toExpression.equal b.toExpression

def Assignment.equal (a b : Assignment) : Bool :=
  a.target == b.target && Expression.equalSlot a.expression b.expression

def Variable.equal (a b : Variable) : Bool :=
  a.typeName == b.typeName && a.name == b.name && equalPlaces Assignment.equal a.assignment b.assignment

mutual

def Statement.equal : Statement → Statement → Bool
  | .expression a, .expression b => Expression.equalSlot a b
  | .assignment a, .assignment b => a.equal b
  | .variableDecl a, .variableDecl b => a.equal b
  | .returning a, .returning b => Expression.equalSlot a b
  | .block as, .block bs => Statement.equalList as bs
  | .conditional a c e, .conditional b d f =>
    equalPlaces Comparison.equal a b && Statement.equalBlock c d && Statement.equalBlock e f
  | .whileLoop a c e, .whileLoop b d f =>
    Expression.equalSlot a b && Statement.equalBlock c d && Statement.equalBlock e f
  | .forLoop a c e g, .forLoop b d f h =>
    equalPlaces Assignment.equal a b && Expression.equalSlot c d && Statement.equalBlock e f &&
      equalPlaces Assignment.equal g h
  | .functionDecl r m ps a, .functionDecl s n qs b =>
    r == s && m == n && equalLists Variable.equal ps qs && Statement.equalBlock a b
  | .classDecl m a, .classDecl n b => m == n && Statement.equalBlock a b
  | _, _ => false
termination_by structural s => s

def Statement.equalBlock : Option (List Statement) → Option (List Statement) → Bool
  | none, none => true
  | some as, some bs => Statement.equalList as bs
  | _, _ => false
termination_by structural s => s

def Statement.equalList : List Statement → List Statement → Bool
  | [], [] => true
  | a :: as, b :: bs => a.equal b && Statement.equalList as bs
  | _, _ => false
termination_by structural ss => ss

end

def Node.equal : Node → Node → Bool
  | .expression a, .expression b => a.equal b
  | .comparison a, .comparison b => a.equal b
  | .assignment a, .assignment b => a.equal b
  | .variableDecl a, .variableDecl b => a.equal b
  | .block a, .block b => Statement.equalList a b
  | .statement a, .statement b => a.equal b
  | _, _ => false

end Treeline
