import Treeline.Tally.Basic
import Treeline.Tree.Label

namespace Treeline

-- The counting pass. Every child is one level deeper than its parent, also where the printing pass keeps the level, and
-- parameters are counted with their initial values. The numbers that are counted with are left open.

-- From what was gathered so far to what is gathered after it, unless something ends the pass.
abbrev Surveying (ε σ : Type) := σ → Except ε σ

-- What a pass does where it comes to a node, and where it misses a child.
structure Surveyor (ε σ : Type) where
  enter : Kind → Depth → Surveying ε σ
  missing : Missing → ε

variable {ε σ : Type}

def Surveying.andThen (first second : Surveying ε σ) : Surveying ε σ := fun gathered => first gathered >>= second

def skipNode : Surveying ε σ := .ok

def Surveyor.stop (surveyor : Surveyor ε σ) (missing : Missing) : Surveying ε σ := fun _ =>
  .error (surveyor.missing missing)

def surveyOptional {α : Type} (survey : α → Surveying ε σ) : Option α → Surveying ε σ
  | none => skipNode
  | some child => survey child

def surveyRequired {α : Type} (absent : Surveying ε σ) (survey : α → Surveying ε σ) : Option α → Surveying ε σ
  | none => absent
  | some child => survey child

variable (surveyor : Surveyor ε σ)

mutual

def Expression.survey (depth : Depth) (e : Expression) : Surveying ε σ :=
  (surveyor.enter (.expression e.kind) depth).andThen
    (match e with
    | .integer _ | .double _ | .string _ | .boolean _ | .identifier _ => skipNode
    | .unary _ operand => Expression.surveySlot depth.deeper ⟨e.label, .operand⟩ operand
    | .binary _ left right | .comparison _ left right =>
      (Expression.surveySlot depth.deeper ⟨e.label, .leftOperand⟩ left).andThen
        (Expression.surveySlot depth.deeper ⟨e.label, .rightOperand⟩ right)
    | .call _ arguments => Expression.surveyList depth.deeper arguments)
termination_by structural e

def Expression.surveySlot (depth : Depth) (missing : Missing) : Option Expression → Surveying ε σ
  | none => surveyor.stop missing
  | some child => child.survey depth
termination_by structural slot => slot

def Expression.surveyList (depth : Depth) : List Expression → Surveying ε σ
  | [] => skipNode
  | e :: es => (e.survey depth).andThen (Expression.surveyList depth es)
termination_by structural es => es

end

def Comparison.survey (depth : Depth) (c : Comparison) : Surveying ε σ := c.toExpression.survey surveyor depth

def Assignment.surveyBelow (depth : Depth) (a : Assignment) : Surveying ε σ :=
  Expression.surveySlot surveyor depth.deeper ⟨a.label, .expression⟩ a.expression

def Assignment.survey (depth : Depth) (a : Assignment) : Surveying ε σ :=
  (surveyor.enter (.statement .assignment) depth).andThen (a.surveyBelow surveyor depth)

def Variable.surveyBelow (depth : Depth) (v : Variable) : Surveying ε σ :=
  surveyOptional (Assignment.survey surveyor depth.deeper) v.assignment

def Variable.survey (depth : Depth) (v : Variable) : Surveying ε σ :=
  (surveyor.enter (.statement .variableDecl) depth).andThen (v.surveyBelow surveyor depth)

def surveyParameters (depth : Depth) : List Variable → Surveying ε σ
  | [] => skipNode
  | v :: vs => (v.survey surveyor depth).andThen (surveyParameters depth vs)

mutual

def Statement.survey (depth : Depth) (s : Statement) : Surveying ε σ :=
  (surveyor.enter (.statement s.kind) depth).andThen
    (match s with
    | .expression e => Expression.surveySlot surveyor depth.deeper ⟨s.label, .expression⟩ e
    | .assignment a => a.surveyBelow surveyor depth
    | .variableDecl v => v.surveyBelow surveyor depth
    | .returning e => surveyOptional (Expression.survey surveyor depth.deeper) e
    | .block statements => Statement.surveyList depth.deeper statements
    | .conditional condition thenBlock elseBlock =>
      (surveyRequired (surveyor.stop ⟨s.label, .condition⟩) (Comparison.survey surveyor depth.deeper) condition).andThen
        ((Statement.surveyBlock depth.deeper skipNode thenBlock).andThen
          (Statement.surveyBlock depth.deeper skipNode elseBlock))
    | .whileLoop condition body elseBlock =>
      (Expression.surveySlot surveyor depth.deeper ⟨s.label, .condition⟩ condition).andThen
        ((Statement.surveyBlock depth.deeper (surveyor.stop ⟨s.label, .body⟩) body).andThen
          (Statement.surveyBlock depth.deeper skipNode elseBlock))
    | .forLoop init condition body update =>
      (surveyRequired (surveyor.stop ⟨s.label, .initializer⟩) (Assignment.survey surveyor depth.deeper) init).andThen
        ((Expression.surveySlot surveyor depth.deeper ⟨s.label, .condition⟩ condition).andThen
          ((Statement.surveyBlock depth.deeper (surveyor.stop ⟨s.label, .body⟩) body).andThen
            (surveyRequired (surveyor.stop ⟨s.label, .update⟩) (Assignment.survey surveyor depth.deeper) update)))
    | .functionDecl _ _ parameters body =>
      (surveyParameters surveyor depth.deeper parameters).andThen
        (Statement.surveyBlock depth.deeper (surveyor.stop ⟨s.label, .body⟩) body)
    | .classDecl _ body => Statement.surveyBlock depth.deeper skipNode body)
termination_by structural s

def Statement.surveyBlock (depth : Depth) (absent : Surveying ε σ) : Option (List Statement) → Surveying ε σ
  | none => absent
  | some statements =>
    (surveyor.enter (.statement .block) depth).andThen (Statement.surveyList depth.deeper statements)
termination_by structural block => block

def Statement.surveyList (depth : Depth) : List Statement → Surveying ε σ
  | [] => skipNode
  | s :: ss => (s.survey depth).andThen (Statement.surveyList depth ss)
termination_by structural ss => ss

end

def Block.survey (depth : Depth) (statements : Block) : Surveying ε σ :=
  (Statement.block statements).survey surveyor depth

def Node.survey (depth : Depth) : Node → Surveying ε σ
  | .expression e => e.survey surveyor depth
  | .comparison c => c.survey surveyor depth
  | .assignment a => a.survey surveyor depth
  | .variableDecl v => v.survey surveyor depth
  | .block b => Block.survey surveyor depth b
  | .statement s => s.survey surveyor depth

end Treeline
