import Treeline.Trace.Basic
import Treeline.Tree.Label

namespace Treeline

-- The printing pass: every node begins with a line of its own, and its children stand one level deeper. The operands of
-- a comparison keep the level of the comparison, and the statements of a function stand directly below the function.

def optionalTrace {α : Type} (render : α → Trace) : Option α → Trace
  | none => .empty
  | some child => render child

def requiredTrace {α : Type} (missing : Missing) (render : α → Trace) : Option α → Trace
  | none => .stop missing
  | some child => render child

mutual

def Expression.render (level : Depth) (e : Expression) : Trace :=
  .create level e.label ++
    match e with
    | .integer _ | .double _ | .string _ | .boolean _ | .identifier _ => .empty
    | .unary _ operand => Expression.renderSlot level.deeper ⟨e.label, .operand⟩ operand
    | .binary _ left right =>
      Expression.renderSlot level.deeper ⟨e.label, .leftOperand⟩ left ++
        Expression.renderSlot level.deeper ⟨e.label, .rightOperand⟩ right
    | .comparison _ left right =>
      Expression.renderSlot level ⟨e.label, .leftOperand⟩ left ++
        Expression.renderSlot level ⟨e.label, .rightOperand⟩ right
    | .call _ arguments =>
      (if arguments.isEmpty then .empty else .line level.deeper Trace.argumentsMarker) ++
        Expression.renderList level.deeper arguments
termination_by structural e

def Expression.renderSlot (level : Depth) (missing : Missing) : Option Expression → Trace
  | none => .stop missing
  | some child => child.render level
termination_by structural slot => slot

def Expression.renderList (level : Depth) : List Expression → Trace
  | [] => .empty
  | e :: es => e.render level ++ Expression.renderList level es
termination_by structural es => es

end

def Comparison.render (level : Depth) (c : Comparison) : Trace := c.toExpression.render level

def Assignment.renderBelow (level : Depth) (a : Assignment) : Trace :=
  Expression.renderSlot level.deeper ⟨a.label, .expression⟩ a.expression

def Assignment.render (level : Depth) (a : Assignment) : Trace := .create level a.label ++ a.renderBelow level

def Variable.renderBelow (level : Depth) (v : Variable) : Trace :=
  optionalTrace (Assignment.render level.deeper) v.assignment

def Variable.render (level : Depth) (v : Variable) : Trace := .create level v.label ++ v.renderBelow level

-- The parameters of a function: types and names, without initial values.
def parametersTrace (level : Depth) : List Variable → Trace
  | [] => .empty
  | parameters =>
    ⟨⟨level, Trace.parametersMarker⟩ :: parameters.map fun v => ⟨level.deeper, v.typeName ++ " " ++ v.name⟩, none⟩

mutual

def Statement.render (level : Depth) (s : Statement) : Trace :=
  .create level s.label ++
    match s with
    | .expression e => Expression.renderSlot level.deeper ⟨s.label, .expression⟩ e
    | .assignment a => a.renderBelow level
    | .variableDecl v => v.renderBelow level
    | .returning e => optionalTrace (Expression.render level.deeper) e
    | .block statements => Statement.renderList level.deeper statements ++ .close level Block.label
    | .conditional condition thenBlock elseBlock =>
      requiredTrace ⟨s.label, .condition⟩ (Comparison.render level.deeper) condition ++
        Statement.renderBlock level.deeper .empty thenBlock ++ Statement.renderBlock level.deeper .empty elseBlock
    | .whileLoop condition body elseBlock =>
      Expression.renderSlot level.deeper ⟨s.label, .condition⟩ condition ++
        .line level.deeper Trace.loopBodyMarker ++
        Statement.renderBlock level.deeper (.stop ⟨s.label, .body⟩) body ++
        (if elseBlock.isSome then .line level.deeper Trace.elseBodyMarker else .empty) ++
        Statement.renderBlock level.deeper .empty elseBlock
    | .forLoop init condition body update =>
      requiredTrace ⟨s.label, .initializer⟩ (Assignment.render level.deeper) init ++
        Expression.renderSlot level.deeper ⟨s.label, .condition⟩ condition ++
        .line level.deeper Trace.loopBodyMarker ++
        Statement.renderBlock level.deeper (.stop ⟨s.label, .body⟩) body ++
        requiredTrace ⟨s.label, .update⟩ (Assignment.render level.deeper) update
    | .functionDecl _ _ parameters body =>
      parametersTrace level.deeper parameters ++ Statement.renderInside level.deeper (.stop ⟨s.label, .body⟩) body
    | .classDecl _ body => Statement.renderBlock level.deeper .empty body
termination_by structural s

def Statement.renderBlock (level : Depth) (absent : Trace) : Option (List Statement) → Trace
  | none => absent
  | some statements =>
    .create level Block.label ++ (Statement.renderList level.deeper statements ++ .close level Block.label)
termination_by structural block => block

-- The statements of a place for a block, without the block's own lines.
def Statement.renderInside (level : Depth) (absent : Trace) : Option (List Statement) → Trace
  | none => absent
  | some statements => Statement.renderList level statements
termination_by structural block => block

def Statement.renderList (level : Depth) : List Statement → Trace
  | [] => .empty
  | s :: ss => s.render level ++ Statement.renderList level ss
termination_by structural ss => ss

end

def Block.render (level : Depth) (statements : Block) : Trace := (Statement.block statements).render level

def Node.render (level : Depth) : Node → Trace
  | .expression e => e.render level
  | .comparison c => c.render level
  | .assignment a => a.render level
  | .variableDecl v => v.render level
  | .block b => Block.render level b
  | .statement s => s.render level

end Treeline
