import Treeline.Proofs.Induction
import Treeline.Trace.Render

namespace Treeline

-- The printing pass over places and lists, in terms of the pass over one child.

def traceAll {α : Type} (render : α → Trace) : List α → Trace
  | [] => .empty
  | child :: children => render child ++ traceAll render children

theorem Expression.renderSlot_eq (level : Nat) (missing : Missing) (slot : Option Expression) :
    Expression.renderSlot level missing slot = requiredTrace missing (Expression.render level) slot := by
  cases slot <;> rfl

theorem Expression.renderList_eq (level : Nat) (es : List Expression) :
    Expression.renderList level es = traceAll (Expression.render level) es := by
  induction es with
  | nil => rfl
  | cons e es ih => rw [Expression.renderList, ih, traceAll]

theorem Statement.renderList_eq (level : Nat) (ss : List Statement) :
    Statement.renderList level ss = traceAll (Statement.render level) ss := by
  induction ss with
  | nil => rfl
  | cons s ss ih => rw [Statement.renderList, ih, traceAll]

namespace Trace

theorem lines_append {first : Trace} (through : first.missing = none) (second : Trace) :
    (first ++ second).lines = first.lines ++ second.lines := by
  obtain ⟨lines, missing⟩ := first
  cases through
  rfl

theorem append_of_missing {first : Trace} {missing : Missing} (stopped : first.missing = some missing)
    (second : Trace) : first ++ second = first := by
  obtain ⟨lines, found⟩ := first
  cases stopped
  rfl

theorem missing_append (first second : Trace) : (first ++ second).missing = first.missing.or second.missing := by
  obtain ⟨lines, missing⟩ := first
  cases missing <;> rfl

-- Lines by themselves never stop the pass.

@[simp] theorem missing_empty : empty.missing = none := rfl

@[simp] theorem missing_line (level : Nat) (text : String) : (line level text).missing = none := rfl

@[simp] theorem missing_create (level : Nat) (label : String) : (create level label).missing = none := rfl

@[simp] theorem missing_close (level : Nat) (label : String) : (close level label).missing = none := rfl

@[simp] theorem missing_stop (missing : Missing) : (stop missing).missing = some missing := rfl

end Trace

@[simp] theorem missing_parametersTrace (level : Nat) (parameters : List Variable) :
    (parametersTrace level parameters).missing = none := by
  cases parameters <;> rfl

theorem Trace.lines_create_append (level : Nat) (label : String) (trace : Trace) :
    (create level label ++ trace).lines = ⟨level, createPrefix ++ label⟩ :: trace.lines := rfl

-- Every trace begins with the line of its node.
theorem Node.lines_render (level : Nat) (node : Node) :
    ∃ more, (node.render level).lines = ⟨level, Trace.createPrefix ++ node.label⟩ :: more := by
  cases node with
  | expression e =>
    rw [Node.render, Expression.render.eq_def]
    exact ⟨_, Trace.lines_create_append _ _ _⟩
  | comparison c =>
    rw [Node.render, Comparison.render, Expression.render.eq_def]
    exact ⟨_, Trace.lines_create_append _ _ _⟩
  | assignment a => exact ⟨_, Trace.lines_create_append _ _ _⟩
  | variableDecl v => exact ⟨_, Trace.lines_create_append _ _ _⟩
  | block b =>
    rw [Node.render, Block.render, Statement.render]
    exact ⟨_, Trace.lines_create_append _ _ _⟩
  | statement s =>
    rw [Node.render, Statement.render.eq_def]
    exact ⟨_, Trace.lines_create_append _ _ _⟩

theorem Node.bytes_render_ne_nil (level : Nat) (node : Node) : (node.render level).bytes ≠ [] := by
  obtain ⟨more, lines⟩ := node.lines_render level
  simp [Trace.bytes, lines, Line.bytes, Line.pieces, Line.padded]

end Treeline
