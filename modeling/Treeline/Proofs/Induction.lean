import Treeline.Document.Basic
import Treeline.Tree.Basic

namespace Treeline

-- Trees and documents nest through places and lists, for which the built-in induction has motives of their own. Here
-- the hypotheses for all children are stated by membership, so that one motive serves.

@[elab_as_elim, induction_eliminator]
theorem Expression.induction {motive : Expression → Prop}
    (integer : ∀ value, motive (.integer value)) (double : ∀ value, motive (.double value))
    (string : ∀ value, motive (.string value)) (boolean : ∀ value, motive (.boolean value))
    (identifier : ∀ name, motive (.identifier name))
    (unary : ∀ operator operand, (∀ e ∈ operand, motive e) → motive (.unary operator operand))
    (binary : ∀ operator left right, (∀ e ∈ left, motive e) → (∀ e ∈ right, motive e) →
      motive (.binary operator left right))
    (comparison : ∀ operator left right, (∀ e ∈ left, motive e) → (∀ e ∈ right, motive e) →
      motive (.comparison operator left right))
    (call : ∀ callee arguments, (∀ e ∈ arguments, motive e) → motive (.call callee arguments)) (e : Expression) :
    motive e := by
  refine @Expression.rec motive (fun slot => ∀ e ∈ slot, motive e) (fun es => ∀ e ∈ es, motive e) integer double string
    boolean identifier unary binary comparison call ?_ ?_ ?_ ?_ e
  · simp
  · intro child known e member
    cases Option.mem_some.mp member
    exact known
  · simp
  · intro head tail first others
    exact List.forall_mem_cons.mpr ⟨first, others⟩

@[elab_as_elim, induction_eliminator]
theorem Statement.induction {motive : Statement → Prop}
    (expression : ∀ e, motive (.expression e)) (assignment : ∀ a, motive (.assignment a))
    (variableDecl : ∀ v, motive (.variableDecl v)) (returning : ∀ e, motive (.returning e))
    (block : ∀ statements, (∀ s ∈ statements, motive s) → motive (.block statements))
    (conditional : ∀ condition thenBlock elseBlock, (∀ b ∈ thenBlock, ∀ s ∈ b, motive s) →
      (∀ b ∈ elseBlock, ∀ s ∈ b, motive s) → motive (.conditional condition thenBlock elseBlock))
    (whileLoop : ∀ condition body elseBlock, (∀ b ∈ body, ∀ s ∈ b, motive s) →
      (∀ b ∈ elseBlock, ∀ s ∈ b, motive s) → motive (.whileLoop condition body elseBlock))
    (forLoop : ∀ init condition body update, (∀ b ∈ body, ∀ s ∈ b, motive s) →
      motive (.forLoop init condition body update))
    (functionDecl : ∀ returnType name parameters body, (∀ b ∈ body, ∀ s ∈ b, motive s) →
      motive (.functionDecl returnType name parameters body))
    (classDecl : ∀ name body, (∀ b ∈ body, ∀ s ∈ b, motive s) → motive (.classDecl name body)) (s : Statement) :
    motive s := by
  refine @Statement.rec motive (fun ss => ∀ s ∈ ss, motive s) (fun place => ∀ b ∈ place, ∀ s ∈ b, motive s) expression
    assignment variableDecl returning block conditional whileLoop forLoop functionDecl classDecl ?_ ?_ ?_ ?_ s
  · simp
  · intro head tail first others
    exact List.forall_mem_cons.mpr ⟨first, others⟩
  · simp
  · intro block known b member
    cases Option.mem_some.mp member
    exact known

@[elab_as_elim, induction_eliminator]
theorem Document.induction {motive : Document → Prop} (null : motive .null) (boolean : ∀ value, motive (.boolean value))
    (integer : ∀ value, motive (.integer value)) (double : ∀ value, motive (.double value))
    (string : ∀ value, motive (.string value))
    (array : ∀ items, (∀ item ∈ items, motive item) → motive (.array items))
    (object : ∀ entries, (∀ entry ∈ entries, motive entry.2) → motive (.object entries)) (document : Document) :
    motive document := by
  refine @Document.rec motive (fun items => ∀ item ∈ items, motive item) (fun entries => ∀ e ∈ entries, motive e.2)
    (fun entry => motive entry.2) null boolean integer double string array object ?_ ?_ ?_ ?_ ?_ document
  · simp
  · intro head tail first others
    exact List.forall_mem_cons.mpr ⟨first, others⟩
  · simp
  · intro head tail first others
    exact List.forall_mem_cons.mpr ⟨first, others⟩
  · intro _ _ known
    exact known

end Treeline
