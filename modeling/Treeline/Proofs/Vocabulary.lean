import Treeline.Tree.Kind

namespace Treeline

-- Words and their spellings.

-- Every word is found by its spelling.
def Vocabulary.Faithful (κ : Type) [Vocabulary κ] : Prop := ∀ word : κ, ofText? κ (spell word) = some word

theorem Vocabulary.Faithful.eq_of_spell {κ : Type} [Vocabulary κ] (faithful : Faithful κ) {word other : κ}
    (same : spell word = spell other) : word = other := by
  have found := faithful word
  rw [same, faithful other] at found
  exact (Option.some.inj found).symm

theorem unaryOp_faithful : Vocabulary.Faithful UnaryOp := by
  intro word
  cases word <;> rfl

theorem binaryOp_faithful : Vocabulary.Faithful BinaryOp := by
  intro word
  cases word <;> rfl

theorem compareOp_faithful : Vocabulary.Faithful CompareOp := by
  intro word
  cases word <;> rfl

theorem expressionKind_faithful : Vocabulary.Faithful ExpressionKind := by
  intro word
  cases word <;> rfl

theorem statementKind_faithful : Vocabulary.Faithful StatementKind := by
  intro word
  cases word <;> rfl

end Treeline
