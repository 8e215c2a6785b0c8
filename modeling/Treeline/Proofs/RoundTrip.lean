import Treeline.Proofs.Brackets
import Treeline.Proofs.Reparse

namespace Treeline

open Document

-- Reading a printed tree. The text of a tree is read back exactly if its doubles are and its brackets do not go too
-- deep; a double that is no number, or infinite, makes it unreadable.

theorem reread_within_limit {α : Type} (ofDocument : Document → Except Fault α) (d : Document) :
    ((rereadWithin nestingLimit d).bind fun read => (ofDocument read).toOption) =
      if d.nesting ≤ nestingLimit then reparse ofDocument d else none := by
  rw [rereadWithin]
  split
  · rfl
  · rfl

theorem Statement.toDocument_tagged (s : Statement) :
    ∃ (kind : StatementKind) (entries : List (String × Document)),
      s.toDocument = object (tagEntry kind :: entries) ∧ ∀ entry ∈ entries, entry.1 ≠ tagKey := by
  cases s with
  | assignment a => exact ⟨_, _, rfl, by simp [tagKey, Assignment.entries]⟩
  | variableDecl v => exact ⟨_, _, rfl, by simp [tagKey, Variable.entries]⟩
  | _ => exact ⟨_, _, rfl, by simp [tagKey]⟩

theorem Statement.parse_text (s : Statement) :
    (Statement.parse s.text).toOption = if bracketDepth s.text ≤ nestingLimit then s.reparse else none := by
  obtain ⟨kind, entries, spelled, untagged⟩ := s.toDocument_tagged
  rw [Statement.text, bracketDepth_text, Statement.reparse, spelled, Statement.toOption_parse kind untagged]
  exact reread_within_limit Statement.ofDocument _

theorem Expression.parse_double (x : Binary64) :
    (Expression.parse (Expression.double x).text).toOption = x.reparse.map .double := by
  have spelled : (Expression.double x).toDocument = object [tagEntry ExpressionKind.double, ("value", x.toDocument)] :=
    rfl
  have flat : x.toDocument.nesting = 0 := by
    unfold Binary64.toDocument
    split
    · rfl
    · rfl
  have shallow : (Expression.double x).toDocument.nesting ≤ nestingLimit := by
    simp [spelled, nesting, entriesNesting, tagEntry, flat, nestingLimit]
  rw [← Expression.reparse_double, Expression.text, Expression.reparse, spelled,
    Expression.toOption_parse _ (by simp [tagKey]), reread_within_limit, ← spelled, if_pos shallow]

-- What it takes for a double to be read back, and what keeps it from being read.

theorem Binary64.reparse_of_parse {x : Binary64}
    (same : Expression.parse (Expression.double x).text = .ok (.double x)) : x.reparse = some x := by
  have read := Expression.parse_double x
  rw [same] at read
  obtain ⟨y, found, equal⟩ := Option.map_eq_some_iff.mp read.symm
  rw [found, Expression.double.inj equal]

theorem Binary64.reparse_of_not_finite {x : Binary64} (special : x.isNaN = true ∨ x.isInfinite = true) :
    x.reparse = none := by
  have infinite : x.isFinite = false := by
    simp only [isNaN, isInfinite, isFinite, decide_eq_true_eq, decide_eq_false_iff_not] at *
    omega
  rw [Binary64.reparse, Binary64.toDocument, infinite]
  rfl

theorem Statement.parse_text_of_restored {s : Statement} (same : ∀ x ∈ s.doubles, x.reparse = some x)
    (within : bracketDepth s.text ≤ nestingLimit) : Statement.parse s.text = .ok s := by
  have read := s.parse_text
  rw [if_pos within, s.restores.right same] at read
  exact eq_ok_of_toOption read

theorem Statement.parse_text_of_refused {s : Statement}
    (none_read : ¬bracketDepth s.text ≤ nestingLimit ∨ ∃ x ∈ s.doubles, x.reparse = none) :
    ∃ error, Statement.parse s.text = .error error := by
  refine eq_error_of_toOption ?_
  rw [s.parse_text]
  rcases none_read with deep | missed
  · rw [if_neg deep]
  · rw [s.restores.refused missed, ite_self]

-- The whole of it: the doubles' own texts aside, the depth of the brackets decides.
theorem Statement.parse_text_iff_bracketDepth (t : Statement) :
    ((∀ x ∈ t.doubles, Expression.parse (Expression.double x).text = .ok (.double x)) →
      (Statement.parse t.text = .ok t ↔ bracketDepth t.text ≤ 127) ∧
      (¬bracketDepth t.text ≤ 127 → ∃ error, Statement.parse t.text = .error error)) ∧
    ((∃ x ∈ t.doubles, x.isNaN = true ∨ x.isInfinite = true) → ∃ error, Statement.parse t.text = .error error) := by
  refine ⟨?_, ?_⟩
  · intro same
    have restored : ∀ x ∈ t.doubles, x.reparse = some x := fun x member => Binary64.reparse_of_parse (same x member)
    have beyond : ¬bracketDepth t.text ≤ 127 → ∃ error, Statement.parse t.text = .error error :=
      fun deep => Statement.parse_text_of_refused (.inl deep)
    refine ⟨⟨?_, Statement.parse_text_of_restored restored⟩, beyond⟩
    intro parsed
    by_cases within : bracketDepth t.text ≤ 127
    · exact within
    · obtain ⟨error, refused⟩ := beyond within
      rw [parsed] at refused
      cases refused
  · rintro ⟨x, member, special⟩
    exact Statement.parse_text_of_refused (.inr ⟨x, member, Binary64.reparse_of_not_finite special⟩)

-- One tenth is read back, and so is a tree that holds it; the same below too many brackets is not, nor is a tree with
-- what is not a number.
theorem Statement.parse_text_iff_bracketDepth_tenth :
    let tenth : Binary64 := ⟨0x3FB999999999999A⟩
    let sum : Statement := .expression (some (.binary .add (some (.string "\"é\n")) (some (.double tenth))))
    let deep : Statement := .returning (some (Nat.repeat (fun e => .unary .not (some e)) 126 (.double tenth)))
    let special : Statement := .returning (some (.double ⟨0x7FF8000000000000⟩))
    (bracketDepth sum.text ≤ 127 ∧ Statement.parse sum.text = .ok sum) ∧
      (¬bracketDepth deep.text ≤ 127 ∧ ∃ error, Statement.parse deep.text = .error error) ∧
      ∃ error, Statement.parse special.text = .error error := by
  intro tenth sum deep special
  have same : Expression.parse (Expression.double tenth).text = .ok (.double tenth) := by
    have read : tenth.reparse = some tenth := by decide +kernel
    exact eq_ok_of_toOption ((Expression.parse_double tenth).trans (congrArg _ read))
  have shallow : bracketDepth sum.text ≤ 127 := by
    rw [Statement.text, bracketDepth_text]
    decide
  have beyond : ¬bracketDepth deep.text ≤ 127 := by
    rw [Statement.text, bracketDepth_text]
    decide +kernel
  have inSum : ∀ x ∈ sum.doubles, Expression.parse (Expression.double x).text = .ok (.double x) := by
    have only : sum.doubles = [tenth] := by decide
    rw [only]
    exact List.forall_mem_singleton.mpr same
  have inDeep : ∀ x ∈ deep.doubles, Expression.parse (Expression.double x).text = .ok (.double x) := by
    have only : deep.doubles = [tenth] := by decide +kernel
    rw [only]
    exact List.forall_mem_singleton.mpr same
  refine ⟨⟨shallow, ?_⟩, ⟨beyond, ?_⟩, ?_⟩
  · exact (((Statement.parse_text_iff_bracketDepth sum).1 inSum).1).mpr shallow
  · exact ((Statement.parse_text_iff_bracketDepth deep).1 inDeep).2 beyond
  · exact (Statement.parse_text_iff_bracketDepth special).2 ⟨⟨0x7FF8000000000000⟩, by decide, .inl (by decide)⟩

end Treeline
