import Treeline.Proofs.Alike

namespace Treeline

-- A tree is equal to itself unless it holds a NaN, wherever that stands.

namespace Outline

def Numeric (outline : Outline) : Prop := ∀ x ∈ outline.doubles, x.isNaN = false

theorem numeric_hole (missing : Missing) : (hole missing).Numeric := fun _ present => nomatch present

theorem numeric_node (parent : Node) (children : List Outline) : (node parent children).Numeric ↔
    (∀ x ∈ parent.double?, x.isNaN = false) ∧ ∀ child ∈ children, child.Numeric := by
  simp only [Numeric, doubles_node, List.forall_mem_append, Option.mem_toList, List.mem_flatMap]
  refine and_congr_right fun _ => ⟨fun all child present x inside => all x ⟨child, present, inside⟩, ?_⟩
  rintro each x ⟨child, present, inside⟩
  exact each child present x inside

-- Only the literal itself is a double.
theorem numeric_of_double?_eq_none {parent : Node} (other : parent.double? = none) (children : List Outline) :
    (node parent children).Numeric ↔ ∀ child ∈ children, child.Numeric := by
  simp [numeric_node, other]

section Places

variable {α : Type} {equal : α → α → Bool} {outline : α → Outline}

theorem numeric_required {place : Option α}
    (each : ∀ child ∈ place, (equal child child = true ↔ (outline child).Numeric)) (missing : Missing) :
    equalPlaces equal place place = true ↔ (requiredOutline missing outline place).Numeric := by
  cases place with
  | none => exact iff_of_true rfl (numeric_hole missing)
  | some child => exact each child rfl

theorem numeric_optional {place : Option α}
    (each : ∀ child ∈ place, (equal child child = true ↔ (outline child).Numeric)) :
    equalPlaces equal place place = true ↔ ∀ child ∈ place.toList.map outline, child.Numeric := by
  cases place with
  | none => exact iff_of_true rfl fun _ present => nomatch present
  | some child => exact (each child rfl).trans List.forall_mem_singleton.symm

theorem numeric_list {children : List α}
    (each : ∀ child ∈ children, (equal child child = true ↔ (outline child).Numeric)) :
    equalLists equal children children = true ↔ ∀ child ∈ children.map outline, child.Numeric := by
  rw [equalLists_iff, List.forall₂_same, List.forall_mem_map]
  exact forall₂_congr each

end Places

end Outline

open Outline

namespace Expression

theorem equalSlot_self_iff {slot : Option Expression}
    (each : ∀ e ∈ slot, (e.equal e = true ↔ e.outline.Numeric)) (missing : Missing) :
    equalSlot slot slot = true ↔ (outlineSlot missing slot).Numeric := by
  rw [equalSlot_eq, outlineSlot_eq]
  exact numeric_required each missing

theorem equal_self_iff (e : Expression) : e.equal e = true ↔ e.outline.Numeric := by
  induction e with
  | integer | string | boolean | identifier =>
    exact iff_of_true (beq_self_eq_true _) fun _ present => nomatch present
  | double x =>
    have only : (double x).outline.doubles = [x] := rfl
    rw [Numeric, only, List.forall_mem_singleton]
    exact x.equal_self_iff
  | unary operator operand ih =>
    have own : equal (.unary operator operand) (.unary operator operand) =
        (operator == operator && equalSlot operand operand) := rfl
    rw [own, beq_self_eq_true, Bool.true_and, outline, numeric_of_double?_eq_none rfl, List.forall_mem_singleton]
    exact equalSlot_self_iff ih _
  | binary operator left right ihLeft ihRight =>
    have own : equal (.binary operator left right) (.binary operator left right) =
        (operator == operator && equalSlot left left && equalSlot right right) := rfl
    rw [own, beq_self_eq_true, Bool.true_and, Bool.and_eq_true, outline, numeric_of_double?_eq_none rfl,
      List.forall_mem_cons, List.forall_mem_singleton]
    exact and_congr (equalSlot_self_iff ihLeft _) (equalSlot_self_iff ihRight _)
  | comparison operator left right ihLeft ihRight =>
    have own : equal (.comparison operator left right) (.comparison operator left right) =
        (operator == operator && equalSlot left left && equalSlot right right) := rfl
    rw [own, beq_self_eq_true, Bool.true_and, Bool.and_eq_true, outline, numeric_of_double?_eq_none rfl,
      List.forall_mem_cons, List.forall_mem_singleton]
    exact and_congr (equalSlot_self_iff ihLeft _) (equalSlot_self_iff ihRight _)
  | call callee arguments ih =>
    have own : equal (.call callee arguments) (.call callee arguments) =
        (callee == callee && equalList arguments arguments) := rfl
    rw [own, beq_self_eq_true, Bool.true_and, equalList_eq, outline, numeric_of_double?_eq_none rfl, outlines_eq_map]
    exact numeric_list ih

end Expression

theorem Comparison.equal_self_iff (c : Comparison) : c.equal c = true ↔ c.outline.Numeric := by
  rw [Comparison.equal, Expression.equal_self_iff, toExpression, Expression.outline, outline,
    numeric_of_double?_eq_none rfl, numeric_of_double?_eq_none rfl]
  rfl

namespace Assignment

theorem equal_self_iff_below (a : Assignment) : a.equal a = true ↔ ∀ child ∈ a.below, child.Numeric := by
  rw [Assignment.equal, beq_self_eq_true, Bool.true_and, below, List.forall_mem_singleton]
  exact Expression.equalSlot_self_iff (fun e _ => e.equal_self_iff) _

theorem equal_self_iff (a : Assignment) : a.equal a = true ↔ a.outline.Numeric := by
  rw [outline, numeric_of_double?_eq_none rfl, equal_self_iff_below]

end Assignment

namespace Variable

theorem equal_self_iff_below (v : Variable) : v.equal v = true ↔ ∀ child ∈ v.below, child.Numeric := by
  rw [Variable.equal, beq_self_eq_true, beq_self_eq_true, Bool.true_and, Bool.true_and]
  exact numeric_optional fun a _ => a.equal_self_iff

theorem equal_self_iff (v : Variable) : v.equal v = true ↔ v.outline.Numeric := by
  rw [outline, numeric_of_double?_eq_none rfl, equal_self_iff_below]

end Variable

namespace Statement

theorem equalLists_self_iff {ss : List Statement} (each : ∀ s ∈ ss, (s.equal s = true ↔ s.outline.Numeric)) :
    equalLists Statement.equal ss ss = true ↔ ∀ child ∈ outlines ss, child.Numeric := by
  rw [outlines_eq_map]
  exact numeric_list each

theorem equalBlock_self_iff {block : Option Block}
    (each : ∀ b ∈ block, ∀ s ∈ b, (s.equal s = true ↔ s.outline.Numeric)) {absent : List Outline}
    (whole : ∀ child ∈ absent, child.Numeric) :
    equalBlock block block = true ↔ ∀ child ∈ outlineBlock absent block, child.Numeric := by
  rw [equalBlock_eq]
  cases block with
  | none => exact iff_of_true rfl whole
  | some b =>
    rw [outlineBlock, List.forall_mem_singleton, numeric_of_double?_eq_none rfl]
    exact equalLists_self_iff (each b rfl)

theorem equal_self_iff (s : Statement) : s.equal s = true ↔ s.outline.Numeric := by
  have empty : ∀ child ∈ ([] : List Outline), child.Numeric := fun _ present => nomatch present
  have stop (missing : Missing) : ∀ child ∈ [hole missing], child.Numeric :=
    List.forall_mem_singleton.mpr (numeric_hole missing)
  induction s with
  | expression slot =>
    rw [outline, numeric_of_double?_eq_none rfl, List.forall_mem_singleton]
    exact Expression.equalSlot_self_iff (fun e _ => e.equal_self_iff) _
  | assignment a =>
    rw [outline, numeric_of_double?_eq_none rfl]
    exact a.equal_self_iff_below
  | variableDecl v =>
    rw [outline, numeric_of_double?_eq_none rfl]
    exact v.equal_self_iff_below
  | returning slot =>
    have own : Statement.equal (.returning slot) (.returning slot) = Expression.equalSlot slot slot := rfl
    rw [own, Expression.equalSlot_eq, outline, numeric_of_double?_eq_none rfl]
    exact numeric_optional fun e _ => e.equal_self_iff
  | block b ih =>
    have own : Statement.equal (.block b) (.block b) = equalList b b := rfl
    rw [own, equalList_eq, outline, numeric_of_double?_eq_none rfl]
    exact equalLists_self_iff ih
  | conditional condition thenBlock elseBlock ihThen ihElse =>
    have own : Statement.equal (.conditional condition thenBlock elseBlock)
        (.conditional condition thenBlock elseBlock) =
        (equalPlaces Comparison.equal condition condition && equalBlock thenBlock thenBlock &&
          equalBlock elseBlock elseBlock) := rfl
    rw [own, Bool.and_assoc, Bool.and_eq_true, Bool.and_eq_true, outline, numeric_of_double?_eq_none rfl,
      List.forall_mem_cons, List.forall_mem_append]
    exact and_congr (numeric_required (fun c _ => c.equal_self_iff) _)
      (and_congr (equalBlock_self_iff ihThen empty) (equalBlock_self_iff ihElse empty))
  | whileLoop condition body elseBlock ihBody ihElse =>
    have own : Statement.equal (.whileLoop condition body elseBlock) (.whileLoop condition body elseBlock) =
        (Expression.equalSlot condition condition && equalBlock body body && equalBlock elseBlock elseBlock) := rfl
    rw [own, Bool.and_assoc, Bool.and_eq_true, Bool.and_eq_true, outline, numeric_of_double?_eq_none rfl,
      List.forall_mem_cons, List.forall_mem_append]
    exact and_congr (Expression.equalSlot_self_iff (fun e _ => e.equal_self_iff) _)
      (and_congr (equalBlock_self_iff ihBody (stop _)) (equalBlock_self_iff ihElse empty))
  | forLoop init condition body update ih =>
    have own : Statement.equal (.forLoop init condition body update) (.forLoop init condition body update) =
        (equalPlaces Assignment.equal init init && Expression.equalSlot condition condition && equalBlock body body &&
          equalPlaces Assignment.equal update update) := rfl
    rw [own, Bool.and_assoc, Bool.and_assoc, Bool.and_eq_true, Bool.and_eq_true, Bool.and_eq_true, outline,
      numeric_of_double?_eq_none rfl, List.forall_mem_cons, List.forall_mem_cons, List.forall_mem_append,
      List.forall_mem_singleton]
    exact and_congr (numeric_required (fun a _ => a.equal_self_iff) _)
      (and_congr (Expression.equalSlot_self_iff (fun e _ => e.equal_self_iff) _)
        (and_congr (equalBlock_self_iff ih (stop _)) (numeric_required (fun a _ => a.equal_self_iff) _)))
  | functionDecl returnType name parameters body ih =>
    have own : Statement.equal (.functionDecl returnType name parameters body)
        (.functionDecl returnType name parameters body) =
        (returnType == returnType && name == name && equalLists Variable.equal parameters parameters &&
          equalBlock body body) := rfl
    rw [own, beq_self_eq_true, beq_self_eq_true, Bool.true_and, Bool.true_and, Bool.and_eq_true, outline,
      numeric_of_double?_eq_none rfl, List.forall_mem_append]
    exact and_congr (numeric_list fun v _ => v.equal_self_iff) (equalBlock_self_iff ih (stop _))
  | classDecl name body ih =>
    have own : Statement.equal (.classDecl name body) (.classDecl name body) =
        (name == name && equalBlock body body) := rfl
    rw [own, beq_self_eq_true, Bool.true_and, outline, numeric_of_double?_eq_none rfl]
    exact equalBlock_self_iff ih empty

-- Equal trees are counted and printed alike, but for the lines of zeros of different sign; and a tree is equal to
-- itself just if none of its literals is a NaN, also where the literal is in a parameter of a function.
theorem passes_respect_equal (a b : Statement) (level : Nat) (refusal : Refusal) :
    let print (s : Statement) := (Sink.new none refusal).print (s.render level)
    (a.equal b = true →
      (Node.statement a).tally = (Node.statement b).tally ∧
      (print a).2 = (print b).2 ∧
      List.Forall₂ Line.Alike (a.render level).lines (b.render level).lines) ∧
    (∀ s, (print s).1.bytes = (s.render level).lines.flatMap Line.bytes) ∧
    (a.equal a = true ↔ ∀ x ∈ a.doubles, x.isNaN = false) := by
  intro print
  have printed (s : Statement) :
      print s = (⟨none, refusal, (s.render level).bytes.toArray, 0⟩, (s.render level).outcome) :=
    Sink.print_unlimited refusal (s.render level)
  refine ⟨fun equal => ?_, fun s => by rw [printed, Sink.bytes, Trace.bytes], a.equal_self_iff⟩
  have alike : (Node.statement a).outline.Alike (Node.statement b).outline := alike_of_equal a b equal
  have traces : (a.render level).Alike (b.render level) := by
    rw [a.render_eq_trace [], b.render_eq_trace []]
    exact alike.trace_alike rfl level
  refine ⟨?_, ?_, traces.lines⟩
  · rw [Node.tally, Node.tally, Node.count_eq, Node.count_eq, alike.count_eq]
  · rw [printed, printed, Trace.outcome, Trace.outcome, traces.missing]

theorem passes_respect_equal_zeros :
    let function (x : Binary64) : Statement :=
      .functionDecl "double" "f" [⟨"double", "x", some ⟨"x", some (.double x)⟩⟩] (some [.returning (some (.double x))])
    let zero : Statement := function ⟨0⟩
    let minus : Statement := function ⟨0x8000000000000000⟩
    let nan : Statement := function ⟨0x7ff8000000000000⟩
    zero.equal minus = true ∧ (zero.render 0).lines ≠ (minus.render 0).lines ∧
    (Node.statement zero).tally = (Node.statement minus).tally ∧
    List.Forall₂ Line.Alike (zero.render 0).lines (minus.render 0).lines ∧ nan.equal nan = false := by
  intro function zero minus nan
  have equal : zero.equal minus = true := by decide +kernel
  obtain ⟨counted, -, lines⟩ := (passes_respect_equal zero minus 0 .closed).1 equal
  have differs : nan.equal nan = false := by
    rw [Bool.eq_false_iff, Ne, (passes_respect_equal nan nan 0 .closed).2.2]
    decide +kernel
  exact ⟨equal, by decide +kernel, counted, lines, differs⟩

end Statement

end Treeline
