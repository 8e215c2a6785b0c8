import Mathlib.Data.List.Forall2
import Treeline.Proofs.Printing
import Treeline.Proofs.Sink

namespace Treeline

-- Filling empty places of a tree only lengthens what is printed of it.

-- A place that must be filled, before and after: it may have been empty and be filled with anything.
inductive Filled {α : Type} (completes : α → α → Prop) : Option α → Option α → Prop
  | empty : Filled completes none none
  | filled (child : α) : Filled completes none (some child)
  | within {child child' : α} (inside : completes child child') : Filled completes (some child) (some child')

-- The second tree is the first one, with any of the empty places filled that its passes cannot do without.

inductive Expression.Completes : Expression → Expression → Prop
  | refl (e : Expression) : Completes e e
  | unary (operator : UnaryOp) {operand operand' : Option Expression} (filled : Filled Completes operand operand') :
      Completes (.unary operator operand) (.unary operator operand')
  | binary (operator : BinaryOp) {left left' right right' : Option Expression}
      (leftFilled : Filled Completes left left') (rightFilled : Filled Completes right right') :
      Completes (.binary operator left right) (.binary operator left' right')
  | comparison (operator : CompareOp) {left left' right right' : Option Expression}
      (leftFilled : Filled Completes left left') (rightFilled : Filled Completes right right') :
      Completes (.comparison operator left right) (.comparison operator left' right')
  | call (callee : String) {arguments arguments' : List Expression}
      (each : List.Forall₂ Completes arguments arguments') :
      Completes (.call callee arguments) (.call callee arguments')

structure Comparison.Completes (c c' : Comparison) : Prop where
  operator : c'.operator = c.operator
  left : Filled Expression.Completes c.left c'.left
  right : Filled Expression.Completes c.right c'.right

structure Assignment.Completes (a a' : Assignment) : Prop where
  target : a'.target = a.target
  expression : Filled Expression.Completes a.expression a'.expression

structure Variable.Completes (v v' : Variable) : Prop where
  typeName : v'.typeName = v.typeName
  name : v'.name = v.name
  assignment : Option.Rel Assignment.Completes v.assignment v'.assignment

inductive Statement.Completes : Statement → Statement → Prop
  | expression {e e' : Option Expression} (filled : Filled Expression.Completes e e') :
      Completes (.expression e) (.expression e')
  | assignment {a a' : Assignment} (inside : a.Completes a') : Completes (.assignment a) (.assignment a')
  | variableDecl {v v' : Variable} (inside : v.Completes v') : Completes (.variableDecl v) (.variableDecl v')
  | returning {e e' : Option Expression} (inside : Option.Rel Expression.Completes e e') :
      Completes (.returning e) (.returning e')
  | block {statements statements' : List Statement} (each : List.Forall₂ Completes statements statements') :
      Completes (.block statements) (.block statements')
  | conditional {condition condition' : Option Comparison} {thenBlock thenBlock' elseBlock elseBlock' : Option Block}
      (conditionFilled : Filled Comparison.Completes condition condition')
      (thenInside : Option.Rel (List.Forall₂ Completes) thenBlock thenBlock')
      (elseInside : Option.Rel (List.Forall₂ Completes) elseBlock elseBlock') :
      Completes (.conditional condition thenBlock elseBlock) (.conditional condition' thenBlock' elseBlock')
  | whileLoop {condition condition' : Option Expression} {body body' elseBlock elseBlock' : Option Block}
      (conditionFilled : Filled Expression.Completes condition condition')
      (bodyFilled : Filled (List.Forall₂ Completes) body body')
      (elseInside : Option.Rel (List.Forall₂ Completes) elseBlock elseBlock') :
      Completes (.whileLoop condition body elseBlock) (.whileLoop condition' body' elseBlock')
  | forLoop {init init' update update' : Option Assignment} {condition condition' : Option Expression}
      {body body' : Option Block} (initFilled : Filled Assignment.Completes init init')
      (conditionFilled : Filled Expression.Completes condition condition')
      (bodyFilled : Filled (List.Forall₂ Completes) body body')
      (updateFilled : Filled Assignment.Completes update update') :
      Completes (.forLoop init condition body update) (.forLoop init' condition' body' update')
  | functionDecl (returnType name : String) {parameters parameters' : List Variable} {body body' : Option Block}
      (each : List.Forall₂ Variable.Completes parameters parameters')
      (bodyFilled : Filled (List.Forall₂ Completes) body body') :
      Completes (.functionDecl returnType name parameters body) (.functionDecl returnType name parameters' body')
  | classDecl (name : String) {body body' : Option Block} (inside : Option.Rel (List.Forall₂ Completes) body body') :
      Completes (.classDecl name body) (.classDecl name body')

inductive Node.Completes : Node → Node → Prop
  | expression {e e' : Expression} (inside : e.Completes e') : Completes (.expression e) (.expression e')
  | comparison {c c' : Comparison} (inside : c.Completes c') : Completes (.comparison c) (.comparison c')
  | assignment {a a' : Assignment} (inside : a.Completes a') : Completes (.assignment a) (.assignment a')
  | variableDecl {v v' : Variable} (inside : v.Completes v') : Completes (.variableDecl v) (.variableDecl v')
  | block {b b' : Block} (each : List.Forall₂ Statement.Completes b b') : Completes (.block b) (.block b')
  | statement {s s' : Statement} (inside : s.Completes s') : Completes (.statement s) (.statement s')

-- Nothing that was put out is put out otherwise, and a pass that came to its end does the same again.
structure Trace.Extends (trace trace' : Trace) : Prop where
  lines : trace.lines <+: trace'.lines
  whole : trace.missing = none → trace' = trace

namespace Trace.Extends

theorem refl (trace : Trace) : trace.Extends trace := ⟨List.prefix_rfl, fun _ => rfl⟩

theorem stop (missing : Missing) (trace : Trace) : (Trace.stop missing).Extends trace := by
  refine ⟨List.nil_prefix, ?_⟩
  rintro ⟨⟩

theorem append {first first' second second' : Trace} (one : first.Extends first') (two : second.Extends second') :
    (first ++ second).Extends (first' ++ second') := by
  cases stopped : first.missing with
  | some missing =>
    -- Nothing of the second trace is put out, and what the first one put out stays in front.
    have same : first ++ second = first := by
      rw [append_def, Trace.append, stopped]
    have before : first'.lines <+: (first' ++ second').lines := by
      rw [append_def, Trace.append]
      cases first'.missing with
      | none => exact List.prefix_append _ _
      | some missing => exact List.prefix_rfl
    rw [same]
    refine ⟨one.lines.trans before, ?_⟩
    intro whole
    cases stopped.symm.trans whole
  | none =>
    have both : ∀ trace : Trace, first ++ trace = ⟨first.lines ++ trace.lines, trace.missing⟩ := by
      intro trace
      rw [append_def, Trace.append, stopped]
    rw [one.whole stopped, both, both]
    refine ⟨(List.prefix_append_right_inj first.lines).mpr two.lines, ?_⟩
    intro whole
    rw [two.whole whole]

variable {α : Type} {completes : α → α → Prop} {render : α → Trace}

theorem required {place place' : Option α} (filled : Filled completes place place')
    (inside : ∀ child ∈ place, ∀ child', completes child child' → (render child).Extends (render child'))
    (missing : Missing) : (requiredTrace missing render place).Extends (requiredTrace missing render place') := by
  cases filled with
  | empty => exact refl _
  | filled child => exact stop missing _
  | within related => exact inside _ rfl _ related

theorem optional {place place' : Option α} (related : Option.Rel completes place place')
    (inside : ∀ child ∈ place, ∀ child', completes child child' → (render child).Extends (render child')) :
    (optionalTrace render place).Extends (optionalTrace render place') := by
  cases related with
  | none => exact refl _
  | some related => exact inside _ rfl _ related

theorem all {children children' : List α} (each : List.Forall₂ completes children children')
    (inside : ∀ child ∈ children, ∀ child', completes child child' → (render child).Extends (render child')) :
    (traceAll render children).Extends (traceAll render children') := by
  induction each with
  | nil => exact refl _
  | cons related _ ih =>
    obtain ⟨first, others⟩ := List.forall_mem_cons.mp inside
    exact (first _ related).append (ih others)

end Trace.Extends

section Rendering

open Trace

theorem Expression.extends_render {e e' : Expression} (completes : e.Completes e') (level : Nat) :
    (e.render level).Extends (e'.render level) := by
  induction e generalizing e' level with
  | unary operator operand ih =>
    cases completes with
    | refl => exact .refl _
    | unary _ filled =>
      rw [Expression.render, Expression.render, renderSlot_eq, renderSlot_eq]
      apply Extends.append (.refl _)
      exact .required filled (fun child present child' related => ih child present related _) _
  | binary operator left right ihLeft ihRight =>
    cases completes with
    | refl => exact .refl _
    | binary _ leftFilled rightFilled =>
      simp only [Expression.render, renderSlot_eq]
      apply Extends.append (.refl _)
      apply Extends.append
      · exact .required leftFilled (fun child present child' related => ihLeft child present related _) _
      · exact .required rightFilled (fun child present child' related => ihRight child present related _) _
  | comparison operator left right ihLeft ihRight =>
    cases completes with
    | refl => exact .refl _
    | comparison _ leftFilled rightFilled =>
      simp only [Expression.render, renderSlot_eq]
      apply Extends.append (.refl _)
      apply Extends.append
      · exact .required leftFilled (fun child present child' related => ihLeft child present related _) _
      · exact .required rightFilled (fun child present child' related => ihRight child present related _) _
  | call callee arguments ih =>
    cases completes with
    | refl => exact .refl _
    | call _ each =>
      simp only [Expression.render, renderList_eq]
      apply Extends.append (.refl _)
      apply Extends.append
      · cases each <;> exact .refl _
      · exact .all each fun child present child' related => ih child present related _
  | _ =>
    cases completes
    exact .refl _

theorem Comparison.extends_render {c c' : Comparison} (completes : c.Completes c') (level : Nat) :
    (c.render level).Extends (c'.render level) := by
  obtain ⟨operator, left, right⟩ := c
  obtain ⟨operator', left', right'⟩ := c'
  obtain ⟨rfl, leftFilled, rightFilled⟩ := completes
  exact Expression.extends_render (.comparison _ leftFilled rightFilled) level

theorem Assignment.label_of_completes {a a' : Assignment} (completes : a.Completes a') : a'.label = a.label := by
  unfold Assignment.label
  rw [completes.target]

theorem Assignment.extends_renderBelow {a a' : Assignment} (completes : a.Completes a') (level : Nat) :
    (a.renderBelow level).Extends (a'.renderBelow level) := by
  rw [renderBelow, renderBelow, Expression.renderSlot_eq, Expression.renderSlot_eq, label_of_completes completes]
  exact .required completes.expression (fun _ _ _ related => Expression.extends_render related _) _

theorem Assignment.extends_render {a a' : Assignment} (completes : a.Completes a') (level : Nat) :
    (a.render level).Extends (a'.render level) := by
  rw [render, render, label_of_completes completes]
  exact (Extends.refl _).append (extends_renderBelow completes level)

theorem Variable.label_of_completes {v v' : Variable} (completes : v.Completes v') : v'.label = v.label := by
  unfold Variable.label
  rw [completes.typeName, completes.name]

theorem Variable.extends_renderBelow {v v' : Variable} (completes : v.Completes v') (level : Nat) :
    (v.renderBelow level).Extends (v'.renderBelow level) :=
  .optional completes.assignment fun _ _ _ related => Assignment.extends_render related _

theorem Variable.extends_render {v v' : Variable} (completes : v.Completes v') (level : Nat) :
    (v.render level).Extends (v'.render level) := by
  rw [render, render, label_of_completes completes]
  exact (Extends.refl _).append (extends_renderBelow completes level)

-- Only the types and the names of parameters are printed, and these stay.
theorem parametersTrace_of_completes {parameters parameters' : List Variable}
    (each : List.Forall₂ Variable.Completes parameters parameters') (level : Nat) :
    parametersTrace level parameters' = parametersTrace level parameters := by
  have texts : parameters'.map (fun v => (⟨level + 1, v.typeName ++ " " ++ v.name⟩ : Line)) =
      parameters.map fun v => ⟨level + 1, v.typeName ++ " " ++ v.name⟩ := by
    induction each with
    | nil => rfl
    | cons first _ ih => rw [List.map_cons, List.map_cons, first.typeName, first.name, ih]
  cases each with
  | nil => rfl
  | cons => exact congrArg (fun lines => (⟨⟨level, parametersMarker⟩ :: lines, none⟩ : Trace)) texts

namespace Statement

-- Statements that are extended each give lists and blocks that are.

def Extended (s : Statement) : Prop := ∀ s', s.Completes s' → ∀ level, (s.render level).Extends (s'.render level)

theorem extends_renderList {ss ss' : List Statement} (known : ∀ s ∈ ss, s.Extended)
    (each : List.Forall₂ Completes ss ss') (level : Nat) : (renderList level ss).Extends (renderList level ss') := by
  rw [renderList_eq, renderList_eq]
  exact .all each fun s present s' related => known s present s' related level

theorem extends_block {ss ss' : List Statement} (known : ∀ s ∈ ss, s.Extended)
    (each : List.Forall₂ Completes ss ss') (level : Nat) (absent absent' : Trace) :
    (renderBlock level absent (some ss)).Extends (renderBlock level absent' (some ss')) :=
  (Extends.refl _).append ((extends_renderList known each (level + 1)).append (.refl _))

theorem extends_optionalBlock {block block' : Option Block} (known : ∀ b ∈ block, ∀ s ∈ b, s.Extended)
    (related : Option.Rel (List.Forall₂ Completes) block block') (level : Nat) (absent : Trace) :
    (renderBlock level absent block).Extends (renderBlock level absent block') := by
  cases related with
  | none => exact .refl _
  | some each => exact extends_block (known _ rfl) each level _ _

theorem extends_requiredBlock {block block' : Option Block} (known : ∀ b ∈ block, ∀ s ∈ b, s.Extended)
    (filled : Filled (List.Forall₂ Completes) block block') (level : Nat) (missing : Missing) :
    (renderBlock level (.stop missing) block).Extends (renderBlock level (.stop missing) block') := by
  cases filled with
  | empty => exact .refl _
  | filled b => exact .stop missing _
  | within each => exact extends_block (known _ rfl) each level _ _

theorem extends_inside {block block' : Option Block} (known : ∀ b ∈ block, ∀ s ∈ b, s.Extended)
    (filled : Filled (List.Forall₂ Completes) block block') (level : Nat) (missing : Missing) :
    (renderInside level (.stop missing) block).Extends (renderInside level (.stop missing) block') := by
  cases filled with
  | empty => exact .refl _
  | filled b => exact .stop missing _
  | within each => exact extends_renderList (known _ rfl) each level

theorem render_assignment (level : Nat) (a : Assignment) : (Statement.assignment a).render level = a.render level := by
  rw [render]
  rfl

theorem render_variableDecl (level : Nat) (v : Variable) :
    (Statement.variableDecl v).render level = v.render level := by
  rw [render]
  rfl

theorem extended (s : Statement) : s.Extended := by
  induction s with
  | expression e =>
    intro s' completes level
    cases completes with
    | expression filled =>
      simp only [render, Expression.renderSlot_eq]
      apply Extends.append (.refl _)
      exact .required filled (fun _ _ _ related => Expression.extends_render related _) _
  | assignment a =>
    intro s' completes level
    cases completes with
    | assignment inside =>
      rw [render_assignment, render_assignment]
      exact Assignment.extends_render inside level
  | variableDecl v =>
    intro s' completes level
    cases completes with
    | variableDecl inside =>
      rw [render_variableDecl, render_variableDecl]
      exact Variable.extends_render inside level
  | returning e =>
    intro s' completes level
    cases completes with
    | returning inside =>
      rw [render, render]
      apply Extends.append (.refl _)
      exact .optional inside fun _ _ _ related => Expression.extends_render related _
  | block statements known =>
    intro s' completes level
    cases completes with
    | block each =>
      rw [render, render]
      apply Extends.append (.refl _)
      exact (extends_renderList known each (level + 1)).append (.refl _)
  | conditional condition thenBlock elseBlock thenKnown elseKnown =>
    intro s' completes level
    cases completes with
    | conditional conditionFilled thenInside elseInside =>
      rw [render, render]
      apply Extends.append (.refl _)
      apply Extends.append
      · apply Extends.append
        · exact .required conditionFilled (fun _ _ _ related => Comparison.extends_render related _) _
        · exact extends_optionalBlock thenKnown thenInside _ _
      · exact extends_optionalBlock elseKnown elseInside _ _
  | whileLoop condition body elseBlock bodyKnown elseKnown =>
    intro s' completes level
    cases completes with
    | whileLoop conditionFilled bodyFilled elseInside =>
      simp only [render, Expression.renderSlot_eq]
      apply Extends.append (.refl _)
      apply Extends.append
      · apply Extends.append
        · apply Extends.append
          · apply Extends.append
            · exact .required conditionFilled (fun _ _ _ related => Expression.extends_render related _) _
            · exact .refl _
          · exact extends_requiredBlock bodyKnown bodyFilled _ _
        · cases elseInside <;> exact .refl _
      · exact extends_optionalBlock elseKnown elseInside _ _
  | forLoop init condition body update bodyKnown =>
    intro s' completes level
    cases completes with
    | forLoop initFilled conditionFilled bodyFilled updateFilled =>
      simp only [render, Expression.renderSlot_eq]
      apply Extends.append (.refl _)
      apply Extends.append
      · apply Extends.append
        · apply Extends.append
          · apply Extends.append
            · exact .required initFilled (fun _ _ _ related => Assignment.extends_render related _) _
            · exact .required conditionFilled (fun _ _ _ related => Expression.extends_render related _) _
          · exact .refl _
        · exact extends_requiredBlock bodyKnown bodyFilled _ _
      · exact .required updateFilled (fun _ _ _ related => Assignment.extends_render related _) _
  | functionDecl returnType name parameters body bodyKnown =>
    intro s' completes level
    cases completes with
    | functionDecl _ _ each bodyFilled =>
      rw [render, render, parametersTrace_of_completes each]
      apply Extends.append (.refl _)
      exact (Extends.refl _).append (extends_inside bodyKnown bodyFilled _ _)
  | classDecl name body bodyKnown =>
    intro s' completes level
    cases completes with
    | classDecl _ inside =>
      rw [render, render]
      exact (Extends.refl _).append (extends_optionalBlock bodyKnown inside _ _)

end Statement

theorem Node.extends_render {node node' : Node} (completes : node.Completes node') (level : Nat) :
    (node.render level).Extends (node'.render level) := by
  cases completes with
  | expression inside => exact Expression.extends_render inside level
  | comparison inside => exact Comparison.extends_render inside level
  | assignment inside => exact Assignment.extends_render inside level
  | variableDecl inside => exact Variable.extends_render inside level
  | @block b b' each => exact Statement.extended (.block b) (.block b') (.block each) level
  | @statement s s' inside => exact s.extended s' inside level

end Rendering

theorem Line.bytes_ends (line : Line) : ∃ text, line.bytes = text ++ [Bytes.newline] := by
  refine ⟨List.replicate (indentWidth * line.level) Bytes.space ++ Bytes.ofText line.text, ?_⟩
  simp [Line.bytes, Line.pieces, Line.padded]

-- What is put out ends with a line.
theorem Node.lines_render_ends (level : Nat) (node : Node) :
    ∃ lines last, (node.render level).lines = lines ++ [last] ∧
      (node.render level).bytes = lines.flatMap Line.bytes ++ last.bytes := by
  obtain ⟨more, begun⟩ := node.lines_render level
  obtain empty | ⟨lines, last, ends⟩ := (node.render level).lines.eq_nil_or_concat
  · cases begun.symm.trans empty
  · rw [List.concat_eq_append] at ends
    refine ⟨lines, last, ends, ?_⟩
    rw [Trace.bytes, ends, List.flatMap_append, List.flatMap_singleton]

theorem Trace.Extends.bytes {trace trace' : Trace} (extended : trace.Extends trace') :
    trace.bytes <+: trace'.bytes := by
  obtain ⟨more, same⟩ := extended.lines
  rw [Trace.bytes, Trace.bytes, ← same, List.flatMap_append]
  exact List.prefix_append _ _

-- Filling empty places of a tree only lengthens what an unlimited sink takes of it, and changes nothing if all of it
-- was printed; whatever was printed ends with a line and its newline.
theorem print_of_completes (node : Node) (level : Nat) (refusal : Refusal) :
    let printed := fun node : Node => (Sink.new none refusal).print (node.render level)
    (∀ node', node.Completes node' →
      (printed node).1.bytes <+: (printed node').1.bytes ∧
        ((printed node).2 = .ok () → printed node' = printed node)) ∧
    (printed node).1.bytes ≠ [] ∧
    ∃ lines last text, (node.render level).lines = lines ++ [last] ∧ last.bytes = text ++ [Bytes.newline] ∧
      (printed node).1.bytes = lines.flatMap Line.bytes ++ last.bytes := by
  intro printed
  have taken : ∀ node, (printed node).1.bytes = (node.render level).bytes := by
    intro node
    simp only [printed, Sink.print_unlimited]
    rfl
  refine ⟨?_, ?_, ?_⟩
  · intro node' completes
    have extended := Node.extends_render completes level
    rw [taken, taken]
    refine ⟨extended.bytes, ?_⟩
    intro done
    have whole : (node.render level).missing = none := by
      simp only [printed, Sink.print_unlimited, Trace.outcome] at done
      cases stopped : (node.render level).missing with
      | none => rfl
      | some missing =>
        rw [stopped] at done
        cases done
    simp only [printed, extended.whole whole]
  · rw [taken]
    exact node.bytes_render_ne_nil level
  · obtain ⟨lines, last, ends, all⟩ := node.lines_render_ends level
    obtain ⟨text, newline⟩ := last.bytes_ends
    exact ⟨lines, last, text, ends, newline, (taken node).trans all⟩

-- A return beside a statement without its expression, which is filled with an operator that lacks its operand.
theorem print_of_completes_operator :
    let returning : Statement := .returning (some (.boolean true))
    let broken : Node := .block [returning, .expression none]
    let filled : Node := .block [returning, .expression (some (.unary .not none))]
    broken.Completes filled ∧
      ((Sink.new none .closed).print (broken.render 0)).1.bytes <+:
        ((Sink.new none .closed).print (filled.render 0)).1.bytes ∧
      ((Sink.new none .closed).print (broken.render 0)).1.bytes ≠ [] := by
  intro returning broken filled
  have completes : broken.Completes filled :=
    .block (.cons (.returning (.some (.refl _))) (.cons (.expression (.filled _)) .nil))
  have printed := print_of_completes broken 0 .closed
  exact ⟨completes, (printed.1 filled completes).1, printed.2.1⟩

end Treeline
