import Treeline.Proofs.Legible

namespace Treeline

-- A trace determines its tree, as long as the tree is legible.

namespace Statement

def Legible (s : Statement) : Prop := s.outline.Legible

instance (s : Statement) : Decidable s.Legible := inferInstanceAs (Decidable s.outline.Legible)

theorem Legible.node {s : Statement} (legible : s.Legible) : (Node.statement s).Legible := by
  refine legible _ ?_
  rw [Statement.outline.eq_def, Outline.nodes_node]
  exact List.mem_cons_self

theorem Legible.missing {s : Statement} (legible : s.Legible) (level : Nat) : (s.render level).missing = none :=
  (Node.statement s).missing_of_legible legible level

theorem indentation_render (level : Nat) (s : Statement) (rest : List Char) :
    indentation ((s.render level).chars ++ rest) = Line.indentWidth * level :=
  (Node.statement s).indentation_render level rest

theorem kind_eq_of_chars {s t : Statement} {level : Nat} {rest rest' : List Char} (legible : s.Legible)
    (legible' : t.Legible) (same : (s.render level).chars ++ rest = (t.render level).chars ++ rest') :
    s.label = t.label ∧ s.kind = t.kind := by
  have label : (Node.statement s).label = (Node.statement t).label :=
    Node.label_eq_of_chars legible.node legible'.node same
  exact ⟨label, Kind.statement.inj (Node.kind_eq_of_label label)⟩

theorem chars_list {ss : List Statement} (legible : ∀ s ∈ ss, s.Legible) (level : Nat) :
    (renderList level ss).chars = ss.flatMap fun s => (s.render level).chars := by
  rw [renderList_eq, Trace.chars_traceAll fun s member => (legible s member).missing level]

theorem missing_list {ss : List Statement} (legible : ∀ s ∈ ss, s.Legible) (level : Nat) :
    (renderList level ss).missing = none := by
  induction ss with
  | nil => rfl
  | cons s ss ih =>
    obtain ⟨first, others⟩ := List.forall_mem_cons.mp legible
    rw [renderList, Trace.missing_append, first.missing, ih others]
    rfl

end Statement

theorem Block.Legible.statements {b : Block} (legible : Legible b) : ∀ s ∈ b, s.Legible := by
  rw [Legible, Block.outline, Statement.outlines_eq_map] at legible
  exact fun s member => (Outline.legible_node.mp legible).2 _ (List.mem_map_of_mem member)

theorem Block.chars_render {b : Block} (legible : ∀ s ∈ b, s.Legible) (level : Nat) :
    (Block.render level b).chars = lineChars level (Trace.createPrefix ++ Block.label) ++
      ((b.flatMap fun s => (s.render (level + 1)).chars) ++ lineChars level (Trace.endPrefix ++ Block.label)) := by
  rw [Block.render, Statement.render, Trace.chars_append rfl,
    Trace.chars_append (Statement.missing_list legible (level + 1)), Statement.chars_list legible, Trace.chars_create,
    Trace.chars_close]
  rfl

theorem Block.determined {b : Block} {level : Nat} (legible : Legible b)
    (each : ∀ s ∈ b, Determined Statement.Legible (fun s => (s.render (level + 1)).chars) (Within (level + 1)) s) :
    Determined Legible (fun b => (Block.render level b).chars) (Within level) b := by
  intro c rest rest' legible' within within' same
  have closing : ∀ more, Within level (lineChars level (Trace.endPrefix ++ Block.label) ++ more) := by
    intro more
    rw [Within, indentation_lineChars]
    exact Nat.le_refl _
  simp only [Block.chars_render legible.statements, Block.chars_render legible'.statements, List.append_assoc] at same
  obtain ⟨rfl, ends⟩ := Determined.list (Statement.indentation_render _) each legible'.statements (closing rest)
    (closing rest') (List.append_cancel_left same)
  exact ⟨rfl, List.append_cancel_left ends⟩

namespace Statement

-- A place for a block that may be empty, and one that may not.

theorem renderBlock_some (level : Nat) (absent : Trace) (b : Block) :
    renderBlock level absent (some b) = Block.render level b := rfl

theorem missing_optionalBlock {block : Option Block} (legible : ∀ b ∈ block.toList, Block.Legible b) (level : Nat) :
    (renderBlock level .empty block).missing = none := by
  cases block with
  | none => rfl
  | some b => exact (legible b List.mem_cons_self).missing level

theorem chars_optionalBlock (level : Nat) (block : Option Block) :
    (renderBlock level .empty block).chars = block.toList.flatMap fun b => (Block.render level b).chars := by
  cases block with
  | none => rfl
  | some b => exact (List.append_nil _).symm

theorem legible_outlineBlock {outlines : List Outline} {block : Option Block}
    (legible : ∀ child ∈ outlineBlock outlines block, child.Legible) : ∀ b ∈ block.toList, Block.Legible b := by
  intro b member
  cases Option.mem_toList.mp member
  exact legible _ List.mem_cons_self

theorem chars_expression (e : Expression) (level : Nat) :
    ((expression (some e)).render level).chars =
      lineChars level (Trace.createPrefix ++ (expression none).label) ++ (e.render (level + 1)).chars := by
  rw [Statement.render, Trace.chars_append rfl, Trace.chars_create]
  rfl

theorem chars_returning (place : Option Expression) (level : Nat) :
    ((returning place).render level).chars = lineChars level (Trace.createPrefix ++ (returning none).label) ++
      place.toList.flatMap fun e => (e.render (level + 1)).chars := by
  rw [Statement.render, Trace.chars_append rfl, Trace.chars_create, chars_optionalTrace]
  rfl

theorem chars_conditional {c : Comparison} {thenBlock elseBlock : Option Block} (legible : c.Legible)
    (legibleThen : ∀ b ∈ thenBlock.toList, Block.Legible b) (level : Nat) :
    ((conditional (some c) thenBlock elseBlock).render level).chars =
      lineChars level (Trace.createPrefix ++ (conditional none none none).label) ++ ((c.render (level + 1)).chars ++
        (thenBlock.toList ++ elseBlock.toList).flatMap fun b => (Block.render (level + 1) b).chars) := by
  have through : (c.render (level + 1)).missing = none := legible.toExpression.missing (level + 1)
  rw [Statement.render, Trace.chars_append rfl, Trace.chars_create, Trace.append_assoc, requiredTrace,
    Trace.chars_append through, Trace.chars_append (missing_optionalBlock legibleThen _), chars_optionalBlock,
    chars_optionalBlock, List.flatMap_append]
  rfl

def elseChars (level : Nat) (b : Block) : List Char :=
  lineChars level Trace.elseBodyMarker ++ (Block.render level b).chars

theorem chars_whileLoop {e : Expression} {b : Block} {elseBlock : Option Block} (legible : e.Legible)
    (legibleBody : Block.Legible b) (level : Nat) :
    ((whileLoop (some e) (some b) elseBlock).render level).chars =
      lineChars level (Trace.createPrefix ++ (whileLoop none none none).label) ++ ((e.render (level + 1)).chars ++
        (lineChars (level + 1) Trace.loopBodyMarker ++ ((Block.render (level + 1) b).chars ++
          elseBlock.toList.flatMap (elseChars (level + 1))))) := by
  have otherwise : ((if elseBlock.isSome then Trace.line (level + 1) Trace.elseBodyMarker else .empty) ++
      renderBlock (level + 1) .empty elseBlock).chars = elseBlock.toList.flatMap (elseChars (level + 1)) := by
    cases elseBlock with
    | none => rfl
    | some b =>
      change (Trace.line (level + 1) Trace.elseBodyMarker ++ renderBlock (level + 1) .empty (some b)).chars = _
      rw [Trace.chars_append rfl, Trace.chars_line, chars_optionalBlock]
      simp [elseChars]
  rw [Statement.render, Trace.chars_append rfl, Trace.chars_create, Trace.append_assoc, Trace.append_assoc,
    Trace.append_assoc, Expression.renderSlot, renderBlock_some, Trace.chars_append (legible.missing _),
    Trace.chars_append rfl, Trace.chars_append (legibleBody.missing _), otherwise, Trace.chars_line]
  rfl

theorem chars_forLoop {a : Assignment} {e : Expression} {b : Block} (legible : a.Legible) (legible' : e.Legible)
    (legibleBody : Block.Legible b) (update : Assignment) (level : Nat) :
    ((forLoop (some a) (some e) (some b) (some update)).render level).chars =
      lineChars level (Trace.createPrefix ++ (forLoop none none none none).label) ++ ((a.render (level + 1)).chars ++
        ((e.render (level + 1)).chars ++ (lineChars (level + 1) Trace.loopBodyMarker ++
          ((Block.render (level + 1) b).chars ++ (update.render (level + 1)).chars)))) := by
  rw [Statement.render, Trace.chars_append rfl, Trace.chars_create, Trace.append_assoc, Trace.append_assoc,
    Trace.append_assoc, requiredTrace, requiredTrace, Expression.renderSlot, renderBlock_some,
    Trace.chars_append (legible.missing _), Trace.chars_append (legible'.missing _), Trace.chars_append rfl,
    Trace.chars_append (legibleBody.missing _), Trace.chars_line]
  rfl

theorem chars_classDecl (name : String) (body : Option Block) (level : Nat) :
    ((classDecl name body).render level).chars = lineChars level (Trace.createPrefix ++ (classDecl name none).label) ++
      body.toList.flatMap fun b => (Block.render (level + 1) b).chars := by
  rw [Statement.render, Trace.chars_append rfl, Trace.chars_create, chars_optionalBlock]
  rfl

end Statement

-- Parameters of a function.

def parameterChars (level : Nat) (v : Variable) : List Char := lineChars level (v.typeName ++ " " ++ v.name)

def parametersChars (level : Nat) : List Variable → List Char :=
  headed (lineChars level Trace.parametersMarker) (parameterChars (level + 1))

theorem chars_parametersTrace (level : Nat) (parameters : List Variable) :
    (parametersTrace level parameters).chars = parametersChars level parameters := by
  cases parameters with
  | nil => rfl
  | cons v vs =>
    simp only [parametersTrace, Trace.chars, List.flatMap_cons, List.map_cons, List.flatMap_map]
    rfl

theorem Statement.chars_functionDecl {body : Block} (legible : ∀ s ∈ body, s.Legible) (returnType name : String)
    (parameters : List Variable) (level : Nat) :
    ((functionDecl returnType name parameters (some body)).render level).chars =
      lineChars level (Trace.createPrefix ++ (functionDecl returnType name [] none).label) ++
        (parametersChars (level + 1) parameters ++ body.flatMap fun s => (s.render (level + 1)).chars) := by
  rw [Statement.render, Trace.chars_append rfl, Trace.chars_create, Statement.renderInside,
    Trace.chars_append (missing_parametersTrace _ _), chars_parametersTrace, Statement.chars_list legible]
  rfl

-- A parameter takes a line of its own, so any text may follow it.
theorem Variable.parameter_determined {v : Variable} (legible : v.Legible) (plain : v.assignment = none) (level : Nat) :
    Determined (fun w => w.Legible ∧ w.assignment = none) (parameterChars level) (fun _ => True) v := by
  rintro w rest rest' ⟨legible', plain'⟩ - - same
  have single : ∀ v : Variable, v.Legible → '\n' ∉ (v.typeName ++ " " ++ v.name).toList := by
    intro v legible
    have inType := legible.node.oneLine v.typeName (by simp [Node.texts])
    have inName := legible.node.oneLine v.name (by simp [Node.texts])
    simp [inType, inName]
  obtain ⟨texts, rests⟩ := lineChars_inj (single v legible) (single w legible') same
  obtain ⟨types, names⟩ := spaced_inj legible.typeName legible'.typeName texts
  obtain ⟨typeName, name, assignment⟩ := v
  obtain ⟨typeName', name', assignment'⟩ := w
  cases types
  cases names
  cases plain
  cases plain'
  exact ⟨rfl, rests⟩

-- What follows the parameters of a function is not indented as far as they are and is not their header.
structure EndsParameters (level : Nat) (rest : List Char) : Prop where
  within : Within level rest
  headless : ∀ more, rest ≠ lineChars level Trace.parametersMarker ++ more

theorem parametersChars_inj {level : Nat} {vs ws : List Variable} {rest rest' : List Char}
    (legible : ∀ v ∈ vs, v.Legible ∧ v.assignment = none) (legible' : ∀ w ∈ ws, w.Legible ∧ w.assignment = none)
    (ending : EndsParameters level rest) (ending' : EndsParameters level rest')
    (same : parametersChars level vs ++ rest = parametersChars level ws ++ rest') : vs = ws ∧ rest = rest' := by
  refine Determined.headed (fun _ _ => trivial) ?_ (fun _ _ => trivial) ?_ ?_ legible' ending ending' same
  · exact fun v more ends => not_within_lineChars level _ more ends.within
  · exact fun more ends => ends.headless more rfl
  · exact fun v member => v.parameter_determined (legible v member).1 (legible v member).2 _

namespace Statement

theorem endsParameters_body {level : Nat} {rest : List Char} (within : Within level rest) (ss : List Statement) :
    EndsParameters (level + 1) ((ss.flatMap fun s => (s.render (level + 1)).chars) ++ rest) := by
  refine ⟨within_list (indentation_render _) ss within, ?_⟩
  intro more same
  cases ss with
  | nil =>
    have header : rest = lineChars (level + 1) Trace.parametersMarker ++ more := same
    exact not_within_lineChars level _ more (header ▸ within)
  | cons s ss =>
    obtain ⟨others, spelled⟩ := (Node.statement s).chars_render (level + 1)
    have first : (s.render (level + 1)).chars = _ := spelled
    rw [List.flatMap_cons, first, lineChars, lineChars] at same
    simp only [List.append_assoc, String.toList_append] at same
    exact absurd (List.append_cancel_left same) (by simp [Trace.createPrefix, Trace.parametersMarker])

-- What a legible statement has in its places.

theorem Legible.value {slot : Option Expression} (legible : (expression slot).Legible) :
    ∃ e, slot = some e ∧ e.Legible := by
  obtain ⟨own, below⟩ := Outline.legible_node.mp legible
  obtain ⟨e, rfl⟩ := emptySlot_eq_nil own.complete
  exact ⟨e, rfl, below _ List.mem_cons_self⟩

theorem Legible.result {place : Option Expression} (legible : (returning place).Legible) :
    ∀ e ∈ place.toList, e.Legible := by
  intro e member
  exact (Outline.legible_node.mp legible).2 _ (List.mem_map_of_mem member)

theorem Legible.ofAssignment {a : Assignment} (legible : (assignment a).Legible) : a.Legible := by
  obtain ⟨own, below⟩ := Outline.legible_node.mp legible
  exact Outline.legible_node.mpr ⟨⟨own.complete, rfl, own.oneLine, own.oneWord, own.uninitialized, rfl⟩, below⟩

theorem Legible.ofVariable {v : Variable} (legible : (variableDecl v).Legible) : v.Legible := by
  obtain ⟨own, below⟩ := Outline.legible_node.mp legible
  exact Outline.legible_node.mpr ⟨⟨own.complete, rfl, own.oneLine, own.oneWord, own.uninitialized, rfl⟩, below⟩

theorem Legible.ofBlock {b : Block} (legible : (block b).Legible) : Block.Legible b := by
  obtain ⟨own, below⟩ := Outline.legible_node.mp legible
  exact Outline.legible_node.mpr ⟨⟨own.complete, rfl, own.oneLine, own.oneWord, own.uninitialized, rfl⟩, below⟩

theorem Legible.branches {condition : Option Comparison} {thenBlock elseBlock : Option Block}
    (legible : (conditional condition thenBlock elseBlock).Legible) :
    (∃ c, condition = some c ∧ c.Legible) ∧ (∀ b ∈ thenBlock.toList ++ elseBlock.toList, Block.Legible b) ∧
      (thenBlock = none → elseBlock = none) := by
  obtain ⟨own, below⟩ := Outline.legible_node.mp legible
  obtain ⟨c, rfl⟩ := emptySlot_eq_nil own.complete
  obtain ⟨first, others⟩ := List.forall_mem_cons.mp below
  obtain ⟨inThen, inElse⟩ := List.forall_mem_append.mp others
  refine ⟨⟨c, rfl, first⟩, List.forall_mem_append.mpr ⟨legible_outlineBlock inThen, legible_outlineBlock inElse⟩, ?_⟩
  rintro rfl
  cases elseBlock with
  | none => rfl
  | some b => cases own.thenFirst

theorem Legible.whileParts {condition : Option Expression} {body elseBlock : Option Block}
    (legible : (whileLoop condition body elseBlock).Legible) :
    ∃ e b, condition = some e ∧ body = some b ∧ e.Legible ∧ Block.Legible b ∧
      ∀ c ∈ elseBlock.toList, Block.Legible c := by
  obtain ⟨own, below⟩ := Outline.legible_node.mp legible
  obtain ⟨full, fullBody⟩ := List.append_eq_nil_iff.mp own.complete
  obtain ⟨e, rfl⟩ := emptySlot_eq_nil full
  obtain ⟨b, rfl⟩ := emptySlot_eq_nil fullBody
  obtain ⟨first, others⟩ := List.forall_mem_cons.mp below
  obtain ⟨inBody, inElse⟩ := List.forall_mem_append.mp others
  exact ⟨e, b, rfl, rfl, first, inBody _ List.mem_cons_self, legible_outlineBlock inElse⟩

theorem Legible.forParts {init : Option Assignment} {condition : Option Expression} {body : Option Block}
    {update : Option Assignment} (legible : (forLoop init condition body update).Legible) :
    ∃ a e b u, init = some a ∧ condition = some e ∧ body = some b ∧ update = some u ∧
      a.Legible ∧ e.Legible ∧ Block.Legible b ∧ u.Legible := by
  obtain ⟨own, below⟩ := Outline.legible_node.mp legible
  have full := own.complete
  simp only [Node.emptySlots, Statement.emptySlots, List.append_eq_nil_iff] at full
  obtain ⟨⟨⟨fullInit, fullCondition⟩, fullBody⟩, fullUpdate⟩ := full
  obtain ⟨a, rfl⟩ := emptySlot_eq_nil fullInit
  obtain ⟨e, rfl⟩ := emptySlot_eq_nil fullCondition
  obtain ⟨b, rfl⟩ := emptySlot_eq_nil fullBody
  obtain ⟨u, rfl⟩ := emptySlot_eq_nil fullUpdate
  obtain ⟨first, others⟩ := List.forall_mem_cons.mp below
  obtain ⟨second, others⟩ := List.forall_mem_cons.mp others
  obtain ⟨inBody, last⟩ := List.forall_mem_append.mp others
  exact ⟨a, e, b, u, rfl, rfl, rfl, rfl, first, second, inBody _ List.mem_cons_self, last _ List.mem_cons_self⟩

theorem Legible.functionParts {returnType name : String} {parameters : List Variable} {body : Option Block}
    (legible : (functionDecl returnType name parameters body).Legible) :
    ' ' ∉ returnType.toList ∧ (∀ v ∈ parameters, v.Legible ∧ v.assignment = none) ∧
      ∃ b, body = some b ∧ Block.Legible b := by
  obtain ⟨own, below⟩ := Outline.legible_node.mp legible
  obtain ⟨b, rfl⟩ := emptySlot_eq_nil own.complete
  obtain ⟨inParameters, inBody⟩ := List.forall_mem_append.mp below
  refine ⟨own.oneWord _ List.mem_cons_self, ?_, b, rfl, inBody _ List.mem_cons_self⟩
  exact fun v member => ⟨inParameters _ (List.mem_map_of_mem member), own.uninitialized v member⟩

theorem Legible.members {name : String} {body : Option Block} (legible : (classDecl name body).Legible) :
    ∀ b ∈ body.toList, Block.Legible b :=
  legible_outlineBlock (Outline.legible_node.mp legible).2

theorem branches_inj {thenBlock elseBlock thenBlock' elseBlock' : Option Block}
    (thenFirst : thenBlock = none → elseBlock = none) (thenFirst' : thenBlock' = none → elseBlock' = none)
    (same : thenBlock.toList ++ elseBlock.toList = thenBlock'.toList ++ elseBlock'.toList) :
    thenBlock = thenBlock' ∧ elseBlock = elseBlock' := by
  cases thenBlock with
  | none =>
    cases thenBlock' with
    | none => exact ⟨rfl, (thenFirst rfl).trans (thenFirst' rfl).symm⟩
    | some b =>
      cases thenFirst rfl
      cases same
  | some b =>
    cases thenBlock' with
    | none =>
      cases thenFirst' rfl
      cases same
    | some c =>
      obtain ⟨first, others⟩ := List.cons.inj same
      exact ⟨congrArg some first, toList_inj others⟩

theorem indentation_elseChars (level : Nat) (b : Block) (rest : List Char) :
    indentation (elseChars level b ++ rest) = Line.indentWidth * level := by
  rw [elseChars, List.append_assoc, indentation_lineChars]
  rfl

theorem elseChars_determined {level : Nat} {b : Block}
    (known : Determined Block.Legible (fun b => (Block.render level b).chars) (Within level) b) :
    Determined Block.Legible (elseChars level) (Within level) b := by
  intro c rest rest' legible within within' same
  rw [elseChars, elseChars, List.append_assoc, List.append_assoc] at same
  exact known c rest rest' legible within within' (List.append_cancel_left same)

theorem within_marker (level : Nat) (rest : List Char) :
    Within level (lineChars level Trace.loopBodyMarker ++ rest) := by
  rw [Within, indentation_lineChars]
  exact Nat.le_refl _

theorem determined (s : Statement) (level : Nat) (legible : s.Legible) :
    Determined Legible (fun s => (s.render level).chars) (Within level) s := by
  induction s generalizing level with
  | expression slot =>
    intro t rest rest' legible' within within' same
    obtain ⟨-, kind⟩ := kind_eq_of_chars legible legible' same
    cases t with
    | expression slot' =>
      obtain ⟨x, rfl, legibleX⟩ := legible.value
      obtain ⟨y, rfl, legibleY⟩ := legible'.value
      simp only [chars_expression, List.append_assoc] at same
      obtain ⟨rfl, rests⟩ := x.determined (level + 1) legibleX y rest rest' legibleY (within.mono (Nat.le_succ level))
        (within'.mono (Nat.le_succ level)) (List.append_cancel_left same)
      exact ⟨rfl, rests⟩
    | _ => cases kind
  | assignment a =>
    intro t rest rest' legible' within within' same
    obtain ⟨-, kind⟩ := kind_eq_of_chars legible legible' same
    cases t with
    | assignment b =>
      obtain ⟨rfl, rests⟩ :=
        a.determined level legible.ofAssignment b rest rest' legible'.ofAssignment within within' same
      exact ⟨rfl, rests⟩
    | _ => cases kind
  | variableDecl v =>
    intro t rest rest' legible' within within' same
    obtain ⟨-, kind⟩ := kind_eq_of_chars legible legible' same
    cases t with
    | variableDecl w =>
      obtain ⟨rfl, rests⟩ := v.determined level legible.ofVariable w rest rest' legible'.ofVariable within within' same
      exact ⟨rfl, rests⟩
    | _ => cases kind
  | returning place =>
    intro t rest rest' legible' within within' same
    obtain ⟨-, kind⟩ := kind_eq_of_chars legible legible' same
    cases t with
    | returning place' =>
      simp only [chars_returning, List.append_assoc] at same
      obtain ⟨values, rests⟩ := Determined.list (Expression.indentation_render _)
        (fun e member => e.determined _ (legible.result e member)) legible'.result within within'
        (List.append_cancel_left same)
      exact ⟨congrArg _ (toList_inj values), rests⟩
    | _ => cases kind
  | block b ih =>
    intro t rest rest' legible' within within' same
    obtain ⟨-, kind⟩ := kind_eq_of_chars legible legible' same
    cases t with
    | block c =>
      have each := fun s member => ih s member (level + 1) (legible.ofBlock.statements s member)
      obtain ⟨rfl, rests⟩ := Block.determined legible.ofBlock each c rest rest' legible'.ofBlock within within' same
      exact ⟨rfl, rests⟩
    | _ => cases kind
  | conditional condition thenBlock elseBlock ihThen ihElse =>
    intro t rest rest' legible' within within' same
    obtain ⟨-, kind⟩ := kind_eq_of_chars legible legible' same
    cases t with
    | conditional condition' thenBlock' elseBlock' =>
      obtain ⟨⟨c, rfl, legibleC⟩, blocks, thenFirst⟩ := legible.branches
      obtain ⟨⟨d, rfl, legibleD⟩, blocks', thenFirst'⟩ := legible'.branches
      simp only [chars_conditional legibleC (List.forall_mem_append.mp blocks).1,
        chars_conditional legibleD (List.forall_mem_append.mp blocks').1, List.append_assoc] at same
      have each : ∀ b ∈ thenBlock.toList ++ elseBlock.toList,
          Determined Block.Legible (fun b => (Block.render (level + 1) b).chars) (Within (level + 1)) b := by
        intro b member
        refine Block.determined (blocks b member) fun s inside => ?_
        rcases List.mem_append.mp member with inThen | inElse
        · exact ihThen b (Option.mem_toList.mp inThen) s inside _ ((blocks b member).statements s inside)
        · exact ihElse b (Option.mem_toList.mp inElse) s inside _ ((blocks b member).statements s inside)
      obtain ⟨rfl, others⟩ := c.determined (level + 1) legibleC d _ _ legibleD
        (within_list (Block.indentation_render _) _ within)
        (within_list (Block.indentation_render _) _ within') (List.append_cancel_left same)
      obtain ⟨branches, rests⟩ := Determined.list (Block.indentation_render _) each blocks' within within' others
      obtain ⟨rfl, rfl⟩ := branches_inj thenFirst thenFirst' branches
      exact ⟨rfl, rests⟩
    | _ => cases kind
  | whileLoop condition body elseBlock ihBody ihElse =>
    intro t rest rest' legible' within within' same
    obtain ⟨-, kind⟩ := kind_eq_of_chars legible legible' same
    cases t with
    | whileLoop condition' body' elseBlock' =>
      obtain ⟨e, b, rfl, rfl, legibleE, legibleB, blocks⟩ := legible.whileParts
      obtain ⟨e', b', rfl, rfl, legibleE', legibleB', blocks'⟩ := legible'.whileParts
      simp only [chars_whileLoop legibleE legibleB, chars_whileLoop legibleE' legibleB', List.append_assoc] at same
      obtain ⟨rfl, marked⟩ := e.determined (level + 1) legibleE e' _ _ legibleE' (within_marker _ _)
        (within_marker _ _) (List.append_cancel_left same)
      have inBody := fun s member => ihBody b rfl s member (level + 2) (legibleB.statements s member)
      obtain ⟨rfl, others⟩ := Block.determined legibleB inBody b' _ _ legibleB'
        (within_list (indentation_elseChars _) _ within)
        (within_list (indentation_elseChars _) _ within') (List.append_cancel_left marked)
      have each : ∀ c ∈ elseBlock.toList,
          Determined Block.Legible (elseChars (level + 1)) (Within (level + 1)) c := by
        intro c member
        refine elseChars_determined (Block.determined (blocks c member) fun s inside => ?_)
        exact ihElse c (Option.mem_toList.mp member) s inside _ ((blocks c member).statements s inside)
      obtain ⟨branches, rests⟩ := Determined.list (indentation_elseChars _) each blocks' within within' others
      cases toList_inj branches
      exact ⟨rfl, rests⟩
    | _ => cases kind
  | forLoop init condition body update ih =>
    intro t rest rest' legible' within within' same
    obtain ⟨-, kind⟩ := kind_eq_of_chars legible legible' same
    cases t with
    | forLoop init' condition' body' update' =>
      obtain ⟨a, e, b, u, rfl, rfl, rfl, rfl, legibleA, legibleE, legibleB, legibleU⟩ := legible.forParts
      obtain ⟨a', e', b', u', rfl, rfl, rfl, rfl, legibleA', legibleE', legibleB', legibleU'⟩ := legible'.forParts
      simp only [chars_forLoop legibleA legibleE legibleB, chars_forLoop legibleA' legibleE' legibleB',
        List.append_assoc] at same
      obtain ⟨rfl, afterInit⟩ := a.determined (level + 1) legibleA a' _ _ legibleA' (e.within_render _ _)
        (e'.within_render _ _) (List.append_cancel_left same)
      obtain ⟨rfl, marked⟩ := e.determined (level + 1) legibleE e' _ _ legibleE' (within_marker _ _)
        (within_marker _ _) afterInit
      have inBody := fun s member => ih b rfl s member (level + 2) (legibleB.statements s member)
      obtain ⟨rfl, others⟩ := Block.determined legibleB inBody b' _ _ legibleB'
        (Nat.le_of_eq (u.indentation_render _ _)) (Nat.le_of_eq (u'.indentation_render _ _))
        (List.append_cancel_left marked)
      obtain ⟨rfl, rests⟩ := u.determined (level + 1) legibleU u' rest rest' legibleU'
        (within.mono (Nat.le_succ level)) (within'.mono (Nat.le_succ level)) others
      exact ⟨rfl, rests⟩
    | _ => cases kind
  | functionDecl returnType name parameters body ih =>
    intro t rest rest' legible' within within' same
    obtain ⟨label, kind⟩ := kind_eq_of_chars legible legible' same
    cases t with
    | functionDecl returnType' name' parameters' body' =>
      obtain ⟨single, plain, b, rfl, legibleB⟩ := legible.functionParts
      obtain ⟨single', plain', b', rfl, legibleB'⟩ := legible'.functionParts
      obtain ⟨rfl, rfl⟩ := typed_inj single single' label
      simp only [chars_functionDecl legibleB.statements, chars_functionDecl legibleB'.statements,
        List.append_assoc] at same
      obtain ⟨rfl, others⟩ := parametersChars_inj plain plain' (endsParameters_body within b)
        (endsParameters_body within' b') (List.append_cancel_left same)
      obtain ⟨rfl, rests⟩ := Determined.list (indentation_render _)
        (fun s member => ih b rfl s member _ (legibleB.statements s member)) legibleB'.statements within within' others
      exact ⟨rfl, rests⟩
    | _ => cases kind
  | classDecl name body ih =>
    intro t rest rest' legible' within within' same
    obtain ⟨label, kind⟩ := kind_eq_of_chars legible legible' same
    cases t with
    | classDecl name' body' =>
      cases (String.append_right_inj _).mp label
      simp only [chars_classDecl, List.append_assoc] at same
      have each : ∀ b ∈ body.toList,
          Determined Block.Legible (fun b => (Block.render (level + 1) b).chars) (Within (level + 1)) b := by
        intro b member
        refine Block.determined (legible.members b member) fun s inside => ?_
        exact ih b (Option.mem_toList.mp member) s inside _ ((legible.members b member).statements s inside)
      obtain ⟨bodies, rests⟩ := Determined.list (Block.indentation_render _) each legible'.members within within'
        (List.append_cancel_left same)
      cases toList_inj bodies
      exact ⟨rfl, rests⟩
    | _ => cases kind

theorem eq_of_printed_alike {s t : Statement} (legible : s.Legible) (legible' : t.Legible) (level : Nat)
    (refusal : Refusal)
    (same : ((Sink.new none refusal).print (s.render level)).1.bytes =
      ((Sink.new none refusal).print (t.render level)).1.bytes) : s = t := by
  rw [Sink.print_unlimited, Sink.print_unlimited] at same
  have chars : (s.render level).chars ++ [] = (t.render level).chars ++ [] := by
    rw [List.append_nil, List.append_nil]
    exact Trace.chars_eq_of_bytes same
  have nothing : Within level [] := Nat.zero_le _
  exact (s.determined level legible t [] [] legible' nothing nothing chars).1

-- A function with a loop around a call whose argument is a comparison of calls, and the same written in another way.
theorem eq_of_printed_alike_nested :
    let inner : Comparison := ⟨.equal, some (.call "f" [.integer 1]), some (.call "" [])⟩
    let loop (condition : Expression) : Statement :=
      .whileLoop (some condition) (some [.returning none]) (some [.expression (some (.string " "))])
    let function (body : Block) : Statement := .functionDecl "int" "f x" [⟨"", "Create Block", none⟩] (some body)
    let s := function [loop (.comparison inner.operator inner.left inner.right), .classDecl "End Block" none]
    let t := function (loop inner.toExpression :: [.classDecl "End Block" none])
    s.Legible ∧ t.Legible ∧
      ((Sink.new none .full).print (s.render 3)).1.bytes = ((Sink.new none .full).print (t.render 3)).1.bytes ∧
      s = t := by
  intro inner loop function s t
  have legible : s.Legible := by decide +kernel
  have legible' : t.Legible := by decide +kernel
  exact ⟨legible, legible', rfl, eq_of_printed_alike legible legible' 3 .full rfl⟩

end Statement

end Treeline
