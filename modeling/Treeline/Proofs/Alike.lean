import Mathlib.Data.List.Forall2
import Treeline.Proofs.Counting
import Treeline.Proofs.Layout
import Treeline.Proofs.Sink
import Treeline.Proofs.Tracing
import Treeline.Tree.Equality

namespace Treeline

-- Outlines that are alike are counted and printed alike, and those of equal trees are. Equality compares doubles as
-- numbers, so the labels of the two zeros are all that can differ.

namespace Binary64

theorem eq_or_zeros_of_equal {x y : Binary64} (equal : x.equal y = true) :
    x = y ∨ x.isZero = true ∧ y.isZero = true := by
  simp only [Binary64.equal, Bool.and_eq_true, Bool.or_eq_true, beq_iff_eq] at equal
  obtain ⟨-, bits | zeros⟩ := equal
  · exact .inl (congrArg Binary64.mk bits)
  · exact .inr zeros

theorem equal_self_iff (x : Binary64) : x.equal x = true ↔ x.isNaN = false := by
  simp [Binary64.equal]

-- The label of a zero, by its sign.
def zeroLabel (negative : Bool) : String := if negative then "Double: -0" else "Double: 0"

theorem label_of_isZero {x : Binary64} (zero : x.isZero = true) :
    (Expression.double x).label = zeroLabel x.isNegative := by
  have magnitude : x.magnitude = 0 := of_decide_eq_true zero
  have number : x.isNaN = false := by simp [isNaN, magnitude]
  have finite : x.isInfinite = false := by simp [isInfinite, magnitude, infiniteMagnitude, hiddenBit]
  have written : NumeralStyle.label.write x = if x.isNegative then ['-', '0'] else ['0'] := by
    simp only [NumeralStyle.write, NumeralStyle.unsigned, number, finite, zero]
    cases x.isNegative <;> rfl
  have label : (Expression.double x).label = "Double: " ++ String.ofList (NumeralStyle.label.write x) := rfl
  rw [label, written]
  cases x.isNegative <;> rfl

end Binary64

def LabelsAlike (one two : String) : Prop :=
  one = two ∨ ∃ negative, one = Binary64.zeroLabel negative ∧ two = Binary64.zeroLabel !negative

theorem Binary64.labelsAlike_of_equal {x y : Binary64} (equal : x.equal y = true) :
    LabelsAlike (Expression.double x).label (Expression.double y).label := by
  rcases eq_or_zeros_of_equal equal with rfl | ⟨zero, zero'⟩
  · exact .inl rfl
  · rw [label_of_isZero zero, label_of_isZero zero']
    by_cases signs : y.isNegative = x.isNegative
    · exact .inl (congrArg zeroLabel signs.symm)
    · exact .inr ⟨x.isNegative, rfl, congrArg zeroLabel (Bool.eq_not_of_ne signs)⟩

-- What both passes together see of a node.
structure Node.Resembles (a b : Node) : Prop where
  kind : a.kind = b.kind
  role : a.role = b.role
  parameters : a.parameters.map Variable.parameterText = b.parameters.map Variable.parameterText
  label : LabelsAlike a.label b.label

theorem Node.Resembles.refl (node : Node) : node.Resembles node := ⟨rfl, rfl, rfl, .inl rfl⟩

inductive Outline.Alike : Outline → Outline → Prop
  | hole (missing : Missing) : Alike (.hole missing) (.hole missing)
  | node {parent parent' : Node} {children children' : List Outline} (seen : parent.Resembles parent')
      (below : List.Forall₂ Alike children children') : Alike (.node parent children) (.node parent' children')

theorem Outline.Alike.refl (outline : Outline) : outline.Alike outline := by
  induction outline with
  | hole missing => exact .hole missing
  | node parent children ih => exact .node (.refl parent) (List.forall₂_same.mpr ih)

-- The counting pass sees only the kinds.

theorem countAll_of_forall₂ {α : Type} {R : α → α → Prop} {count : α → Counting} {children children' : List α}
    (each : List.Forall₂ R children children')
    (same : ∀ child ∈ children, ∀ child', R child child' → count child = count child') :
    countAll count children = countAll count children' := by
  induction each with
  | nil => rfl
  | cons related _ ih =>
    obtain ⟨first, others⟩ := List.forall_mem_cons.mp same
    rw [countAll, first _ related, ih others, countAll]

theorem Outline.Alike.count_eq {outline outline' : Outline} (alike : outline.Alike outline') (depth : Depth) :
    outline.count depth = outline'.count depth := by
  induction outline generalizing outline' depth with
  | hole missing =>
    cases alike
    rfl
  | node parent children ih =>
    cases alike with
    | node seen below =>
      have children := countAll_of_forall₂ below fun child present child' related =>
        ih child present related (depth + 1)
      rw [count_node, count_node, seen.kind, children]

-- The printing pass also sees the labels, the parameters, and by the parent whether a node is a parameter or a body.

inductive Line.Alike : Line → Line → Prop
  | same (line : Line) : Alike line line
  | lowered (level : Nat) : Alike ⟨level, "Create Double: 0"⟩ ⟨level, "Create Double: -0"⟩
  | raised (level : Nat) : Alike ⟨level, "Create Double: -0"⟩ ⟨level, "Create Double: 0"⟩

structure Trace.Alike (one two : Trace) : Prop where
  lines : List.Forall₂ Line.Alike one.lines two.lines
  missing : one.missing = two.missing

namespace Trace.Alike

theorem refl (trace : Trace) : trace.Alike trace := ⟨List.forall₂_same.mpr fun line _ => .same line, rfl⟩

theorem append {one two one' two' : Trace} (first : one.Alike two) (second : one'.Alike two') :
    (one ++ one').Alike (two ++ two') := by
  obtain ⟨lines, missing⟩ := one
  obtain ⟨lines', missing'⟩ := two
  obtain ⟨alike, same⟩ := first
  cases same
  cases missing with
  | some missing => exact ⟨alike, rfl⟩
  | none => exact ⟨List.rel_append alike second.lines, second.missing⟩

theorem create (level : Nat) {label label' : String} (labels : LabelsAlike label label') :
    (Trace.create level label).Alike (Trace.create level label') := by
  rcases labels with rfl | ⟨negative, rfl, rfl⟩
  · exact refl _
  · refine ⟨.cons ?_ .nil, rfl⟩
    cases negative with
    | false => exact Line.Alike.lowered level
    | true => exact Line.Alike.raised level

end Trace.Alike

theorem parametersTrace_eq_of_map {parameters parameters' : List Variable}
    (same : parameters.map Variable.parameterText = parameters'.map Variable.parameterText) (level : Nat) :
    parametersTrace level parameters = parametersTrace level parameters' := by
  have shown (vs : List Variable) : parametersTrace level vs =
      if (vs.map Variable.parameterText).isEmpty then .empty
      else ⟨⟨level, Trace.parametersMarker⟩ :: (vs.map Variable.parameterText).map (Line.mk (level + 1)), none⟩ := by
    cases vs with
    | nil => rfl
    | cons v vs =>
      rw [List.map_map]
      rfl
  rw [shown, shown, same]

namespace Place

theorem isParameter_eq (place : Place) : place.isParameter = (place.ancestors.head?.map Node.kind).any fun above =>
    place.node.role = .variableDecl && above = .statement .functionDecl := by
  obtain ⟨node, _ | ⟨parent, ancestors⟩⟩ := place
  · rfl
  · cases node <;> simp [isParameter, Node.isParameterOf, Node.role]

theorem isBody_eq (place : Place) : place.isBody = (place.ancestors.head?.map Node.kind).any fun above =>
    place.node.role = .block && above = .statement .functionDecl := by
  obtain ⟨node, _ | ⟨parent, ancestors⟩⟩ := place
  · rfl
  · cases node <;> simp [isBody, Node.isBodyOf, Node.role]

-- A place as the printing pass sees it.
structure Resembles (one two : Place) : Prop where
  node : one.node.Resembles two.node
  above : one.ancestors.head?.map Node.kind = two.ancestors.head?.map Node.kind

namespace Resembles

variable {one two : Place}

theorem isParameter_eq (seen : one.Resembles two) : one.isParameter = two.isParameter := by
  rw [Place.isParameter_eq, Place.isParameter_eq, seen.above, seen.node.role]

theorem isBody_eq (seen : one.Resembles two) : one.isBody = two.isBody := by
  rw [Place.isBody_eq, Place.isBody_eq, seen.above, seen.node.role]

theorem inner_eq (seen : one.Resembles two) (level : Nat) : one.inner level = two.inner level := by
  rw [inner, inner, seen.isBody_eq, Node.isComparison, Node.isComparison, seen.node.kind]

theorem opening_alike (seen : one.Resembles two) (level : Nat) : (one.opening level).Alike (two.opening level) := by
  rw [opening, opening, seen.isBody_eq, parametersTrace_eq_of_map seen.node.parameters]
  split
  · exact .refl _
  · exact (Trace.Alike.create level seen.node.label).append (.refl _)

theorem closing_eq (seen : one.Resembles two) (level : Nat) : one.closing level = two.closing level := by
  rw [closing, closing, isBlock, isBlock, seen.isBody_eq, seen.node.kind]

end Resembles

end Place

namespace Outline

theorem traceList_alike {ancestors ancestors' : List Node} {level : Nat} {children children' : List Outline}
    (each : List.Forall₂ Alike children children')
    (same : ∀ child ∈ children, ∀ child', child.Alike child' →
      (child.trace ancestors level).Alike (child'.trace ancestors' level)) (markers : List (Option String)) :
    (traceList ancestors level markers children).Alike (traceList ancestors' level markers children') := by
  induction each generalizing markers with
  | nil => exact .refl _
  | cons alike _ ih =>
    obtain ⟨first, others⟩ := List.forall_mem_cons.mp same
    exact (Trace.Alike.refl _).append ((first _ alike).append (ih others markers.tail))

-- It is the parents that must be alike, since a node is placed by its parent.
theorem Alike.trace_alike {outline outline' : Outline} (alike : outline.Alike outline')
    {ancestors ancestors' : List Node} (above : ancestors.head?.map Node.kind = ancestors'.head?.map Node.kind)
    (level : Nat) : (outline.trace ancestors level).Alike (outline'.trace ancestors' level) := by
  induction outline generalizing outline' ancestors ancestors' level with
  | hole missing =>
    cases alike
    exact .refl _
  | node parent children ih =>
    cases alike with
    | @node _ parent' _ children' seen below =>
      have place : Place.Resembles ⟨parent, ancestors⟩ ⟨parent', ancestors'⟩ := ⟨seen, above⟩
      have kinds : (parent :: ancestors).head?.map Node.kind = (parent' :: ancestors').head?.map Node.kind :=
        congrArg some seen.kind
      cases parameter : Place.isParameter ⟨parent, ancestors⟩ with
      | true =>
        rw [trace_parameter parameter, trace_parameter (place.isParameter_eq ▸ parameter)]
        exact .refl _
      | false =>
        rw [trace_node parameter, trace_node (place.isParameter_eq ▸ parameter), ← place.inner_eq, ← place.closing_eq,
          ← seen.kind]
        exact (place.opening_alike level).append
          ((traceList_alike below (fun child present child' related => ih child present related kinds _) _).append
            (.refl _))

end Outline

-- Equality of trees makes their outlines alike.

theorem Expression.equalSlot_eq (slot slot' : Option Expression) :
    Expression.equalSlot slot slot' = equalPlaces Expression.equal slot slot' := by
  cases slot <;> cases slot' <;> rfl

theorem Expression.equalList_eq (es es' : List Expression) :
    Expression.equalList es es' = equalLists Expression.equal es es' := by
  induction es generalizing es' with
  | nil => cases es' <;> rfl
  | cons e es ih =>
    cases es' with
    | nil => rfl
    | cons e' es' => exact congrArg (e.equal e' && ·) (ih es')

theorem Statement.equalList_eq (ss ss' : List Statement) :
    Statement.equalList ss ss' = equalLists Statement.equal ss ss' := by
  induction ss generalizing ss' with
  | nil => cases ss' <;> rfl
  | cons s ss ih =>
    cases ss' with
    | nil => rfl
    | cons s' ss' => exact congrArg (s.equal s' && ·) (ih ss')

theorem Statement.equalBlock_eq (block block' : Option Block) :
    Statement.equalBlock block block' = equalPlaces (equalLists Statement.equal) block block' := by
  cases block with
  | none => cases block' <;> rfl
  | some b =>
    cases block' with
    | none => rfl
    | some b' => exact Statement.equalList_eq b b'

section Places

variable {α : Type}

theorem equalPlaces_iff (equal : α → α → Bool) (place place' : Option α) :
    equalPlaces equal place place' = true ↔
      Option.Rel (fun child child' => equal child child' = true) place place' := by
  cases place <;> cases place' <;> simp [equalPlaces]

theorem equalLists_iff (equal : α → α → Bool) (children children' : List α) :
    equalLists equal children children' = true ↔
      List.Forall₂ (fun child child' => equal child child' = true) children children' := by
  induction children generalizing children' with
  | nil => cases children' <;> simp [equalLists]
  | cons child children ih => cases children' <;> simp [equalLists, ih]

variable {R : α → α → Prop} {outline : α → Outline}

theorem Outline.Alike.required {place place' : Option α} (same : Option.Rel R place place')
    (each : ∀ child ∈ place, ∀ child', R child child' → (outline child).Alike (outline child')) (missing : Missing) :
    (requiredOutline missing outline place).Alike (requiredOutline missing outline place') := by
  cases same with
  | none => exact .hole missing
  | some related => exact each _ rfl _ related

theorem Outline.Alike.optional {place place' : Option α} (same : Option.Rel R place place')
    (each : ∀ child ∈ place, ∀ child', R child child' → (outline child).Alike (outline child')) :
    List.Forall₂ Alike (place.toList.map outline) (place'.toList.map outline) := by
  cases same with
  | none => exact .nil
  | some related => exact .cons (each _ rfl _ related) .nil

theorem Outline.Alike.list {children children' : List α} (same : List.Forall₂ R children children')
    (each : ∀ child ∈ children, ∀ child', R child child' → (outline child).Alike (outline child')) :
    List.Forall₂ Alike (children.map outline) (children'.map outline) := by
  induction same with
  | nil => exact .nil
  | cons related _ ih =>
    obtain ⟨first, others⟩ := List.forall_mem_cons.mp each
    exact .cons (first _ related) (ih others)

end Places

namespace Expression

theorem alike_slot {slot slot' : Option Expression} (same : equalSlot slot slot' = true)
    (each : ∀ e ∈ slot, ∀ e', e.equal e' = true → e.outline.Alike e'.outline) (missing : Missing) :
    (outlineSlot missing slot).Alike (outlineSlot missing slot') := by
  rw [equalSlot_eq, equalPlaces_iff] at same
  rw [outlineSlot_eq, outlineSlot_eq]
  exact .required same each missing

theorem alike_of_equal (e e' : Expression) (equal : e.equal e' = true) : e.outline.Alike e'.outline := by
  induction e generalizing e' with
  | integer value =>
    cases e' with
    | integer value' =>
      cases eq_of_beq (a := value) (b := value') equal
      exact .refl _
    | _ => cases equal
  | double x =>
    cases e' with
    | double y => exact .node ⟨rfl, rfl, rfl, Binary64.labelsAlike_of_equal equal⟩ .nil
    | _ => cases equal
  | string value =>
    cases e' with
    | string value' =>
      cases eq_of_beq (a := value) (b := value') equal
      exact .refl _
    | _ => cases equal
  | boolean value =>
    cases e' with
    | boolean value' =>
      cases eq_of_beq (a := value) (b := value') equal
      exact .refl _
    | _ => cases equal
  | identifier name =>
    cases e' with
    | identifier name' =>
      cases eq_of_beq (a := name) (b := name') equal
      exact .refl _
    | _ => cases equal
  | unary operator operand ih =>
    cases e' with
    | unary operator' operand' =>
      obtain ⟨operators, operands⟩ := Bool.and_eq_true_iff.mp equal
      cases eq_of_beq operators
      rw [outline, outline]
      exact .node ⟨rfl, rfl, rfl, .inl rfl⟩ (.cons (alike_slot operands ih _) .nil)
    | _ => cases equal
  | binary operator left right ihLeft ihRight =>
    cases e' with
    | binary operator' left' right' =>
      obtain ⟨others, rights⟩ := Bool.and_eq_true_iff.mp equal
      obtain ⟨operators, lefts⟩ := Bool.and_eq_true_iff.mp others
      cases eq_of_beq operators
      rw [outline, outline]
      exact .node ⟨rfl, rfl, rfl, .inl rfl⟩
        (.cons (alike_slot lefts ihLeft _) (.cons (alike_slot rights ihRight _) .nil))
    | _ => cases equal
  | comparison operator left right ihLeft ihRight =>
    cases e' with
    | comparison operator' left' right' =>
      obtain ⟨others, rights⟩ := Bool.and_eq_true_iff.mp equal
      obtain ⟨operators, lefts⟩ := Bool.and_eq_true_iff.mp others
      cases eq_of_beq operators
      rw [outline, outline]
      exact .node ⟨rfl, rfl, rfl, .inl rfl⟩
        (.cons (alike_slot lefts ihLeft _) (.cons (alike_slot rights ihRight _) .nil))
    | _ => cases equal
  | call callee arguments ih =>
    cases e' with
    | call callee' arguments' =>
      obtain ⟨callees, lists⟩ := Bool.and_eq_true_iff.mp equal
      cases eq_of_beq callees
      rw [equalList_eq, equalLists_iff] at lists
      rw [outline, outline, outlines_eq_map, outlines_eq_map]
      exact .node ⟨rfl, rfl, rfl, .inl rfl⟩ (Outline.Alike.list lists ih)
    | _ => cases equal

end Expression

theorem Comparison.alike_of_equal (c c' : Comparison) (equal : c.equal c' = true) : c.outline.Alike c'.outline := by
  obtain ⟨operator, left, right⟩ := c
  obtain ⟨operator', left', right'⟩ := c'
  have below := Expression.alike_of_equal _ _ equal
  rw [toExpression, toExpression, Expression.outline, Expression.outline] at below
  cases below with
  | node seen below => exact .node ⟨rfl, rfl, rfl, seen.label⟩ below

namespace Assignment

variable {a a' : Assignment}

theorem label_of_equal (equal : a.equal a' = true) : a.label = a'.label := by
  obtain ⟨targets, -⟩ := Bool.and_eq_true_iff.mp equal
  exact congrArg ("Assignment: " ++ ·) (eq_of_beq targets)

theorem below_of_equal (equal : a.equal a' = true) : List.Forall₂ Outline.Alike a.below a'.below := by
  obtain ⟨-, slots⟩ := Bool.and_eq_true_iff.mp equal
  rw [below, below, label_of_equal equal]
  exact .cons (Expression.alike_slot slots (fun e _ => e.alike_of_equal) _) .nil

theorem alike_of_equal (a a' : Assignment) (equal : a.equal a' = true) : a.outline.Alike a'.outline :=
  .node ⟨rfl, rfl, rfl, .inl (label_of_equal equal)⟩ (below_of_equal equal)

end Assignment

namespace Variable

variable {v v' : Variable}

theorem names_of_equal (equal : v.equal v' = true) : v.typeName = v'.typeName ∧ v.name = v'.name := by
  obtain ⟨both, -⟩ := Bool.and_eq_true_iff.mp equal
  obtain ⟨types, names⟩ := Bool.and_eq_true_iff.mp both
  exact ⟨eq_of_beq types, eq_of_beq names⟩

theorem parameterText_of_equal (equal : v.equal v' = true) : v.parameterText = v'.parameterText := by
  obtain ⟨types, names⟩ := names_of_equal equal
  exact congrArg₂ (fun typeName name => typeName ++ " " ++ name) types names

theorem label_of_equal (equal : v.equal v' = true) : v.label = v'.label := by
  obtain ⟨types, names⟩ := names_of_equal equal
  exact congrArg₂ (fun typeName name => "VariableDeclaration: " ++ typeName ++ " " ++ name) types names

theorem below_of_equal (equal : v.equal v' = true) : List.Forall₂ Outline.Alike v.below v'.below := by
  obtain ⟨-, assignments⟩ := Bool.and_eq_true_iff.mp equal
  exact Outline.Alike.optional ((equalPlaces_iff ..).mp assignments) fun a _ => a.alike_of_equal

theorem alike_of_equal (v v' : Variable) (equal : v.equal v' = true) : v.outline.Alike v'.outline :=
  .node ⟨rfl, rfl, rfl, .inl (label_of_equal equal)⟩ (below_of_equal equal)

theorem parameterTexts_of_equal {vs vs' : List Variable}
    (each : List.Forall₂ (fun v v' : Variable => v.equal v' = true) vs vs') :
    vs.map parameterText = vs'.map parameterText := by
  induction each with
  | nil => rfl
  | cons first _ ih => rw [List.map_cons, List.map_cons, parameterText_of_equal first, ih]

end Variable

namespace Statement

theorem outlines_of_equal {ss ss' : List Statement} (same : equalLists Statement.equal ss ss' = true)
    (each : ∀ s ∈ ss, ∀ s', s.equal s' = true → s.outline.Alike s'.outline) :
    List.Forall₂ Outline.Alike (outlines ss) (outlines ss') := by
  rw [outlines_eq_map, outlines_eq_map]
  exact Outline.Alike.list ((equalLists_iff ..).mp same) each

theorem outlineBlock_of_equal {block block' : Option Block} (same : equalBlock block block' = true)
    (each : ∀ b ∈ block, ∀ s ∈ b, ∀ s', s.equal s' = true → s.outline.Alike s'.outline) (absent : List Outline) :
    List.Forall₂ Outline.Alike (outlineBlock absent block) (outlineBlock absent block') := by
  rw [equalBlock_eq, equalPlaces_iff] at same
  cases same with
  | none => exact List.forall₂_same.mpr fun outline _ => .refl outline
  | some related =>
    exact .cons (.node ⟨rfl, rfl, rfl, .inl rfl⟩ (outlines_of_equal related (each _ rfl))) .nil

theorem alike_of_equal (s s' : Statement) (equal : s.equal s' = true) : s.outline.Alike s'.outline := by
  induction s generalizing s' with
  | expression slot =>
    cases s' with
    | expression slot' =>
      rw [outline, outline]
      exact .node ⟨rfl, rfl, rfl, .inl rfl⟩ (.cons (Expression.alike_slot equal (fun e _ => e.alike_of_equal) _) .nil)
    | _ => cases equal
  | assignment a =>
    cases s' with
    | assignment a' =>
      rw [outline, outline]
      exact .node ⟨rfl, rfl, rfl, .inl (Assignment.label_of_equal equal)⟩ (Assignment.below_of_equal equal)
    | _ => cases equal
  | variableDecl v =>
    cases s' with
    | variableDecl v' =>
      rw [outline, outline]
      exact .node ⟨rfl, rfl, rfl, .inl (Variable.label_of_equal equal)⟩ (Variable.below_of_equal equal)
    | _ => cases equal
  | returning slot =>
    cases s' with
    | returning slot' =>
      have slots : Expression.equalSlot slot slot' = true := equal
      rw [Expression.equalSlot_eq, equalPlaces_iff] at slots
      rw [outline, outline]
      exact .node ⟨rfl, rfl, rfl, .inl rfl⟩ (Outline.Alike.optional slots fun e _ => e.alike_of_equal)
    | _ => cases equal
  | block b ih =>
    cases s' with
    | block b' =>
      have lists : equalList b b' = true := equal
      rw [equalList_eq] at lists
      rw [outline, outline]
      exact .node ⟨rfl, rfl, rfl, .inl rfl⟩ (outlines_of_equal lists ih)
    | _ => cases equal
  | conditional condition thenBlock elseBlock ihThen ihElse =>
    cases s' with
    | conditional condition' thenBlock' elseBlock' =>
      obtain ⟨others, elses⟩ := Bool.and_eq_true_iff.mp equal
      obtain ⟨conditions, thens⟩ := Bool.and_eq_true_iff.mp others
      rw [outline, outline]
      exact .node ⟨rfl, rfl, rfl, .inl rfl⟩
        (.cons (.required ((equalPlaces_iff ..).mp conditions) (fun c _ => c.alike_of_equal) _)
          (List.rel_append (outlineBlock_of_equal thens ihThen _) (outlineBlock_of_equal elses ihElse _)))
    | _ => cases equal
  | whileLoop condition body elseBlock ihBody ihElse =>
    cases s' with
    | whileLoop condition' body' elseBlock' =>
      obtain ⟨others, elses⟩ := Bool.and_eq_true_iff.mp equal
      obtain ⟨conditions, bodies⟩ := Bool.and_eq_true_iff.mp others
      rw [outline, outline]
      exact .node ⟨rfl, rfl, rfl, .inl rfl⟩
        (.cons (Expression.alike_slot conditions (fun e _ => e.alike_of_equal) _)
          (List.rel_append (outlineBlock_of_equal bodies ihBody _) (outlineBlock_of_equal elses ihElse _)))
    | _ => cases equal
  | forLoop init condition body update ih =>
    cases s' with
    | forLoop init' condition' body' update' =>
      obtain ⟨others, updates⟩ := Bool.and_eq_true_iff.mp equal
      obtain ⟨others, bodies⟩ := Bool.and_eq_true_iff.mp others
      obtain ⟨inits, conditions⟩ := Bool.and_eq_true_iff.mp others
      rw [outline, outline]
      exact .node ⟨rfl, rfl, rfl, .inl rfl⟩
        (.cons (.required ((equalPlaces_iff ..).mp inits) (fun a _ => a.alike_of_equal) _)
          (.cons (Expression.alike_slot conditions (fun e _ => e.alike_of_equal) _)
            (List.rel_append (outlineBlock_of_equal bodies ih _)
              (.cons (.required ((equalPlaces_iff ..).mp updates) (fun a _ => a.alike_of_equal) _) .nil))))
    | _ => cases equal
  | functionDecl returnType name parameters body ih =>
    cases s' with
    | functionDecl returnType' name' parameters' body' =>
      obtain ⟨others, bodies⟩ := Bool.and_eq_true_iff.mp equal
      obtain ⟨others, lists⟩ := Bool.and_eq_true_iff.mp others
      obtain ⟨types, names⟩ := Bool.and_eq_true_iff.mp others
      cases eq_of_beq types
      cases eq_of_beq names
      have each := (equalLists_iff ..).mp lists
      rw [outline, outline]
      exact .node ⟨rfl, rfl, Variable.parameterTexts_of_equal each, .inl rfl⟩
        (List.rel_append (Outline.Alike.list each fun v _ => v.alike_of_equal) (outlineBlock_of_equal bodies ih _))
    | _ => cases equal
  | classDecl name body ih =>
    cases s' with
    | classDecl name' body' =>
      obtain ⟨names, bodies⟩ := Bool.and_eq_true_iff.mp equal
      cases eq_of_beq names
      rw [outline, outline]
      exact .node ⟨rfl, rfl, rfl, .inl rfl⟩ (outlineBlock_of_equal bodies ih _)
    | _ => cases equal

end Statement

end Treeline
