import Treeline.Proofs.Characters
import Treeline.Proofs.EmptySlots
import Treeline.Proofs.Numeral

namespace Treeline

-- Trees without texts that break a line or hide where a type ends. What follows a node is indented no further than the
-- node, and this alone tells where a list of children ends, so that expressions are determined by their lines.

-- The texts of a node that its lines repeat, and those of them that are types.

def Node.texts : Node → List String
  | .expression (.string text) | .expression (.identifier text) | .expression (.call text _) => [text]
  | .assignment a | .statement (.assignment a) => [a.target]
  | .variableDecl v | .statement (.variableDecl v) => [v.typeName, v.name]
  | .statement (.functionDecl returnType name _ _) => [returnType, name]
  | .statement (.classDecl name _) => [name]
  | _ => []

def Node.types : Node → List String
  | .variableDecl v | .statement (.variableDecl v) => [v.typeName]
  | .statement (.functionDecl returnType _ _ _) => [returnType]
  | _ => []

-- Whether a node has something to do otherwise but nothing to do.
def Node.hasOnlyElse : Node → Bool
  | .statement (.conditional _ none (some _)) => true
  | _ => false

structure Node.Legible (node : Node) : Prop where
  complete : node.emptySlots = []
  exact : node.double? = none
  oneLine : ∀ text ∈ node.texts, '\n' ∉ text.toList
  oneWord : ∀ type ∈ node.types, ' ' ∉ type.toList
  uninitialized : ∀ v ∈ node.parameters, v.assignment = none
  thenFirst : node.hasOnlyElse = false

instance (node : Node) : Decidable node.Legible :=
  decidable_of_iff (node.emptySlots = [] ∧ node.double? = none ∧ (∀ text ∈ node.texts, '\n' ∉ text.toList) ∧
      (∀ type ∈ node.types, ' ' ∉ type.toList) ∧ (∀ v ∈ node.parameters, v.assignment = none) ∧
      node.hasOnlyElse = false)
    ⟨fun ⟨complete, exact, oneLine, oneWord, uninitialized, thenFirst⟩ =>
        ⟨complete, exact, oneLine, oneWord, uninitialized, thenFirst⟩,
      fun ⟨complete, exact, oneLine, oneWord, uninitialized, thenFirst⟩ =>
        ⟨complete, exact, oneLine, oneWord, uninitialized, thenFirst⟩⟩

def Outline.Legible (outline : Outline) : Prop := ∀ node ∈ outline.nodes, node.Legible

instance (outline : Outline) : Decidable outline.Legible :=
  inferInstanceAs (Decidable (∀ node ∈ outline.nodes, node.Legible))

theorem Outline.legible_node {parent : Node} {children : List Outline} :
    (Outline.node parent children).Legible ↔ parent.Legible ∧ ∀ child ∈ children, child.Legible := by
  simp only [Outline.Legible, Outline.nodes_node, List.forall_mem_cons, List.mem_flatMap]
  refine and_congr_right fun _ => ⟨?_, ?_⟩
  · intro all child present node member
    exact all node ⟨child, present, member⟩
  · rintro all node ⟨child, present, member⟩
    exact all child present node member

theorem Outline.Legible.holes_eq_nil {outline : Outline} (legible : outline.Legible) (sound : outline.Sound)
    (filled : ∀ missing, outline ≠ .hole missing) (inParameter : Bool) : outline.holes inParameter = [] :=
  sound.holes_eq_nil filled (fun inner present => (legible inner present).complete) inParameter

theorem Node.missing_of_legible (node : Node) (legible : node.outline.Legible) (level : Nat) :
    (node.render level).missing = none := by
  rw [Node.missing_render, legible.holes_eq_nil node.sound_outline node.outline_ne_hole]
  rfl

-- The first line of a node.

theorem newline_not_mem_titled {title text : String} (inTitle : '\n' ∉ title.toList) (inText : '\n' ∉ text.toList) :
    '\n' ∉ (title ++ text).toList := by
  simp [inTitle, inText]

theorem newline_not_mem_typed {title type name : String} (inTitle : '\n' ∉ title.toList)
    (texts : ∀ text ∈ [type, name], '\n' ∉ text.toList) : '\n' ∉ (title ++ type ++ " " ++ name).toList := by
  have inType := texts type (by simp)
  have inName := texts name (by simp)
  simp [inTitle, inType, inName]

theorem newline_not_mem_toString (i : Int) : '\n' ∉ (toString i).toList := by
  rw [toList_toString]
  cases i with
  | ofNat n => exact not_mem_toDigits rfl n
  | negSucc n => simpa [Document.integerChars] using not_mem_toDigits (c := '\n') rfl (n + 1)

theorem CompareOp.newline_not_mem_symbol (operator : CompareOp) : '\n' ∉ operator.symbol.toList := by
  cases operator <;> simp [CompareOp.symbol]

theorem newline_not_mem_write (x : Binary64) : '\n' ∉ NumeralStyle.label.write x := by
  have placed : ∀ {d : Decimal}, Document.Digits d.digits → '\n' ∉ NumeralStyle.placePoint [] d := by
    intro d all member
    rcases Document.mem_placePoint all _ member with digit | point | suffix
    · cases digit
    · cases point
    · cases suffix
  have unsigned : '\n' ∉ NumeralStyle.label.unsigned x := by
    unfold NumeralStyle.unsigned
    split
    · decide
    split
    · decide
    split
    · exact placed (Document.digits_zeros 1)
    dsimp only
    split
    · exact placed (Document.digits_shortest _ x)
    · rename_i marked
      exact absurd rfl marked
  unfold NumeralStyle.write
  split
  · exact List.not_mem_cons_of_ne_of_not_mem (by decide) unsigned
  · exact unsigned

theorem Expression.newline_not_mem_label {e : Expression}
    (texts : ∀ text ∈ (Node.expression e).texts, '\n' ∉ text.toList) : '\n' ∉ e.label.toList := by
  cases e with
  | double x => exact newline_not_mem_titled (by simp) (by simpa using newline_not_mem_write x)
  | integer value => exact newline_not_mem_titled (by simp) (newline_not_mem_toString _)
  | boolean value => exact newline_not_mem_titled (by simp) (by cases value <;> simp)
  | unary operator => exact newline_not_mem_titled (by simp) (by cases operator <;> simp [UnaryOp.symbol])
  | binary operator => exact newline_not_mem_titled (by simp) (by cases operator <;> simp [BinaryOp.symbol])
  | comparison operator => exact newline_not_mem_titled (by simp) operator.newline_not_mem_symbol
  | string | identifier | call => exact newline_not_mem_titled (by simp) (texts _ List.mem_cons_self)

theorem Statement.newline_not_mem_label {s : Statement}
    (texts : ∀ text ∈ (Node.statement s).texts, '\n' ∉ text.toList) : '\n' ∉ s.label.toList := by
  have word := Kind.not_mem_word (c := '\n') rfl
  cases s with
  | assignment | classDecl => exact newline_not_mem_titled (by simp) (texts _ List.mem_cons_self)
  | variableDecl | functionDecl => exact newline_not_mem_typed (by simp) texts
  | expression => exact word (.statement .expression)
  | returning => exact word (.statement .returning)
  | block => exact word (.statement .block)
  | conditional => exact word (.statement .conditional)
  | whileLoop => exact word (.statement .whileLoop)
  | forLoop => exact word (.statement .forLoop)

theorem Node.newline_not_mem_label {node : Node} (texts : ∀ text ∈ node.texts, '\n' ∉ text.toList) :
    '\n' ∉ node.label.toList := by
  cases node with
  | expression e => exact Expression.newline_not_mem_label texts
  | comparison c => exact newline_not_mem_titled (by simp) c.operator.newline_not_mem_symbol
  | assignment a => exact newline_not_mem_titled (by simp) (texts _ List.mem_cons_self)
  | variableDecl v => exact newline_not_mem_typed (by simp) texts
  | block b => simp [Node.label, Block.label]
  | statement s => exact Statement.newline_not_mem_label texts

theorem Node.label_eq_of_chars {node other : Node} {level : Nat} {rest rest' : List Char} (legible : node.Legible)
    (legible' : other.Legible) (same : (node.render level).chars ++ rest = (other.render level).chars ++ rest') :
    node.label = other.label := by
  obtain ⟨more, spelled⟩ := node.chars_render level
  obtain ⟨more', spelled'⟩ := other.chars_render level
  rw [spelled, spelled', List.append_assoc, List.append_assoc] at same
  have single : ∀ label : String, '\n' ∉ label.toList → '\n' ∉ (Trace.createPrefix ++ label).toList := by
    intro label without
    simpa [Trace.createPrefix] using without
  obtain ⟨labels, -⟩ := lineChars_inj (single _ (newline_not_mem_label legible.oneLine))
    (single _ (newline_not_mem_label legible'.oneLine)) same
  exact (String.append_right_inj _).mp labels

theorem emptySlot_eq_nil {α : Type} {slot : Slot} {place : Option α} (full : emptySlot slot place = []) :
    ∃ child, place = some child := by
  cases place with
  | none => cases full
  | some child => exact ⟨child, rfl⟩

-- Expressions.

namespace Expression

def Legible (e : Expression) : Prop := e.outline.Legible

theorem Legible.node {e : Expression} (legible : e.Legible) : (Node.expression e).Legible := by
  refine legible _ ?_
  rw [Expression.outline.eq_def, Outline.nodes_node]
  exact List.mem_cons_self

theorem Legible.missing {e : Expression} (legible : e.Legible) (level : Nat) : (e.render level).missing = none :=
  (Node.expression e).missing_of_legible legible level

theorem Legible.operand {operator : UnaryOp} {operand : Option Expression}
    (legible : (unary operator operand).Legible) : ∃ e, operand = some e ∧ e.Legible := by
  obtain ⟨own, below⟩ := Outline.legible_node.mp legible
  obtain ⟨e, rfl⟩ := emptySlot_eq_nil own.complete
  exact ⟨e, rfl, below _ List.mem_cons_self⟩

theorem legible_operands {parent : Node} {missing missing' : Missing} {left right : Option Expression}
    (legible : (Outline.node parent [outlineSlot missing left, outlineSlot missing' right]).Legible)
    (slots : parent.emptySlots = emptySlot .leftOperand left ++ emptySlot .rightOperand right) :
    ∃ e f, left = some e ∧ right = some f ∧ e.Legible ∧ f.Legible := by
  obtain ⟨own, below⟩ := Outline.legible_node.mp legible
  have full := own.complete
  rw [slots, List.append_eq_nil_iff] at full
  obtain ⟨e, rfl⟩ := emptySlot_eq_nil full.1
  obtain ⟨f, rfl⟩ := emptySlot_eq_nil full.2
  exact ⟨e, f, rfl, rfl, below _ List.mem_cons_self, below _ (List.mem_cons_of_mem _ List.mem_cons_self)⟩

theorem Legible.arguments {callee : String} {arguments : List Expression} (legible : (call callee arguments).Legible) :
    ∀ e ∈ arguments, e.Legible := by
  rw [Legible, Expression.outline, outlines_eq_map] at legible
  obtain ⟨-, below⟩ := Outline.legible_node.mp legible
  exact fun e member => below _ (List.mem_map_of_mem member)

theorem shell_eq_of_chars {e f : Expression} {level : Nat} {rest rest' : List Char} (legible : e.Legible)
    (legible' : f.Legible) (same : (e.render level).chars ++ rest = (f.render level).chars ++ rest') :
    e.shell = f.shell := by
  refine shell_eq_of_label ?_ (Node.label_eq_of_chars legible.node legible'.node same)
  rintro x rfl
  cases legible.node.exact

theorem chars_unary (operator : UnaryOp) (e : Expression) (level : Nat) :
    ((unary operator (some e)).render level).chars =
      lineChars level (Trace.createPrefix ++ (unary operator none).label) ++ (e.render (level + 1)).chars := by
  rw [Expression.render, Trace.chars_append rfl, Trace.chars_create]
  rfl

theorem chars_binary {e : Expression} (legible : e.Legible) (operator : BinaryOp) (f : Expression) (level : Nat) :
    ((binary operator (some e) (some f)).render level).chars =
      lineChars level (Trace.createPrefix ++ (binary operator none none).label) ++
        ((e.render (level + 1)).chars ++ (f.render (level + 1)).chars) := by
  rw [Expression.render, Trace.chars_append rfl, Trace.chars_create]
  exact congrArg _ (Trace.chars_append (legible.missing _) _)

theorem chars_comparison {e : Expression} (legible : e.Legible) (operator : CompareOp) (f : Expression) (level : Nat) :
    ((comparison operator (some e) (some f)).render level).chars =
      lineChars level (Trace.createPrefix ++ (comparison operator none none).label) ++
        ((e.render level).chars ++ (f.render level).chars) := by
  rw [Expression.render, Trace.chars_append rfl, Trace.chars_create]
  exact congrArg _ (Trace.chars_append (legible.missing _) _)

def argumentsChars (level : Nat) : List Expression → List Char :=
  headed (lineChars level Trace.argumentsMarker) fun e => (e.render level).chars

theorem chars_call {arguments : List Expression} (legible : ∀ e ∈ arguments, e.Legible) (callee : String)
    (level : Nat) : ((call callee arguments).render level).chars =
      lineChars level (Trace.createPrefix ++ (call callee []).label) ++ argumentsChars (level + 1) arguments := by
  rw [Expression.render, Trace.chars_append rfl, Trace.chars_create, renderList_eq, argumentsChars, headed]
  refine congrArg (lineChars level (Trace.createPrefix ++ (call callee []).label) ++ ·) ?_
  have below := Trace.chars_traceAll fun e member => (legible e member).missing (level + 1)
  cases arguments with
  | nil => rfl
  | cons e es =>
    refine (Trace.chars_append rfl _).trans ?_
    rw [below]
    exact congrArg (· ++ _) (Trace.chars_line _ _)

theorem indentation_render (level : Nat) (e : Expression) (rest : List Char) :
    indentation ((e.render level).chars ++ rest) = Line.indentWidth * level :=
  (Node.expression e).indentation_render level rest

theorem within_render (level : Nat) (e : Expression) (rest : List Char) :
    Within level ((e.render level).chars ++ rest) :=
  Nat.le_of_eq (e.indentation_render level rest)

theorem argumentsChars_inj {level : Nat} {es fs : List Expression} {rest rest' : List Char}
    (each : ∀ e ∈ es, Determined Legible (fun e => (e.render (level + 1)).chars) (Within (level + 1)) e)
    (legible : ∀ f ∈ fs, f.Legible) (within : Within level rest) (within' : Within level rest')
    (same : argumentsChars (level + 1) es ++ rest = argumentsChars (level + 1) fs ++ rest') :
    es = fs ∧ rest = rest' := by
  refine Determined.headed (within_render _) ?_ (fun _ within => within.mono (Nat.le_succ level))
    (not_within_lineChars level _) each legible within within' same
  intro e more
  rw [Within, indentation_render, Line.indentWidth]
  omega

theorem operands_inj {level : Nat} {x y x' y' : Expression} {rest rest' : List Char}
    (first : Determined Legible (fun e => (e.render level).chars) (Within level) x)
    (second : Determined Legible (fun e => (e.render level).chars) (Within level) y) (legible : x'.Legible)
    (legible' : y'.Legible) (within : Within level rest) (within' : Within level rest')
    (same : (x.render level).chars ++ ((y.render level).chars ++ rest) =
      (x'.render level).chars ++ ((y'.render level).chars ++ rest')) : (x = x' ∧ y = y') ∧ rest = rest' := by
  obtain ⟨left, others⟩ := first x' _ _ legible (within_render level y _) (within_render level y' _) same
  obtain ⟨right, rests⟩ := second y' _ _ legible' within within' others
  exact ⟨⟨left, right⟩, rests⟩

theorem determined (e : Expression) (level : Nat) (legible : e.Legible) :
    Determined Legible (fun e => (e.render level).chars) (Within level) e := by
  induction e generalizing level with
  | double x => cases legible.node.exact
  | integer | string | boolean | identifier =>
    intro f rest rest' legible' within within' same
    have shell := shell_eq_of_chars legible legible' same
    cases f <;> cases shell
    exact ⟨rfl, List.append_cancel_left same⟩
  | unary operator operand ih =>
    intro f rest rest' legible' within within' same
    have shell := shell_eq_of_chars legible legible' same
    cases f with
    | unary _ operand' =>
      cases shell
      obtain ⟨x, rfl, legibleX⟩ := legible.operand
      obtain ⟨y, rfl, legibleY⟩ := legible'.operand
      simp only [chars_unary, List.append_assoc] at same
      obtain ⟨rfl, rests⟩ := ih x rfl (level + 1) legibleX y rest rest' legibleY (within.mono (Nat.le_succ level))
        (within'.mono (Nat.le_succ level)) (List.append_cancel_left same)
      exact ⟨rfl, rests⟩
    | _ => cases shell
  | binary operator left right ihLeft ihRight =>
    intro f rest rest' legible' within within' same
    have shell := shell_eq_of_chars legible legible' same
    cases f with
    | binary _ left' right' =>
      cases shell
      obtain ⟨x, y, rfl, rfl, legibleX, legibleY⟩ := legible_operands legible rfl
      obtain ⟨x', y', rfl, rfl, legibleX', legibleY'⟩ := legible_operands legible' rfl
      simp only [chars_binary legibleX, chars_binary legibleX', List.append_assoc] at same
      obtain ⟨⟨rfl, rfl⟩, rests⟩ := operands_inj (ihLeft x rfl _ legibleX) (ihRight y rfl _ legibleY) legibleX'
        legibleY' (within.mono (Nat.le_succ level)) (within'.mono (Nat.le_succ level)) (List.append_cancel_left same)
      exact ⟨rfl, rests⟩
    | _ => cases shell
  | comparison operator left right ihLeft ihRight =>
    intro f rest rest' legible' within within' same
    have shell := shell_eq_of_chars legible legible' same
    cases f with
    | comparison _ left' right' =>
      cases shell
      obtain ⟨x, y, rfl, rfl, legibleX, legibleY⟩ := legible_operands legible rfl
      obtain ⟨x', y', rfl, rfl, legibleX', legibleY'⟩ := legible_operands legible' rfl
      simp only [chars_comparison legibleX, chars_comparison legibleX', List.append_assoc] at same
      obtain ⟨⟨rfl, rfl⟩, rests⟩ := operands_inj (ihLeft x rfl _ legibleX) (ihRight y rfl _ legibleY) legibleX'
        legibleY' within within' (List.append_cancel_left same)
      exact ⟨rfl, rests⟩
    | _ => cases shell
  | call callee arguments ih =>
    intro f rest rest' legible' within within' same
    have shell := shell_eq_of_chars legible legible' same
    cases f with
    | call callee' arguments' =>
      cases shell
      simp only [chars_call legible.arguments, chars_call legible'.arguments, List.append_assoc] at same
      obtain ⟨rfl, rests⟩ := argumentsChars_inj (fun e member => ih e member _ (legible.arguments e member))
        legible'.arguments within within' (List.append_cancel_left same)
      exact ⟨rfl, rests⟩
    | _ => cases shell

end Expression

-- The parts of statements.

namespace Comparison

def Legible (c : Comparison) : Prop := c.outline.Legible

theorem Legible.toExpression {c : Comparison} (legible : c.Legible) : c.toExpression.Legible := by
  obtain ⟨own, below⟩ := Outline.legible_node.mp legible
  refine Outline.legible_node.mpr ⟨⟨own.complete, rfl, ?_, ?_, ?_, rfl⟩, below⟩
  · simp [Node.texts, Comparison.toExpression]
  · simp [Node.types]
  · simp [Node.parameters]

theorem determined (c : Comparison) (level : Nat) (legible : c.Legible) :
    Determined Legible (fun c => (c.render level).chars) (Within level) c := by
  intro d rest rest' legible' within within' same
  obtain ⟨equal, rests⟩ := c.toExpression.determined level legible.toExpression d.toExpression rest rest'
    legible'.toExpression within within' same
  obtain ⟨operator, left, right⟩ := c
  obtain ⟨operator', left', right'⟩ := d
  cases equal
  exact ⟨rfl, rests⟩

end Comparison

namespace Assignment

def Legible (a : Assignment) : Prop := a.outline.Legible

theorem Legible.node {a : Assignment} (legible : a.Legible) : (Node.assignment a).Legible :=
  (Outline.legible_node.mp legible).1

theorem Legible.missing {a : Assignment} (legible : a.Legible) (level : Nat) : (a.render level).missing = none :=
  (Node.assignment a).missing_of_legible legible level

theorem Legible.value {a : Assignment} (legible : a.Legible) : ∃ e, a.expression = some e ∧ e.Legible := by
  obtain ⟨target, expression⟩ := a
  obtain ⟨own, below⟩ := Outline.legible_node.mp legible
  obtain ⟨e, rfl⟩ := emptySlot_eq_nil own.complete
  exact ⟨e, rfl, below _ List.mem_cons_self⟩

theorem chars_render (target : String) (e : Expression) (level : Nat) :
    ((Assignment.mk target (some e)).render level).chars =
      lineChars level (Trace.createPrefix ++ (Assignment.mk target none).label) ++ (e.render (level + 1)).chars := by
  rw [Assignment.render, Trace.chars_append rfl, Trace.chars_create]
  rfl

theorem indentation_render (level : Nat) (a : Assignment) (rest : List Char) :
    indentation ((a.render level).chars ++ rest) = Line.indentWidth * level :=
  (Node.assignment a).indentation_render level rest

theorem determined (a : Assignment) (level : Nat) (legible : a.Legible) :
    Determined Legible (fun a => (a.render level).chars) (Within level) a := by
  intro b rest rest' legible' within within' same
  have label : (Node.assignment a).label = (Node.assignment b).label :=
    Node.label_eq_of_chars legible.node legible'.node same
  obtain ⟨x, valueX, legibleX⟩ := legible.value
  obtain ⟨y, valueY, legibleY⟩ := legible'.value
  obtain ⟨target, _⟩ := a
  obtain ⟨target', _⟩ := b
  cases valueX
  cases valueY
  cases target_eq_of_label label
  simp only [chars_render, List.append_assoc] at same
  obtain ⟨rfl, rests⟩ := x.determined (level + 1) legibleX y rest rest' legibleY (within.mono (Nat.le_succ level))
    (within'.mono (Nat.le_succ level)) (List.append_cancel_left same)
  exact ⟨rfl, rests⟩

end Assignment

namespace Variable

def Legible (v : Variable) : Prop := v.outline.Legible

theorem Legible.node {v : Variable} (legible : v.Legible) : (Node.variableDecl v).Legible :=
  (Outline.legible_node.mp legible).1

theorem Legible.typeName {v : Variable} (legible : v.Legible) : ' ' ∉ v.typeName.toList :=
  legible.node.oneWord _ List.mem_cons_self

theorem Legible.initializer {v : Variable} (legible : v.Legible) : ∀ a ∈ v.assignment.toList, a.Legible := by
  intro a member
  exact (Outline.legible_node.mp legible).2 _ (List.mem_map_of_mem member)

theorem chars_render (level : Nat) (v : Variable) :
    (v.render level).chars = lineChars level (Trace.createPrefix ++ v.label) ++
      v.assignment.toList.flatMap fun a => (a.render (level + 1)).chars := by
  rw [Variable.render, Trace.chars_append rfl, Trace.chars_create, Variable.renderBelow, chars_optionalTrace]

theorem determined (v : Variable) (level : Nat) (legible : v.Legible) :
    Determined Legible (fun v => (v.render level).chars) (Within level) v := by
  intro w rest rest' legible' within within' same
  have label : v.label = w.label := Node.label_eq_of_chars legible.node legible'.node same
  obtain ⟨types, names⟩ := names_eq_of_label legible.typeName legible'.typeName label
  simp only [chars_render, label, List.append_assoc] at same
  obtain ⟨values, rests⟩ := Determined.list (Assignment.indentation_render _)
    (fun a member => a.determined _ (legible.initializer a member)) legible'.initializer within within'
    (List.append_cancel_left same)
  obtain ⟨typeName, name, assignment⟩ := v
  obtain ⟨typeName', name', assignment'⟩ := w
  cases types
  cases names
  cases toList_inj values
  exact ⟨rfl, rests⟩

end Variable

namespace Block

def Legible (b : Block) : Prop := (Block.outline b).Legible

theorem Legible.missing {b : Block} (legible : Legible b) (level : Nat) : (Block.render level b).missing = none :=
  (Node.block b).missing_of_legible legible level

theorem indentation_render (level : Nat) (b : Block) (rest : List Char) :
    indentation ((Block.render level b).chars ++ rest) = Line.indentWidth * level :=
  (Node.block b).indentation_render level rest

end Block

end Treeline
