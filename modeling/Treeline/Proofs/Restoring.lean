import Treeline.Proofs.Outline
import Treeline.Proofs.Root

namespace Treeline

open Document

-- Trees printed and read again, up to nesting: every node is put together from what its children are read as.

section Records

variable {ρ α : Type} {reading : Document → ρ} {ofDocument : Document → Except Fault α}

-- What a document's text is read as by a decoder.
def reparse (ofDocument : Document → Except Fault α) (d : Document) : Option α :=
  d.reread.bind fun read => (ofDocument read).toOption

-- The same for a place that may be empty, and for a list.
def reparsePlace (ofDocument : Document → Except Fault α) (d : Document) : Option (Option α) :=
  d.reread.bind (placeOf ofDocument)

-- What a record's fields are read as once its members are read again.
def Fields.reparse (fields : Fields ρ α) (reading : Document → ρ) (entries : List (String × Document)) : Option α :=
  (entries.mapM (readEntry reread)).bind fun found => (fields.fromEntries 0 (parts reading found)).toOption

theorem reparse_tagged {κ : Type} [Vocabulary κ] {title : κ → String} {fields : κ → Fields ρ α}
    (decodes : Decodes reading (fun kind body => (fields kind).read (title kind) body) ofDocument)
    (faithful : Vocabulary.Faithful κ) (kind : κ) {entries : List (String × Document)}
    (untagged : ∀ entry ∈ entries, entry.1 ≠ tagKey) :
    reparse ofDocument (object (tagEntry kind :: entries)) = (fields kind).reparse reading entries := by
  have tag : readEntry reread (tagEntry kind) = some (tagEntry kind) := rfl
  rw [reparse, reread_object, List.mapM_cons, tag, Fields.reparse]
  cases read : entries.mapM (readEntry reread) with
  | none => rfl
  | some found =>
    have direct := decodes.tagged faithful kind (untagged_of_mapM read untagged)
    exact (congrArg Except.toOption direct).trans (Fields.toOption_read _ (title kind) _)

theorem reparse_untagged {title : String} {fields : Fields ρ α}
    (decoded : ∀ entries, ofDocument (.object entries) = fields.read title (.entries (parts reading entries)))
    (entries : List (String × Document)) :
    reparse ofDocument (object entries) = fields.reparse reading entries := by
  rw [reparse, reread_object, Fields.reparse]
  cases entries.mapM (readEntry reread) with
  | none => rfl
  | some found => exact (congrArg Except.toOption (decoded found)).trans (Fields.toOption_read _ title _)

-- An object is no empty place, and neither is what it is read as.
theorem reparsePlace_object (entries : List (String × Document)) :
    reparsePlace ofDocument (object entries) = (reparse ofDocument (object entries)).map some := by
  rw [reparsePlace, reparse, reread_object]
  cases entries.mapM (readEntry reread) <;> rfl

theorem reparsePlace_placeDocument {encode : α → Document} (objects : ∀ a, ∃ entries, encode a = object entries)
    (place : Option α) :
    reparsePlace ofDocument (placeDocument encode place) =
      place.mapM fun child => reparse ofDocument (encode child) := by
  cases place with
  | none => rfl
  | some child =>
    obtain ⟨entries, spelled⟩ := objects child
    rw [placeDocument, spelled, reparsePlace_object, Option.mapM_some, spelled]
    rfl

theorem mapM_bind_mapM {β γ : Type} (f : α → Option β) (g : β → Option γ) (items : List α) :
    ((items.mapM f).bind fun found => found.mapM g) = items.mapM fun item => (f item).bind g := by
  induction items with
  | nil => rfl
  | cons item items ih =>
    rw [List.mapM_cons, List.mapM_cons, ← ih]
    cases f item with
    | none => rfl
    | some first =>
      cases items.mapM f with
      | none => cases g first <;> simp
      | some others => simp

theorem reparse_array {decode : Document → Except Fault (List α)} {one : Document → Except Fault α}
    (listed : ∀ d, decode d = d.readList one) (items : List Document) :
    reparse decode (array items) = items.mapM (reparse one) := by
  rw [reparse, reread_array]
  refine Eq.trans ?_ (mapM_bind_mapM reread (fun item => (one item).toOption) items)
  cases items.mapM reread with
  | none => rfl
  | some found => exact (congrArg Except.toOption (listed (.array found))).trans (toOption_mapM one)

-- The items of a list are read in the role in which they stand there.
theorem readMany_body? {ρ : Type} (one : ρ → Except Fault α) (reading : Document → ρ) (d : Document) :
    readMany one d (d.body? reading) = d.readList fun item => one (reading item) := by
  cases d with
  | array items =>
    rw [body?, readMany, List.mapM_map]
    rfl
  | _ => rfl

end Records

-- What the text of a double is read as.
def Binary64.reparse (x : Binary64) : Option Binary64 := Treeline.reparse Document.readDouble x.toDocument

-- A result that depends on doubles alone: it is right if all of them are read back, and nothing if one of them is not
-- read at all.
structure Restores {α : Type} (doubles : List Binary64) (tree : α) (result : Option α) : Prop where
  right : (∀ x ∈ doubles, x.reparse = some x) → result = some tree
  refused : (∃ x ∈ doubles, x.reparse = none) → result = none

namespace Restores

variable {α β γ : Type} {doubles others : List Binary64} {a : α} {b : β} {one : Option α} {two : Option β}

theorem done (a : α) : Restores [] a (some a) := ⟨fun _ => rfl, by simp⟩

theorem double (x : Binary64) : Restores [x] x x.reparse := by
  refine ⟨fun same => same x List.mem_cons_self, ?_⟩
  rintro ⟨y, member, none_read⟩
  rwa [← List.mem_singleton.mp member]

theorem map (restores : Restores doubles a one) (f : α → β) : Restores doubles (f a) (one.map f) := by
  refine ⟨fun same => ?_, fun found => ?_⟩
  · rw [restores.right same]
    rfl
  · rw [restores.refused found]
    rfl

theorem both (first : Restores doubles a one) (second : Restores others b two) (f : α → β → γ) :
    Restores (doubles ++ others) (f a b) (one.bind fun a => two.map fun b => f a b) := by
  refine ⟨fun same => ?_, ?_⟩
  · obtain ⟨left, right⟩ := List.forall_mem_append.mp same
    rw [first.right left, second.right right]
    rfl
  · rintro ⟨x, member, none_read⟩
    rcases List.mem_append.mp member with before | behind
    · rw [first.refused ⟨x, before, none_read⟩]
      rfl
    · rw [second.refused ⟨x, behind, none_read⟩]
      cases one <;> rfl

theorem place {doubles : α → List Binary64} {read : α → Option α} {place : Option α}
    (each : ∀ child ∈ place, Restores (doubles child) child (read child)) :
    Restores (place.toList.flatMap doubles) place (place.mapM read) := by
  cases place with
  | none => exact done none
  | some child =>
    have filled := (each child rfl).map some
    rwa [Option.toList_some, List.flatMap_singleton, Option.mapM_some]

theorem list {doubles : α → List Binary64} {read : α → Option α} {children : List α}
    (each : ∀ child ∈ children, Restores (doubles child) child (read child)) :
    Restores (children.flatMap doubles) children (children.mapM read) := by
  induction children with
  | nil => exact done []
  | cons child children ih =>
    obtain ⟨first, others⟩ := List.forall_mem_cons.mp each
    have joined := first.both (ih others) List.cons
    have same : (child :: children).mapM read =
        (read child).bind fun first => (children.mapM read).map fun rest => first :: rest := by
      rw [List.mapM_cons]
      cases read child <;> cases children.mapM read <;> rfl
    rwa [List.flatMap_cons, same]

end Restores

@[simp] theorem ofNamed_childField {ρ α : Type} (name : String) (read : Document → Except Fault α) (part : Part ρ) :
    (Field.place name fun part : Part ρ => read part.document).ofNamed [part] = placeOf read part.document :=
  Field.ofNamed_place name rfl

@[simp] theorem toOption_readText (value : String) : (readText (.string value)).toOption = some value := rfl

@[simp] theorem toOption_readBoolean (value : Bool) : (readBoolean (.boolean value)).toOption = some value := rfl

theorem toOption_readSymbol {κ : Type} [Vocabulary κ] (faithful : Vocabulary.Faithful κ) (word : κ) :
    (readSymbol κ (.string (Vocabulary.spell word))).toOption = some word := by
  rw [readSymbol, readWordOf, faithful word]
  rfl

@[simp] theorem toOption_unaryOp (op : UnaryOp) : (readSymbol UnaryOp (.string op.symbol)).toOption = some op :=
  toOption_readSymbol unaryOp_faithful op

@[simp] theorem toOption_binaryOp (op : BinaryOp) : (readSymbol BinaryOp (.string op.symbol)).toOption = some op :=
  toOption_readSymbol binaryOp_faithful op

@[simp] theorem toOption_compareOp (op : CompareOp) : (readSymbol CompareOp (.string op.symbol)).toOption = some op :=
  toOption_readSymbol compareOp_faithful op

theorem Fields.reparse_map {ρ α β : Type} (f : α → β) (fields : Fields ρ α) (reading : Document → ρ)
    (entries : List (String × Document)) :
    (fields.map f).reparse reading entries = (fields.reparse reading entries).map f := by
  unfold Fields.reparse
  cases entries.mapM (readEntry reread) with
  | none => rfl
  | some found => simp

theorem reread_int64 (value : Int64) : (integer value.toInt).reread = some (.integer value.toInt) := by
  have low := value.le_toInt
  have high := value.toInt_lt
  exact Document.reread_integer_exact (by omega) (by omega)

theorem toOption_readInteger (value : Int64) : (readInteger (.integer value.toInt)).toOption = some value := by
  have low := value.le_toInt
  have high := value.toInt_lt
  have bounds : Int64.minValue.toInt ≤ value.toInt ∧ value.toInt ≤ Int64.maxValue.toInt := by
    have least : Int64.minValue.toInt = -2 ^ 63 := by decide
    have greatest : Int64.maxValue.toInt = 2 ^ 63 - 1 := by decide
    omega
  rw [readInteger, if_pos bounds, Int64.ofInt_toInt]
  rfl

namespace Expression

@[simp] theorem ofNamed_operand (name : String) (d : Document) :
    (Field.place name fun part : Part Reading => part.reading.one).ofNamed [⟨d, reading d⟩] = placeOf ofDocument d :=
  Field.ofNamed_place name rfl

theorem toDocument_object (e : Expression) : ∃ entries, e.toDocument = object entries := by
  cases e <;> exact ⟨_, rfl⟩

-- What the text of an expression is read as.
def reparse (e : Expression) : Option Expression := Treeline.reparse ofDocument e.toDocument

theorem reparsePlace_slotDocument (slot : Option Expression) :
    reparsePlace ofDocument (slotDocument slot) = slot.mapM reparse := by
  have same : slotDocument slot = placeDocument toDocument slot := by
    cases slot <;> rfl
  rw [same]
  exact reparsePlace_placeDocument toDocument_object slot

theorem reparse_kind (kind : ExpressionKind) {entries : List (String × Document)}
    (untagged : ∀ entry ∈ entries, entry.1 ≠ tagKey) :
    Treeline.reparse ofDocument (object (tagEntry kind :: entries)) = (fields kind).reparse reading entries :=
  reparse_tagged Expression.decodes expressionKind_faithful kind untagged

theorem reparse_integer (value : Int64) : (integer value).reparse = some (.integer value) := by
  refine (reparse_kind _ (by simp [tagKey])).trans ?_
  rw [Fields.reparse]
  simp [readEntry, reread_int64, fields, toOption_readInteger]

theorem reparse_double (x : Binary64) : (double x).reparse = x.reparse.map .double := by
  refine (reparse_kind _ (by simp [tagKey])).trans ?_
  rw [Fields.reparse, Binary64.reparse, Treeline.reparse]
  simp only [List.mapM_cons, List.mapM_nil, readEntry]
  cases x.toDocument.reread <;> simp [fields]

theorem reparse_string (value : String) : (string value).reparse = some (.string value) := by
  refine (reparse_kind _ (by simp [tagKey])).trans ?_
  rw [Fields.reparse]
  simp [readEntry, fields, textField]

theorem reparse_boolean (value : Bool) : (boolean value).reparse = some (.boolean value) := by
  refine (reparse_kind _ (by simp [tagKey])).trans ?_
  rw [Fields.reparse]
  simp [readEntry, fields]

theorem reparse_identifier (name : String) : (identifier name).reparse = some (.identifier name) := by
  refine (reparse_kind _ (by simp [tagKey])).trans ?_
  rw [Fields.reparse]
  simp [readEntry, fields, textField]

theorem reparse_unary (op : UnaryOp) (operand : Option Expression) :
    (unary op operand).reparse = (operand.mapM reparse).map fun operand => .unary op operand := by
  refine (reparse_kind _ (by simp [tagKey])).trans ?_
  rw [Fields.reparse, ← reparsePlace_slotDocument, reparsePlace]
  simp only [List.mapM_cons, List.mapM_nil, readEntry, reread_string]
  cases (slotDocument operand).reread with
  | none => rfl
  | some read =>
    simp [fields, symbolField, operandField, Function.comp_def, Option.map_bind]

-- Both operands of an operator, whose record differs in its word only.
theorem reparse_operands {κ : Type} [Vocabulary κ] {word : κ} {symbol : String}
    (known : (readSymbol κ (.string symbol)).toOption = some word) (left right : Option Expression) :
    ((symbolField κ).both ((operandField "left").both (operandField "right"))).reparse reading
        [("operator", .string symbol), ("left", slotDocument left), ("right", slotDocument right)] =
      (left.mapM reparse).bind fun left => (right.mapM reparse).map fun right => (word, left, right) := by
  rw [Fields.reparse, ← reparsePlace_slotDocument, ← reparsePlace_slotDocument, reparsePlace, reparsePlace]
  simp only [List.mapM_cons, List.mapM_nil, readEntry, reread_string]
  cases (slotDocument left).reread with
  | none => rfl
  | some l =>
    cases (slotDocument right).reread with
    | none => simp
    | some r =>
      simp [symbolField, operandField, known, Function.comp_def, Option.map_bind]

theorem reparse_binary (op : BinaryOp) (left right : Option Expression) :
    (binary op left right).reparse =
      (left.mapM reparse).bind fun left => (right.mapM reparse).map fun right => .binary op left right := by
  refine (reparse_kind _ (by simp [tagKey])).trans ?_
  rw [fields, Fields.reparse_map,
    reparse_operands (toOption_binaryOp op)]
  cases left.mapM reparse <;> cases right.mapM reparse <;> rfl

theorem reparse_comparisonFields (c : Comparison) :
    comparisonFields.reparse reading c.entries =
      (c.left.mapM reparse).bind fun left => (c.right.mapM reparse).map fun right => ⟨c.operator, left, right⟩ := by
  rw [comparisonFields, Fields.reparse_map, Comparison.entries, reparse_operands (toOption_compareOp c.operator)]
  cases c.left.mapM reparse <;> cases c.right.mapM reparse <;> rfl

theorem reparse_comparison (op : CompareOp) (left right : Option Expression) :
    (comparison op left right).reparse =
      (left.mapM reparse).bind fun left => (right.mapM reparse).map fun right => .comparison op left right := by
  refine (reparse_kind _ (by simp [tagKey])).trans ?_
  rw [fields, Fields.reparse_map]
  refine (congrArg _ (reparse_comparisonFields ⟨op, left, right⟩)).trans ?_
  cases left.mapM reparse <;> cases right.mapM reparse <;> rfl

theorem many_eq (d : Document) : (reading d).many = d.readList ofDocument := by
  rw [reading, fold_eq]
  exact readMany_body? Reading.one reading d

theorem listDocuments_eq_map (es : List Expression) : listDocuments es = es.map toDocument := by
  induction es with
  | nil => rfl
  | cons e es ih => simp [listDocuments, ih]

theorem reparse_listDocuments (es : List Expression) :
    Treeline.reparse (fun d => (reading d).many) (array (listDocuments es)) = es.mapM reparse := by
  rw [reparse_array many_eq, listDocuments_eq_map, List.mapM_map]
  rfl

theorem reparse_call (callee : String) (arguments : List Expression) :
    (call callee arguments).reparse = (arguments.mapM reparse).map fun arguments => .call callee arguments := by
  refine (reparse_kind _ (by simp [tagKey])).trans ?_
  rw [Fields.reparse, ← reparse_listDocuments, Treeline.reparse]
  simp only [List.mapM_cons, List.mapM_nil, readEntry, reread_string]
  cases (array (listDocuments arguments)).reread with
  | none => rfl
  | some read =>
    simp [fields, textField, Function.comp_def, Option.map_bind]

theorem doubles_operands {e : Expression} {one two : Missing} {left right : Option Expression}
    (shape : e.outline = .node (.expression e) [outlineSlot one left, outlineSlot two right])
    (other : (Node.expression e).double? = none) :
    e.outline.doubles =
      (left.toList.flatMap fun e => e.outline.doubles) ++ right.toList.flatMap fun e => e.outline.doubles := by
  rw [shape, outlineSlot_eq, outlineSlot_eq]
  simp [other]

theorem restores (e : Expression) : Restores e.outline.doubles e e.reparse := by
  induction e with
  | integer value =>
    rw [reparse_integer]
    exact .done _
  | double x =>
    rw [reparse_double]
    exact (Restores.double x).map _
  | string value =>
    rw [reparse_string]
    exact .done _
  | boolean value =>
    rw [reparse_boolean]
    exact .done _
  | identifier name =>
    rw [reparse_identifier]
    exact .done _
  | unary op operand ih =>
    have same : (unary op operand).outline.doubles = operand.toList.flatMap fun e => e.outline.doubles := by
      simp [outline, outlineSlot_eq, Node.double?]
    rw [same, reparse_unary]
    exact (Restores.place ih).map _
  | binary op left right ihLeft ihRight =>
    rw [doubles_operands (by rw [outline]) rfl, reparse_binary]
    exact (Restores.place ihLeft).both (Restores.place ihRight) _
  | comparison op left right ihLeft ihRight =>
    rw [doubles_operands (by rw [outline]) rfl, reparse_comparison]
    exact (Restores.place ihLeft).both (Restores.place ihRight) _
  | call callee arguments ih =>
    have same : (call callee arguments).outline.doubles = arguments.flatMap fun e => e.outline.doubles := by
      simp [outline, outlines_eq_map, List.flatMap_map, Node.double?]
    rw [same, reparse_call]
    exact (Restores.list ih).map _

end Expression

namespace Comparison

def reparse (c : Comparison) : Option Comparison := Treeline.reparse ofDocument c.toDocument

theorem ofDocument_object (entries : List (String × Document)) :
    ofDocument (object entries) =
      Expression.comparisonFields.read ExpressionKind.comparison.title (.entries (parts Expression.reading entries)) :=
  rfl

theorem restores (c : Comparison) : Restores c.outline.doubles c c.reparse := by
  have same : c.outline.doubles =
      (c.left.toList.flatMap fun e => e.outline.doubles) ++ c.right.toList.flatMap fun e => e.outline.doubles := by
    simp [outline, Expression.outlineSlot_eq, Node.double?]
  rw [reparse, toDocument, reparse_untagged ofDocument_object, Expression.reparse_comparisonFields, same]
  exact (Restores.place fun e _ => Expression.restores e).both (Restores.place fun e _ => Expression.restores e)
    (Comparison.mk c.operator)

theorem reparsePlace_eq (place : Option Comparison) :
    reparsePlace ofDocument (placeDocument toDocument place) = place.mapM reparse :=
  reparsePlace_placeDocument (fun c => ⟨c.entries, rfl⟩) place

end Comparison

namespace Assignment

variable {ρ : Type} (reading : Document → ρ)

theorem restores_fields (a : Assignment) :
    Restores (a.below.flatMap Outline.doubles) a (fields.reparse reading a.entries) := by
  have read : fields.reparse reading a.entries =
      (a.expression.mapM Expression.reparse).map fun e => ⟨a.target, e⟩ := by
    rw [Fields.reparse, entries, ← Expression.reparsePlace_slotDocument, reparsePlace]
    simp only [List.mapM_cons, List.mapM_nil, readEntry, reread_string]
    cases (Expression.slotDocument a.expression).reread with
    | none => rfl
    | some found =>
      simp [fields, textField, childField, Function.comp_def, Option.map_bind]
  have same : a.below.flatMap Outline.doubles = a.expression.toList.flatMap fun e => e.outline.doubles := by
    simp [below, Expression.outlineSlot_eq]
  rw [read, same]
  exact (Restores.place fun e _ => Expression.restores e).map (Assignment.mk a.target)

def reparse (a : Assignment) : Option Assignment := Treeline.reparse ofDocument a.toDocument

theorem ofDocument_object (entries : List (String × Document)) :
    ofDocument (object entries) =
      fields.read StatementKind.assignment.title (.entries (parts (fun _ => ()) entries)) := rfl

theorem restores (a : Assignment) : Restores a.outline.doubles a a.reparse := by
  rw [reparse, toDocument, reparse_untagged ofDocument_object, outline, Outline.doubles_node]
  exact a.restores_fields fun _ => ()

theorem reparsePlace_eq (place : Option Assignment) :
    reparsePlace ofDocument (placeDocument toDocument place) = place.mapM reparse :=
  reparsePlace_placeDocument (fun a => ⟨a.entries, rfl⟩) place

end Assignment

namespace Variable

variable {ρ : Type} (reading : Document → ρ)

theorem restores_fields (v : Variable) :
    Restores (v.below.flatMap Outline.doubles) v (fields.reparse reading v.entries) := by
  have read : fields.reparse reading v.entries =
      (v.assignment.mapM Assignment.reparse).map fun a => ⟨v.typeName, v.name, a⟩ := by
    rw [Fields.reparse, entries, ← Assignment.reparsePlace_eq, reparsePlace]
    simp only [List.mapM_cons, List.mapM_nil, readEntry, reread_string]
    cases (placeDocument Assignment.toDocument v.assignment).reread with
    | none => rfl
    | some found =>
      simp [fields, textField, childField, Function.comp_def, Option.map_bind]
  have same : v.below.flatMap Outline.doubles = v.assignment.toList.flatMap fun a => a.outline.doubles := by
    simp [below, List.flatMap_map]
  rw [read, same]
  exact (Restores.place fun a _ => Assignment.restores a).map (Variable.mk v.typeName v.name)

def reparse (v : Variable) : Option Variable := Treeline.reparse ofDocument v.toDocument

theorem ofDocument_object (entries : List (String × Document)) :
    ofDocument (object entries) =
      fields.read StatementKind.variableDecl.title (.entries (parts (fun _ => ()) entries)) := rfl

theorem restores (v : Variable) : Restores v.outline.doubles v v.reparse := by
  rw [reparse, toDocument, reparse_untagged ofDocument_object, outline, Outline.doubles_node]
  exact v.restores_fields fun _ => ()

theorem reparse_list (declared : List Variable) :
    Treeline.reparse (readList ofDocument) (array (declared.map toDocument)) = declared.mapM reparse := by
  rw [reparse_array fun _ => rfl, List.mapM_map]
  rfl

end Variable

end Treeline
