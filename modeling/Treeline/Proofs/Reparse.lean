import Treeline.Proofs.Restoring

namespace Treeline

open Document

namespace Statement

-- What the text of a statement is read as, and that of a block.
def reparse (s : Statement) : Option Statement := Treeline.reparse ofDocument s.toDocument

def reparseBlock (statements : Block) : Option Block := List.mapM reparse statements

def blockOf (d : Document) : Except Fault Block := (reading d).block

@[simp] theorem ofNamed_blockField (name : String) (d : Document) :
    (Field.place name fun part : Part Reading => part.reading.block).ofNamed [⟨d, reading d⟩] = placeOf blockOf d :=
  Field.ofNamed_place name rfl

theorem many_eq (d : Document) : (reading d).many = d.readList ofDocument := by
  rw [reading, fold_eq]
  exact readMany_body? Reading.one reading d

theorem listDocuments_eq_map (ss : List Statement) : listDocuments ss = ss.map toDocument := by
  induction ss with
  | nil => rfl
  | cons s ss ih => simp [listDocuments, ih]

theorem reparse_listDocuments (ss : List Statement) :
    Treeline.reparse (fun d => (reading d).many) (array (listDocuments ss)) = ss.mapM reparse := by
  rw [reparse_array many_eq, listDocuments_eq_map, List.mapM_map]
  rfl

theorem reparse_blockFields (ss : List Statement) :
    blockFields.reparse reading [("statements", array (listDocuments ss))] = ss.mapM reparse := by
  rw [Fields.reparse, ← reparse_listDocuments, Treeline.reparse]
  simp only [List.mapM_cons, List.mapM_nil, readEntry]
  cases (array (listDocuments ss)).reread <;> simp [blockFields]

theorem blockOf_object (entries : List (String × Document)) :
    blockOf (object entries) = blockFields.read StatementKind.block.title (.entries (parts reading entries)) := by
  rw [blockOf, reading, fold_eq]
  rfl

theorem reparsePlace_blockDocument (place : Option Block) :
    reparsePlace blockOf (blockDocument place) = place.mapM reparseBlock := by
  let encode := fun statements : Block => object [("statements", array (listDocuments statements))]
  have same : blockDocument place = placeDocument encode place := by
    cases place <;> rfl
  have each : (fun statements => Treeline.reparse blockOf (encode statements)) = reparseBlock := by
    funext statements
    exact (reparse_untagged blockOf_object _).trans (reparse_blockFields statements)
  rw [same, reparsePlace_placeDocument (fun statements => ⟨_, rfl⟩), each]

theorem reparse_kind (kind : StatementKind) {entries : List (String × Document)}
    (untagged : ∀ entry ∈ entries, entry.1 ≠ tagKey) :
    Treeline.reparse ofDocument (object (tagEntry kind :: entries)) = (fields kind).reparse reading entries :=
  reparse_tagged Statement.decodes statementKind_faithful kind untagged

theorem reparse_expressionField (e : Option Expression) :
    (expressionField "expression").reparse reading [("expression", Expression.slotDocument e)] =
      e.mapM Expression.reparse := by
  rw [Fields.reparse, ← Expression.reparsePlace_slotDocument, reparsePlace]
  simp only [List.mapM_cons, List.mapM_nil, readEntry]
  cases (Expression.slotDocument e).reread <;> simp [expressionField, childField]

theorem reparse_expression (e : Option Expression) :
    (expression e).reparse = (e.mapM Expression.reparse).map .expression := by
  refine (reparse_kind _ (by simp [tagKey])).trans ?_
  rw [fields, Fields.reparse_map, reparse_expressionField]

theorem reparse_returning (e : Option Expression) :
    (returning e).reparse = (e.mapM Expression.reparse).map .returning := by
  refine (reparse_kind _ (by simp [tagKey])).trans ?_
  rw [fields, Fields.reparse_map, reparse_expressionField]

theorem reparse_assignment (a : Assignment) :
    (assignment a).reparse = (Assignment.fields.reparse reading a.entries).map .assignment := by
  refine (reparse_kind _ (by simp [tagKey, Assignment.entries])).trans ?_
  rw [fields, Fields.reparse_map]

theorem reparse_variableDecl (v : Variable) :
    (variableDecl v).reparse = (Variable.fields.reparse reading v.entries).map .variableDecl := by
  refine (reparse_kind _ (by simp [tagKey, Variable.entries])).trans ?_
  rw [fields, Fields.reparse_map]

theorem reparse_block (statements : List Statement) :
    (block statements).reparse = (statements.mapM reparse).map .block := by
  refine (reparse_kind _ (by simp [tagKey])).trans ?_
  rw [fields, Fields.reparse_map, reparse_blockFields]

theorem reparse_classDecl (name : String) (body : Option Block) :
    (classDecl name body).reparse =
      (body.mapM reparseBlock).map fun body => .classDecl name body := by
  refine (reparse_kind _ (by simp [tagKey])).trans ?_
  rw [Fields.reparse, ← reparsePlace_blockDocument, reparsePlace]
  simp only [List.mapM_cons, List.mapM_nil, readEntry, reread_string]
  cases (blockDocument body).reread with
  | none => rfl
  | some read =>
    simp [fields, textField, blockField, Function.comp_def, Option.map_bind]

theorem reparse_conditional (condition : Option Comparison) (thenBlock elseBlock : Option Block) :
    (conditional condition thenBlock elseBlock).reparse =
      (condition.mapM Comparison.reparse).bind fun condition =>
        ((thenBlock.mapM reparseBlock).bind fun thenBlock =>
          (elseBlock.mapM reparseBlock).map fun elseBlock => (thenBlock, elseBlock)).map fun blocks =>
            .conditional condition blocks.1 blocks.2 := by
  refine (reparse_kind _ (by simp [tagKey])).trans ?_
  rw [Fields.reparse, ← Comparison.reparsePlace_eq,
    ← reparsePlace_blockDocument, ← reparsePlace_blockDocument, reparsePlace, reparsePlace, reparsePlace]
  simp only [List.mapM_cons, List.mapM_nil, readEntry]
  cases (placeDocument Comparison.toDocument condition).reread with
  | none => rfl
  | some c =>
    cases (blockDocument thenBlock).reread with
    | none => simp
    | some t =>
      cases (blockDocument elseBlock).reread with
      | none => simp
      | some e =>
        simp [fields, childField, blockField, Function.comp_def, Option.map_bind]

theorem reparse_whileLoop (condition : Option Expression) (body elseBlock : Option Block) :
    (whileLoop condition body elseBlock).reparse =
      (condition.mapM Expression.reparse).bind fun condition =>
        ((body.mapM reparseBlock).bind fun body =>
          (elseBlock.mapM reparseBlock).map fun elseBlock => (body, elseBlock)).map fun blocks =>
            .whileLoop condition blocks.1 blocks.2 := by
  refine (reparse_kind _ (by simp [tagKey])).trans ?_
  rw [Fields.reparse, ← Expression.reparsePlace_slotDocument,
    ← reparsePlace_blockDocument, ← reparsePlace_blockDocument, reparsePlace, reparsePlace, reparsePlace]
  simp only [List.mapM_cons, List.mapM_nil, readEntry]
  cases (Expression.slotDocument condition).reread with
  | none => rfl
  | some c =>
    cases (blockDocument body).reread with
    | none => simp
    | some b =>
      cases (blockDocument elseBlock).reread with
      | none => simp
      | some e =>
        simp [fields, expressionField, childField, blockField, Function.comp_def, Option.map_bind]

theorem reparse_forLoop (init : Option Assignment) (condition : Option Expression) (body : Option Block)
    (update : Option Assignment) :
    (forLoop init condition body update).reparse =
      (init.mapM Assignment.reparse).bind fun init =>
        ((condition.mapM Expression.reparse).bind fun condition =>
          ((body.mapM reparseBlock).bind fun body =>
            (update.mapM Assignment.reparse).map fun update => (body, update)).map fun rest => (condition, rest)).map
              fun rest => .forLoop init rest.1 rest.2.1 rest.2.2 := by
  refine (reparse_kind _ (by simp [tagKey])).trans ?_
  rw [Fields.reparse, ← Assignment.reparsePlace_eq,
    ← Assignment.reparsePlace_eq, ← Expression.reparsePlace_slotDocument, ← reparsePlace_blockDocument, reparsePlace,
    reparsePlace, reparsePlace, reparsePlace]
  simp only [List.mapM_cons, List.mapM_nil, readEntry]
  cases (placeDocument Assignment.toDocument init).reread with
  | none => rfl
  | some i =>
    cases (Expression.slotDocument condition).reread with
    | none => simp
    | some c =>
      cases (blockDocument body).reread with
      | none => simp
      | some b =>
        cases (placeDocument Assignment.toDocument update).reread with
        | none => simp
        | some u =>
          simp [fields, expressionField, childField, blockField, Function.comp_def, Option.map_bind]

theorem reparse_functionDecl (returnType name : String) (parameters : List Variable) (body : Option Block) :
    (functionDecl returnType name parameters body).reparse =
      (parameters.mapM Variable.reparse).bind fun parameters =>
        (body.mapM reparseBlock).map fun body => .functionDecl returnType name parameters body := by
  refine (reparse_kind _ (by simp [tagKey])).trans ?_
  rw [Fields.reparse, ← Variable.reparse_list,
    ← reparsePlace_blockDocument, reparsePlace, Treeline.reparse]
  simp only [List.mapM_cons, List.mapM_nil, readEntry, reread_string]
  cases (array (parameters.map Variable.toDocument)).reread with
  | none => rfl
  | some p =>
    cases (blockDocument body).reread with
    | none => simp
    | some b =>
      simp [fields, textField, blockField, Function.comp_def, Option.map_bind]

-- The doubles below a place for a block.
def blockDoubles (statements : Block) : List Binary64 := List.flatMap (fun s => s.outline.doubles) statements

theorem doubles_outlineBlock {absent : List Outline} (bare : absent.flatMap Outline.doubles = [])
    (place : Option Block) :
    (outlineBlock absent place).flatMap Outline.doubles = place.toList.flatMap blockDoubles := by
  rw [outlineBlock_eq]
  cases place with
  | none => exact bare
  | some statements => simp [Block.outline, outlines_eq_map, List.flatMap_map, Node.double?, blockDoubles]

theorem restores_block {place : Option Block} (each : ∀ b ∈ place, ∀ s ∈ b, Restores s.outline.doubles s s.reparse) :
    Restores (place.toList.flatMap blockDoubles) place (place.mapM reparseBlock) :=
  .place fun statements present => .list (each statements present)

theorem restores (s : Statement) : Restores s.outline.doubles s s.reparse := by
  have operand : ∀ place : Option Expression,
      Restores (place.toList.flatMap fun e => e.outline.doubles) place (place.mapM Expression.reparse) :=
    fun _ => .place fun e _ => e.restores
  have assigned : ∀ place : Option Assignment,
      Restores (place.toList.flatMap fun a => a.outline.doubles) place (place.mapM Assignment.reparse) :=
    fun _ => .place fun a _ => a.restores
  have optional := @doubles_outlineBlock [] rfl
  have required := fun missing => @doubles_outlineBlock [.hole missing] rfl
  induction s with
  | expression e =>
    have same : (expression e).outline.doubles = e.toList.flatMap fun e => e.outline.doubles := by
      simp [outline, Expression.outlineSlot_eq, Node.double?]
    rw [same, reparse_expression]
    exact (operand e).map expression
  | assignment a =>
    rw [reparse_assignment, outline, Outline.doubles_node]
    exact (a.restores_fields reading).map assignment
  | variableDecl v =>
    rw [reparse_variableDecl, outline, Outline.doubles_node]
    exact (v.restores_fields reading).map variableDecl
  | returning e =>
    have same : (returning e).outline.doubles = e.toList.flatMap fun e => e.outline.doubles := by
      simp [outline, List.flatMap_map, Node.double?]
    rw [same, reparse_returning]
    exact (operand e).map returning
  | block statements ih =>
    have same : (block statements).outline.doubles = statements.flatMap fun s => s.outline.doubles := by
      simp [outline, outlines_eq_map, List.flatMap_map, Node.double?]
    rw [same, reparse_block]
    exact (Restores.list ih).map block
  | conditional condition thenBlock elseBlock ihThen ihElse =>
    have same : (conditional condition thenBlock elseBlock).outline.doubles =
        (condition.toList.flatMap fun c => c.outline.doubles) ++
          (thenBlock.toList.flatMap blockDoubles ++ elseBlock.toList.flatMap blockDoubles) := by
      simp [outline, optional, Node.double?]
    have compared : Restores (condition.toList.flatMap fun c => c.outline.doubles) condition
        (condition.mapM Comparison.reparse) := .place fun c _ => c.restores
    have blocks := (restores_block ihThen).both (restores_block ihElse) Prod.mk
    rw [same, reparse_conditional]
    exact compared.both blocks fun condition blocks => conditional condition blocks.1 blocks.2
  | whileLoop condition body elseBlock ihBody ihElse =>
    have same : (whileLoop condition body elseBlock).outline.doubles =
        (condition.toList.flatMap fun e => e.outline.doubles) ++
          (body.toList.flatMap blockDoubles ++ elseBlock.toList.flatMap blockDoubles) := by
      simp [outline, Expression.outlineSlot_eq, optional, required, Node.double?]
    have blocks := (restores_block ihBody).both (restores_block ihElse) Prod.mk
    rw [same, reparse_whileLoop]
    exact (operand condition).both blocks fun condition blocks => whileLoop condition blocks.1 blocks.2
  | forLoop init condition body update ihBody =>
    have same : (forLoop init condition body update).outline.doubles =
        (init.toList.flatMap fun a => a.outline.doubles) ++
          ((condition.toList.flatMap fun e => e.outline.doubles) ++
            (body.toList.flatMap blockDoubles ++ update.toList.flatMap fun a => a.outline.doubles)) := by
      simp [outline, Expression.outlineSlot_eq, required, Node.double?]
    have inner := (restores_block ihBody).both (assigned update) Prod.mk
    rw [same, reparse_forLoop]
    exact (assigned init).both ((operand condition).both inner Prod.mk) fun init rest =>
      forLoop init rest.1 rest.2.1 rest.2.2
  | functionDecl returnType name parameters body ihBody =>
    have same : (functionDecl returnType name parameters body).outline.doubles =
        (parameters.flatMap fun v => v.outline.doubles) ++ body.toList.flatMap blockDoubles := by
      simp [outline, List.flatMap_map, required, Node.double?]
    have listed : Restores (parameters.flatMap fun v => v.outline.doubles) parameters
        (parameters.mapM Variable.reparse) := .list fun v _ => v.restores
    rw [same, reparse_functionDecl]
    exact listed.both (restores_block ihBody) fun parameters body => functionDecl returnType name parameters body
  | classDecl name body ihBody =>
    have same : (classDecl name body).outline.doubles = body.toList.flatMap blockDoubles := by
      simp [outline, optional, Node.double?]
    rw [same, reparse_classDecl]
    exact (restores_block ihBody).map fun body => classDecl name body

end Statement

end Treeline
