import Treeline.Proofs.Description

namespace Treeline

open Document

-- One step of decoding: a document is read as a node exactly if its members hold the node's record, whose children are
-- read in the same way.

namespace Expression

theorem decoded_iff (d : Document) (e : Expression) :
    (ofDocument d).toOption = some e ↔ Decoded d (.expression e) :=
  map_eq_some_wrap_iff fun _ _ same => Node.expression.inj same

theorem describes_operand (name : String) :
    (operandField name).Describes reading fun child => [(name, .place (child.map .expression))] :=
  describes_place name Node.expression decoded_iff

theorem describes_comparison : comparisonFields.Describes reading fun c => c.toExpression.record := by
  have described := (describes_symbol compareOp_faithful).both
    ((describes_operand "left").both (describes_operand "right"))
  refine described.map_onto ?_ (fun _ => rfl)
  exact fun c => ⟨(c.operator, c.left, c.right), rfl⟩

theorem describes_arguments :
    (Fields.one (.list "arguments" fun part : Part Reading => part.reading.many)).Describes reading
      fun children => [("arguments", .list (children.map .expression))] :=
  describes_list "arguments" Node.expression many_eq decoded_iff

theorem kind_of_ofMembers {kind : ExpressionKind} {members : Members} {short : Nat → Fault} {e : Expression}
    (read : (fields kind).ofMembers reading members short 0 = some e) : e.kind = kind := by
  cases kind <;> exact Fields.kindOf_made read fun _ => rfl

theorem ofMembers_kind_iff (e : Expression) {members : Members} {short : Nat → Fault} :
    (fields e.kind).ofMembers reading members short 0 = some e ↔ members.Fit Decoded 0 e.record := by
  cases e with
  | integer value => exact (describes_integer "value").made value fun _ => by rfl
  | double value => exact (describes_double "value").made value fun _ => by rfl
  | string value => exact (describes_text "value").made value fun _ => by rfl
  | boolean value => exact (describes_boolean "value").made value fun _ => by rfl
  | identifier name => exact (describes_text "name").made name fun _ => by rfl
  | unary operator operand =>
    have described := (describes_symbol unaryOp_faithful).both (describes_operand "operand")
    exact described.made (operator, operand) fun _ => by rfl
  | binary operator left right =>
    have described := (describes_symbol binaryOp_faithful).both
      ((describes_operand "left").both (describes_operand "right"))
    exact described.made (operator, left, right) fun _ => by rfl
  | comparison operator left right => exact describes_comparison.made ⟨operator, left, right⟩ fun _ => by rfl
  | call callee arguments =>
    have described := (describes_text "callee").both describes_arguments
    exact described.made (callee, arguments) fun _ => by rfl

theorem ofMembers_fields_iff (kind : ExpressionKind) (members : Members) (short : Nat → Fault) (e : Expression) :
    (fields kind).ofMembers reading members short 0 = some e ↔
      e.kind = kind ∧ members.Fit Decoded 0 e.record := by
  constructor
  · intro read
    cases kind_of_ofMembers read
    exact ⟨rfl, e.ofMembers_kind_iff.mp read⟩
  · rintro ⟨rfl, fit⟩
    exact e.ofMembers_kind_iff.mpr fit

theorem size_fields (kind : ExpressionKind) : (fields kind).size = kind.layout.length := by
  cases kind <;> rfl

end Expression

theorem Comparison.decoded_iff (d : Document) (c : Comparison) :
    (ofDocument d).toOption = some c ↔ Decoded d (.comparison c) :=
  map_eq_some_wrap_iff fun _ _ same => Node.comparison.inj same

theorem Assignment.decoded_iff (d : Document) (a : Assignment) :
    (ofDocument d).toOption = some a ↔ Decoded d (.assignment a) :=
  map_eq_some_wrap_iff fun _ _ same => Node.assignment.inj same

theorem Variable.decoded_iff (d : Document) (v : Variable) :
    (ofDocument d).toOption = some v ↔ Decoded d (.variableDecl v) :=
  map_eq_some_wrap_iff fun _ _ same => Node.variableDecl.inj same

theorem Assignment.describes {ρ : Type} (reading : Document → ρ) : Assignment.fields.Describes reading record := by
  have described := (describes_text "target").both (describes_child reading "expression" Expression.decoded_iff)
  refine described.map_onto ?_ (fun _ => rfl)
  exact fun a => ⟨(a.target, a.expression), rfl⟩

theorem Variable.describes {ρ : Type} (reading : Document → ρ) : Variable.fields.Describes reading record := by
  have described := (describes_text "type_name").both
    ((describes_text "name").both (describes_child reading "assignment" Assignment.decoded_iff))
  refine described.map_onto ?_ (fun _ => rfl)
  exact fun v => ⟨(v.typeName, v.name, v.assignment), rfl⟩

namespace Statement

theorem decoded_iff (d : Document) (s : Statement) : (ofDocument d).toOption = some s ↔ Decoded d (.statement s) :=
  map_eq_some_wrap_iff fun _ _ same => Node.statement.inj same

theorem decoded_block_iff (d : Document) (b : Block) : (blockOf d).toOption = some b ↔ Decoded d (.block b) :=
  map_eq_some_wrap_iff fun _ _ same => Node.block.inj same

theorem describes_block : blockFields.Describes reading Block.record :=
  describes_list "statements" Node.statement many_eq decoded_iff

theorem describes_expressionField (name : String) :
    (expressionField name).Describes reading fun child => [(name, .place (child.map .expression))] :=
  describes_child reading name Expression.decoded_iff

theorem describes_blockField (name : String) :
    (blockField name).Describes reading fun child => [(name, .place (child.map .block))] :=
  describes_place name Node.block decoded_block_iff

theorem describes_assignmentField (name : String) :
    (childField name Assignment.ofDocument).Describes reading fun child => [(name, .place (child.map .assignment))] :=
  describes_child reading name Assignment.decoded_iff

theorem describes_parameters :
    (Fields.one (.list "parameters" fun part : Part Reading => part.document.readList Variable.ofDocument)).Describes
      reading fun children => [("parameters", .list (children.map .variableDecl))] :=
  describes_list "parameters" Node.variableDecl (fun _ => rfl) Variable.decoded_iff

theorem kind_of_ofMembers {kind : StatementKind} {members : Members} {short : Nat → Fault} {s : Statement}
    (read : (fields kind).ofMembers reading members short 0 = some s) : s.kind = kind := by
  cases kind <;> exact Fields.kindOf_made read fun _ => rfl

theorem ofMembers_kind_iff (s : Statement) {members : Members} {short : Nat → Fault} :
    (fields s.kind).ofMembers reading members short 0 = some s ↔ members.Fit Decoded 0 s.record := by
  cases s with
  | expression e => exact (describes_expressionField "expression").made e fun _ => by rfl
  | assignment a => exact (Assignment.describes reading).made a fun _ => by rfl
  | variableDecl v => exact (Variable.describes reading).made v fun _ => by rfl
  | returning e => exact (describes_expressionField "expression").made e fun _ => by rfl
  | block statements => exact describes_block.made statements fun _ => by rfl
  | conditional condition thenBlock elseBlock =>
    have described := (describes_child reading "condition" Comparison.decoded_iff).both
      ((describes_blockField "then_block").both (describes_blockField "else_block"))
    exact described.made (condition, thenBlock, elseBlock) fun _ => by rfl
  | whileLoop condition body elseBlock =>
    have described := (describes_expressionField "condition").both
      ((describes_blockField "body").both (describes_blockField "else_block"))
    exact described.made (condition, body, elseBlock) fun _ => by rfl
  | forLoop init condition body update =>
    have described := (describes_assignmentField "init").both ((describes_expressionField "condition").both
      ((describes_blockField "body").both (describes_assignmentField "update")))
    exact described.made (init, condition, body, update) fun _ => by rfl
  | functionDecl returnType name parameters body =>
    have described := (describes_text "return_type").both ((describes_text "name").both
      (describes_parameters.both (describes_blockField "body")))
    exact described.made (returnType, name, parameters, body) fun _ => by rfl
  | classDecl name body =>
    have described := (describes_text "name").both (describes_blockField "body")
    exact described.made (name, body) fun _ => by rfl

theorem ofMembers_fields_iff (kind : StatementKind) (members : Members) (short : Nat → Fault) (s : Statement) :
    (fields kind).ofMembers reading members short 0 = some s ↔
      s.kind = kind ∧ members.Fit Decoded 0 s.record := by
  constructor
  · intro read
    cases kind_of_ofMembers read
    exact ⟨rfl, s.ofMembers_kind_iff.mp read⟩
  · rintro ⟨rfl, fit⟩
    exact s.ofMembers_kind_iff.mpr fit

theorem size_fields (kind : StatementKind) : (fields kind).size = kind.layout.length := by
  cases kind <;> rfl

end Statement

-- What the only tag of an object says.
def Document.onlyTagged? (κ : Type) [Vocabulary κ] : List Document → Option κ
  | [tag] => (tag.readTag κ).toOption
  | _ => none

-- The kind that a document's tag names, and the members beside the tag.
def Document.tagged? (κ : Type) [Vocabulary κ] : Document → Option (κ × Members)
  | .object entries =>
    (onlyTagged? κ (valuesOf tagKey entries)).map fun kind => (kind, .entries (without tagKey entries))
  | .array (tag :: items) => (tag.readTag κ).toOption.map fun kind => (kind, .items items)
  | _ => none

def Document.members? : Document → Option Members
  | .object entries => some (.entries entries)
  | .array items => some (.items items)
  | _ => none

-- The kind and the members of the record that a document of the role spells, if it is one at all.
def Role.unpack? : Role → Document → Option (Kind × Members)
  | .expression, d => (d.tagged? ExpressionKind).map fun tagged => (.expression tagged.1, tagged.2)
  | .comparison, d => d.members?.map fun members => (.expression .comparison, members)
  | .assignment, d => d.members?.map fun members => (.statement .assignment, members)
  | .variableDecl, d => d.members?.map fun members => (.statement .variableDecl, members)
  | .block, d => d.members?.map fun members => (.statement .block, members)
  | .statement, d => (d.tagged? StatementKind).map fun tagged => (.statement tagged.1, tagged.2)

section Unpacking

variable {κ ρ α : Type} [Vocabulary κ] {reading : Document → ρ}

theorem toOption_tagOfBody_eq (title : String) (d : Document) :
    (tagOfBody title d (d.body? reading) : Except Fault (κ × Body ρ)).toOption =
      (d.tagged? κ).map fun tagged => (tagged.1, tagged.2.body reading) := by
  cases d with
  | object entries =>
    have rest : (parts reading entries).filter (fun entry => entry.1 != tagKey) =
        parts reading (without tagKey entries) := by
      rw [parts, List.filter_map]
      rfl
    refine (toOption_tagOfEntries (parts reading entries)).trans ?_
    rw [named_parts, rest, tagged?, Option.map_map]
    rcases valuesOf tagKey entries with _ | ⟨tag, _ | ⟨other, others⟩⟩
    · rfl
    · rfl
    · rfl
  | array items =>
    cases items with
    | nil => rfl
    | cons tag items =>
      refine (toOption_bind (tag.readTag κ) _).trans ?_
      rw [tagged?]
      cases (tag.readTag κ).toOption <;> rfl
  | _ => rfl

theorem toOption_decodes_iff {title : String} {titleOf : κ → String} {fields : κ → Fields ρ α}
    {ofDocument : Document → Except Fault α}
    (decodes : ∀ d, ofDocument d = tagOfBody title d (d.body? reading) >>= fun tagged =>
      (fields tagged.1).read (titleOf tagged.1) tagged.2)
    {kindOf : α → κ} {record : α → List (String × Value)}
    (each : ∀ kind members short a, (fields kind).ofMembers reading members short 0 = some a ↔
      kindOf a = kind ∧ members.Fit Decoded 0 (record a)) (d : Document) (a : α) :
    (ofDocument d).toOption = some a ↔
      ∃ members, d.tagged? κ = some (kindOf a, members) ∧ members.Within (fields (kindOf a)).size ∧
        members.Fit Decoded 0 (record a) := by
  rw [decodes, toOption_bind, toOption_tagOfBody_eq, Option.bind_map, Option.bind_eq_some_iff]
  simp only [Function.comp_apply, Fields.toOption_read_iff, each]
  constructor
  · rintro ⟨⟨kind, members⟩, found, enough, rfl, fit⟩
    exact ⟨members, found, enough, fit⟩
  · rintro ⟨members, found, enough, fit⟩
    exact ⟨(kindOf a, members), found, enough, rfl, fit⟩

theorem toOption_untagged_iff {title : String} {fields : Fields ρ α} {record : α → List (String × Value)}
    (described : fields.Describes reading record) (d : Document) (a : α) :
    (fields.readUntagged title d (d.body? reading)).toOption = some a ↔
      ∃ members, d.members? = some members ∧ members.Within fields.size ∧ members.Fit Decoded 0 (record a) := by
  have opened : ∀ members : Members, (fields.read title (members.body reading)).toOption = some a ↔
      ∃ found, some members = some found ∧ found.Within fields.size ∧ found.Fit Decoded 0 (record a) := by
    intro members
    rw [Fields.toOption_read_iff, described.read]
    simp
  cases d with
  | object entries => exact opened (.entries entries)
  | array items => exact opened (.items items)
  | _ =>
    constructor
    · rintro ⟨⟩
    · rintro ⟨members, ⟨⟩, -⟩

end Unpacking

-- The document can be unpacked as a record of the node's kind, its members hold that record, and no items stand after
-- it.
def Role.Unpacks (role : Role) (d : Document) (node : Node) : Prop :=
  ∃ members, role.unpack? d = some (node.kind, members) ∧ members.Within node.kind.layout.length ∧
    members.Fit Decoded 0 node.record

-- The nodes of one role are trees of one type.
theorem map_eq_some_iff_of_role {α : Type} (wrap : α → Node) {role : Role} (of : ∀ a, (wrap a).role = role)
    (onto : ∀ node : Node, node.role = role → ∃ a, wrap a = node) {found : Option α} {P : Node → Prop}
    (each : ∀ a, found = some a ↔ P (wrap a)) (node : Node) :
    found.map wrap = some node ↔ node.role = role ∧ P node := by
  rw [Option.map_eq_some_iff]
  constructor
  · rintro ⟨a, read, rfl⟩
    exact ⟨of a, (each a).mp read⟩
  · rintro ⟨same, holds⟩
    obtain ⟨a, rfl⟩ := onto node same
    exact ⟨a, (each a).mpr holds, rfl⟩

theorem Role.unpack?_tagged {role : Role} {κ : Type} [Vocabulary κ] (make : κ → Kind)
    (make_inj : ∀ {k k'}, make k = make k' → k = k') {d : Document}
    (unpacked : role.unpack? d = (d.tagged? κ).map fun tagged => (make tagged.1, tagged.2)) {kind : κ}
    {members : Members} : role.unpack? d = some (make kind, members) ↔ d.tagged? κ = some (kind, members) := by
  rw [unpacked, Option.map_eq_some_iff]
  constructor
  · rintro ⟨⟨kind', members'⟩, found, same⟩
    rw [found]
    have kinds : kind' = kind := make_inj (Prod.mk.inj same).1
    have rest : members' = members := (Prod.mk.inj same).2
    rw [kinds, rest]
  · intro found
    exact ⟨(kind, members), found, rfl⟩

theorem Role.unpack?_untagged {role : Role} {kind : Kind} {d : Document}
    (unpacked : role.unpack? d = d.members?.map fun members => (kind, members)) {members : Members} :
    role.unpack? d = some (kind, members) ↔ d.members? = some members := by
  rw [unpacked, Option.map_eq_some_iff]
  simp

theorem Role.decode_iff (role : Role) (d : Document) (node : Node) :
    role.decode d = some node ↔ node.role = role ∧ role.Unpacks d node := by
  cases role with
  | expression =>
    apply map_eq_some_iff_of_role Node.expression (fun _ => rfl)
    · intro node same
      cases node <;> cases same
      exact ⟨_, rfl⟩
    · intro e
      refine (toOption_decodes_iff Expression.decodes_body Expression.ofMembers_fields_iff d e).trans ?_
      rw [Expression.size_fields]
      apply exists_congr
      intro members
      exact and_congr_left' (unpack?_tagged Kind.expression Kind.expression.inj rfl).symm
  | statement =>
    apply map_eq_some_iff_of_role Node.statement (fun _ => rfl)
    · intro node same
      cases node <;> cases same
      exact ⟨_, rfl⟩
    · intro s
      refine (toOption_decodes_iff Statement.decodes_body Statement.ofMembers_fields_iff d s).trans ?_
      rw [Statement.size_fields]
      apply exists_congr
      intro members
      exact and_congr_left' (unpack?_tagged Kind.statement Kind.statement.inj rfl).symm
  | comparison =>
    apply map_eq_some_iff_of_role Node.comparison (fun _ => rfl)
    · intro node same
      cases node <;> cases same
      exact ⟨_, rfl⟩
    · intro c
      refine (toOption_untagged_iff Expression.describes_comparison d c).trans (exists_congr fun members => ?_)
      exact and_congr_left' (unpack?_untagged rfl).symm
  | assignment =>
    apply map_eq_some_iff_of_role Node.assignment (fun _ => rfl)
    · intro node same
      cases node <;> cases same
      exact ⟨_, rfl⟩
    · intro a
      refine (toOption_untagged_iff (Assignment.describes _) d a).trans (exists_congr fun members => ?_)
      exact and_congr_left' (unpack?_untagged rfl).symm
  | variableDecl =>
    apply map_eq_some_iff_of_role Node.variableDecl (fun _ => rfl)
    · intro node same
      cases node <;> cases same
      exact ⟨_, rfl⟩
    · intro v
      refine (toOption_untagged_iff (Variable.describes _) d v).trans (exists_congr fun members => ?_)
      exact and_congr_left' (unpack?_untagged rfl).symm
  | block =>
    apply map_eq_some_iff_of_role Node.block (fun _ => rfl)
    · intro node same
      cases node <;> cases same
      exact ⟨_, rfl⟩
    · intro b
      rw [Statement.blockOf, Statement.reading, fold_eq]
      refine (toOption_untagged_iff Statement.describes_block d b).trans (exists_congr fun members => ?_)
      exact and_congr_left' (unpack?_untagged rfl).symm

-- The documents that stand where the record of a node expects other nodes.

def Document.listed : Document → List Document
  | .array items => items
  | _ => []

def Content.parts (found : List Document) : Content → List (Role × Document)
  | .scalar => []
  | .place role => found.map fun d => (role, d)
  | .list role => (found.flatMap listed).map fun d => (role, d)

def Role.children (role : Role) (d : Document) : List (Role × Document) :=
  match role.unpack? d with
  | none => []
  | some (kind, members) => kind.layout.zipIdx.flatMap fun slot => slot.1.2.parts (members.lookup slot.2 slot.1.1)

-- The property holds of a document and of everything below it that stands where a node is expected.
inductive Everywhere (P : Role → Document → Prop) : Role → Document → Prop
  | intro {role : Role} {d : Document} (here : P role d)
      (below : ∀ child ∈ role.children d, Everywhere P child.1 child.2) : Everywhere P role d

theorem Role.mem_children {role : Role} {d : Document} {kind : Kind} {members : Members}
    (unpacked : role.unpack? d = some (kind, members)) {index : Nat} {name : String} {content : Content}
    (slot : kind.layout[index]? = some (name, content)) {child : Role × Document}
    (part : child ∈ content.parts (members.lookup index name)) : child ∈ role.children d := by
  unfold Role.children
  rw [unpacked]
  exact List.mem_flatMap.mpr ⟨((name, content), index), List.mk_mem_zipIdx_iff_getElem?.mpr slot, part⟩

theorem Follows.slot {record : List (String × Value)} {layout : List (String × Content)}
    (follows : Follows record layout) {index : Nat} {name : String} {value : Value}
    (field : record[index]? = some (name, value)) :
    ∃ content, layout[index]? = some (name, content) ∧ value.Suits content := by
  induction follows generalizing index with
  | nil => cases field
  | @cons first slot record layout agree _ ih =>
    cases index with
    | zero =>
      cases field
      exact ⟨slot.2, congrArg some (Prod.ext agree.1.symm rfl), agree.2⟩
    | succ index => exact ih field

theorem Document.Members.fit_iff {child : Document → Node → Prop} {members : Members} {start : Nat}
    {record : List (String × Value)} :
    members.Fit child start record ↔
      ∀ (index : Nat) (name : String) (value : Value), record[index]? = some (name, value) →
        value.ReadFrom child members.isKeyed (members.lookup (start + index) name) := by
  induction record generalizing start with
  | nil => simp [Fit]
  | cons field record ih =>
    rw [Fit, ih]
    constructor
    · rintro ⟨first, others⟩ index name value found
      cases index with
      | zero =>
        cases found
        exact first
      | succ index =>
        have place : start + 1 + index = start + (index + 1) := by omega
        exact place ▸ others index name value found
    · intro all
      refine ⟨all 0 _ _ rfl, ?_⟩
      intro index name value found
      have place : start + (index + 1) = start + 1 + index := by omega
      exact place ▸ all (index + 1) name value found

end Treeline
