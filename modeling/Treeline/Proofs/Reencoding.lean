import Treeline.Proofs.Decoding
import Treeline.Proofs.Depth
import Treeline.Proofs.RoundTrip

namespace Treeline

open Document

-- Printing what was read: the document of a tree goes at most one bracket deeper than the one it was read from, and
-- that only where a list was left out.

def Value.toDocument : Value → Document
  | .text value => .string value
  | .word spelling => .string spelling
  | .boolean value => .boolean value
  | .integer value => .integer value.toInt
  | .double value => value.toDocument
  | .place none => .null
  | .place (some node) => node.toDocument
  | .list nodes => .array (nodes.map Node.toDocument)

-- The document of a node is its record behind its tag.
def Node.entries (node : Node) : List (String × Document) :=
  (if node.role.isTagged then [(tagKey, .string node.kind.tag)] else []) ++
    node.record.map fun field => (field.1, field.2.toDocument)

theorem Value.toDocument_operand (child : Option Expression) :
    (Value.place (child.map .expression)).toDocument = Expression.slotDocument child := by
  cases child <;> rfl

theorem Value.toDocument_block (child : Option Block) :
    (Value.place (child.map .block)).toDocument = Statement.blockDocument child := by
  cases child <;> rfl

theorem Value.toDocument_place {α : Type} (wrap : α → Node) {encode : α → Document}
    (same : ∀ a, (wrap a).toDocument = encode a) (child : Option α) :
    (Value.place (child.map wrap)).toDocument = placeDocument encode child := by
  cases child with
  | none => rfl
  | some a => exact same a

theorem Value.toDocument_list {α : Type} (wrap : α → Node) {encode : α → Document}
    (same : ∀ a, (wrap a).toDocument = encode a) (children : List α) :
    (Value.list (children.map wrap)).toDocument = .array (children.map encode) := by
  rw [Value.toDocument, List.map_map]
  exact congrArg Document.array (List.map_congr_left fun a _ => same a)

theorem Node.toDocument_eq (node : Node) : node.toDocument = .object node.entries := by
  have operand := Value.toDocument_operand
  have block := Value.toDocument_block
  have assigned := Value.toDocument_place Node.assignment fun _ => rfl
  have compared := Value.toDocument_place Node.comparison fun _ => rfl
  have parameters := Value.toDocument_list Node.variableDecl fun _ => rfl
  have arguments : ∀ es, (Value.list (es.map .expression)).toDocument = .array (Expression.listDocuments es) := by
    intro es
    rw [Expression.listDocuments_eq_map]
    exact Value.toDocument_list Node.expression (fun _ => rfl) es
  have statements : ∀ ss, (Value.list (ss.map .statement)).toDocument = .array (Statement.listDocuments ss) := by
    intro ss
    rw [Statement.listDocuments_eq_map]
    exact Value.toDocument_list Node.statement (fun _ => rfl) ss
  cases node with
  | expression e =>
    cases e with
    | _ =>
      simp only [Node.entries, Node.record, Expression.record, List.map_cons, List.map_nil, operand, arguments]
      rfl
  | comparison c =>
    simp only [Node.entries, Node.record, Comparison.toExpression, Expression.record, List.map_cons, List.map_nil,
      operand]
    rfl
  | statement s =>
    cases s with
    | _ =>
      simp only [Node.entries, Node.record, Statement.record, Assignment.record, Variable.record, Block.record,
        List.map_cons, List.map_nil, operand, block, assigned, compared, parameters, statements]
      rfl
  | _ =>
    simp only [Node.entries, Node.record, Assignment.record, Variable.record, Block.record, List.map_cons, List.map_nil,
      operand, assigned, statements]
    rfl

-- A node that leaves no list out.
def Role.Lists (role : Role) (d : Document) : Prop :=
  ∀ kind members, role.unpack? d = some (kind, members) → ∀ (index : Nat) (name : String) (inner : Role),
    kind.layout[index]? = some (name, .list inner) → members.lookup index name ≠ []

-- The members of a document stand below its bracket.

def Document.Members.all : Members → List Document
  | .entries es => es.map Prod.snd
  | .items ds => ds

theorem Document.Members.mem_all_of_lookup {members : Members} {index : Nat} {name : String} {part : Document}
    (found : part ∈ members.lookup index name) : part ∈ members.all := by
  cases members with
  | entries es =>
    obtain ⟨entry, present, rfl⟩ := List.mem_map.mp found
    exact List.mem_map_of_mem (List.mem_of_mem_filter present)
  | items ds => exact List.mem_of_getElem? (Option.mem_toList.mp found)

def Document.Encloses (d : Document) (members : Members) : Prop :=
  0 < d.nesting ∧ ∀ part ∈ members.all, part.nesting < d.nesting

theorem encloses_object {entries es : List (String × Document)} (among : ∀ entry ∈ es, entry ∈ entries) :
    (Document.object entries).Encloses (.entries es) := by
  have below := entriesNesting_le_iff.mp (Nat.le_refl (entriesNesting entries))
  rw [Encloses, nesting]
  refine ⟨by omega, ?_⟩
  intro part present
  obtain ⟨entry, member, rfl⟩ := List.mem_map.mp present
  have shallow := below entry (among entry member)
  omega

theorem encloses_array {items ds : List Document} (among : ∀ item ∈ ds, item ∈ items) :
    (Document.array items).Encloses (.items ds) := by
  have below := itemsNesting_le_iff.mp (Nat.le_refl (itemsNesting items))
  rw [Encloses, nesting]
  refine ⟨by omega, ?_⟩
  intro part present
  have shallow := below part (among part present)
  omega

theorem encloses_tagged {κ : Type} [Vocabulary κ] {d : Document} {kind : κ} {members : Members}
    (found : d.tagged? κ = some (kind, members)) : d.Encloses members := by
  unfold tagged? at found
  split at found
  · obtain ⟨_, -, same⟩ := Option.map_eq_some_iff.mp found
    cases same
    exact encloses_object fun entry present => List.mem_of_mem_filter present
  · obtain ⟨_, -, same⟩ := Option.map_eq_some_iff.mp found
    cases same
    exact encloses_array fun item present => List.mem_cons_of_mem _ present
  · cases found

theorem encloses_members {d : Document} {members : Members} (found : d.members? = some members) :
    d.Encloses members := by
  unfold members? at found
  split at found
  · cases found
    exact encloses_object fun _ present => present
  · cases found
    exact encloses_array fun _ present => present
  · cases found

theorem Role.encloses {role : Role} {d : Document} {kind : Kind} {members : Members}
    (unpacked : role.unpack? d = some (kind, members)) : d.Encloses members := by
  cases role with
  | expression | statement =>
    obtain ⟨tagged, found, same⟩ := Option.map_eq_some_iff.mp unpacked
    cases same
    exact encloses_tagged found
  | _ =>
    obtain ⟨_, found, same⟩ := Option.map_eq_some_iff.mp unpacked
    cases same
    exact encloses_members found

theorem Content.nesting_parts (content : Content) {found : List Document} {bound : Nat}
    (shallow : ∀ part ∈ found, part.nesting < bound) : ∀ child ∈ content.parts found, child.2.nesting < bound := by
  intro child present
  cases content with
  | scalar => cases present
  | place role =>
    obtain ⟨d, part, rfl⟩ := List.mem_map.mp present
    exact shallow d part
  | list role =>
    obtain ⟨d, listed, rfl⟩ := List.mem_map.mp present
    obtain ⟨part, inside, item⟩ := List.mem_flatMap.mp listed
    have outer := shallow part inside
    cases part with
    | array items =>
      have inner := itemsNesting_le_iff.mp (Nat.le_refl (itemsNesting items)) d item
      rw [nesting] at outer
      exact Nat.lt_of_le_of_lt (Nat.le_trans inner (Nat.le_add_left ..)) outer
    | _ => cases item

theorem exists_of_forall₂ {α β : Type} {R : α → β → Prop} {as : List α} {bs : List β} (each : List.Forall₂ R as bs)
    {b : β} (present : b ∈ bs) : ∃ a ∈ as, R a b := by
  induction each with
  | nil => cases present
  | cons first _ ih =>
    rcases List.mem_cons.mp present with rfl | later
    · exact ⟨_, List.mem_cons_self, first⟩
    · obtain ⟨a, member, related⟩ := ih later
      exact ⟨a, List.mem_cons_of_mem _ member, related⟩

-- The document of a field goes no deeper than what it was read from, if that is so of its children.
theorem Value.nesting_toDocument_le {value : Value} {content : Content} (suits : value.Suits content) {keyed : Bool}
    {found : List Document} (read : value.ReadFrom Decoded keyed found) {bound slack : Nat}
    (shallow : ∀ part ∈ found, part.nesting ≤ bound)
    (children : ∀ child ∈ content.parts found, ∀ node, child.1.decode child.2 = some node →
      node.toDocument.nesting ≤ child.2.nesting + slack)
    (listed : ∀ inner, content = .list inner → found = [] → 1 ≤ bound + slack) :
    value.toDocument.nesting ≤ bound + slack := by
  cases suits with
  | double value =>
    have flat : value.toDocument.nesting = 0 := by
      unfold Binary64.toDocument
      split <;> rfl
    exact flat ▸ Nat.zero_le _
  | @place child role fits =>
    cases child with
    | none => exact Nat.zero_le _
    | some node =>
      obtain ⟨d, rfl, decoded⟩ := read
      have below := shallow d (List.mem_singleton_self d)
      rw [Decoded, fits node rfl] at decoded
      have deep : node.toDocument.nesting ≤ d.nesting + slack :=
        children (role, d) (List.mem_singleton_self _) node decoded
      rw [Value.toDocument]
      omega
  | @list nodes role fits =>
    rcases read with ⟨rfl, rfl⟩ | ⟨items, rfl, each⟩
    · exact listed role rfl rfl
    · have below := shallow _ (List.mem_singleton_self _)
      rw [nesting] at below
      have deep : itemsNesting (nodes.map Node.toDocument) ≤ itemsNesting items + slack := by
        apply itemsNesting_le_iff.mpr
        intro item present
        obtain ⟨node, member, rfl⟩ := List.mem_map.mp present
        obtain ⟨d, item, decoded⟩ := exists_of_forall₂ each member
        rw [Decoded, fits node member] at decoded
        have part : (role, d) ∈ (Content.list role).parts [.array items] := by
          simpa [Content.parts, Document.listed] using item
        have deep : node.toDocument.nesting ≤ d.nesting + slack := children (role, d) part node decoded
        have inner := itemsNesting_le_iff.mp (Nat.le_refl (itemsNesting items)) d item
        omega
      rw [Value.toDocument, nesting]
      omega
  | _ => exact Nat.zero_le _

-- One bracket more is needed only for lists that are left out.
theorem nesting_toDocument_le {slack : Nat} {role : Role} {d : Document} {node : Node}
    (decoded : role.decode d = some node) (allowed : 1 ≤ slack ∨ Everywhere Role.Lists role d) :
    node.toDocument.nesting ≤ d.nesting + slack := by
  induction depth : d.nesting using Nat.strongRecOn generalizing d role node with
  | ind n ih =>
    subst depth
    obtain ⟨rfl, members, unpacked, -, fit⟩ := (Role.decode_iff _ _ _).mp decoded
    obtain ⟨opened, inside⟩ := Role.encloses unpacked
    have fields : entriesNesting node.entries ≤ d.nesting - 1 + slack := by
      apply entriesNesting_le_iff.mpr
      intro entry present
      rcases List.mem_append.mp present with tag | field
      · split at tag
        · cases List.mem_singleton.mp tag
          exact Nat.zero_le _
        · cases tag
      · obtain ⟨⟨name, value⟩, member, rfl⟩ := List.mem_map.mp field
        obtain ⟨index, found⟩ := List.getElem?_of_mem member
        obtain ⟨content, slot, suits⟩ := node.record_follows.slot found
        have read := Members.fit_iff.mp fit index name value found
        rw [Nat.zero_add] at read
        have below : ∀ part ∈ members.lookup index name, part.nesting < d.nesting :=
          fun part present => inside part (Members.mem_all_of_lookup present)
        apply Value.nesting_toDocument_le suits read
        · intro part present
          exact Nat.le_sub_one_of_lt (below part present)
        · intro child part node' decoded'
          have less := content.nesting_parts below child part
          refine ih child.2.nesting less decoded' ?_ rfl
          apply allowed.imp_right
          intro everywhere
          cases everywhere with
          | intro _ children => exact children child (Role.mem_children unpacked slot part)
        · intro inner list none
          rcases allowed with more | everywhere
          · omega
          · cases everywhere with
            | intro here _ =>
              subst list
              exact absurd none (here _ _ unpacked index name inner slot)
    rw [Node.toDocument_eq, nesting]
    omega

-- What was accepted is printed so that it is read as the same tree, unless its doubles or its depth forbid it; the
-- depth grows by one bracket at most.
theorem Statement.parse_text_of_parse {source : String} {t : Statement} (accepted : parse source = .ok t) :
    (∃ d, ofText? source = some d ∧
      (t.doubles = [] →
        bracketDepth source ≤ 126 ∨ bracketDepth source ≤ 127 ∧ Everywhere Role.Lists .statement d →
        parse t.text = .ok t)) ∧
    bracketDepth t.text ≤ bracketDepth source + 1 := by
  obtain ⟨d, spelled⟩ := ofText?_of_parse accepted
  have decoded : Role.statement.decode d = some (.statement t) := by
    have read := congrArg Except.toOption accepted
    rw [toOption_parse_text spelled] at read
    split at read
    · cases read
    · exact (decoded_iff d t).mp read
  have depth := bracketDepth_of_ofText? spelled
  have printed : bracketDepth t.text = (Node.statement t).toDocument.nesting := bracketDepth_text t.toDocument
  have deeper := nesting_toDocument_le decoded (.inl (Nat.le_refl 1))
  refine ⟨⟨d, spelled, ?_⟩, by omega⟩
  intro plain allowed
  have restored : ∀ x ∈ t.doubles, x.reparse = some x := by
    rw [plain]
    exact List.forall_mem_nil _
  apply parse_text_of_restored restored
  rcases allowed with shallow | ⟨within, listed⟩
  · rw [nestingLimit]
    omega
  · have level : (Node.statement t).toDocument.nesting ≤ d.nesting + 0 := nesting_toDocument_le decoded (.inr listed)
    rw [nestingLimit]
    omega

-- A block by place around a block without its list, whose text comes out one bracket deeper.
theorem Statement.parse_text_of_parse_unlisted :
    let d : Document := .array [.string "Block", .array [.object [("kind", .string "Block")]]]
    let t : Statement := .block [.block []]
    parse d.text = .ok t ∧ t.doubles = [] ∧ bracketDepth d.text ≤ 126 ∧ parse t.text = .ok t ∧
      bracketDepth t.text ≤ bracketDepth d.text + 1 ∧ bracketDepth d.text + 1 ≤ bracketDepth t.text := by
  intro d t
  have spelled : ofText? d.text = some d := by
    refine ofText?_text_of_reread ?_ (by decide)
    simp only [d, reread_object, reread_array, List.mapM_cons, List.mapM_nil, readEntry, reread_string]
    rfl
  have accepted : parse d.text = .ok t := by
    apply eq_ok_of_toOption
    rw [toOption_parse_text spelled]
    rfl
  have depth : bracketDepth d.text = 3 := bracketDepth_text d
  have printed : bracketDepth t.text = 4 := bracketDepth_text t.toDocument
  obtain ⟨⟨_, -, again⟩, deeper⟩ := parse_text_of_parse accepted
  refine ⟨accepted, rfl, by omega, again rfl (.inl (by omega)), deeper, by omega⟩

end Treeline
