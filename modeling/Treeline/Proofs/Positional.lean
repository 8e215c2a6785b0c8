import Treeline.Proofs.Children
import Treeline.Proofs.Grammar
import Treeline.Proofs.Reencoding

namespace Treeline

open Document

-- Records by position: a document may give the fields of any of its records by place instead of by name, and is read as
-- the same tree.

namespace Document

-- The document without its keys: every record is the list of its fields.
def positionalFrom (document : Document) : Option (Body Document) → Document
  | some (.entries entries) => .array (entries.map fun entry => entry.2.reading)
  | some (.items items) => .array (items.map Part.reading)
  | none => document

def positional : Document → Document := fold positionalFrom

theorem positional_array (items : List Document) : (array items).positional = .array (items.map positional) := by
  rw [positional, fold_eq, body?, positionalFrom, List.map_map]
  rfl

theorem positional_object (entries : List (String × Document)) :
    (object entries).positional = .array (entries.map fun entry => entry.2.positional) := by
  rw [positional, fold_eq, body?, positionalFrom, List.map_map]
  rfl

-- The second document is the first with some of its records given by position, and the fields of the others in any
-- order.
inductive Respelled : Document → Document → Prop
  | scalar {d : Document} (flat : d.nesting = 0) : Respelled d d
  | array {items items' : List Document} (each : List.Forall₂ Respelled items items') :
      Respelled (.array items) (.array items')
  | keyed {entries written entries' : List (String × Document)} (keys : entries.map Prod.fst = written.map Prod.fst)
      (each : List.Forall₂ (fun entry entry' => Respelled entry.2 entry'.2) entries written)
      (order : written.Perm entries') : Respelled (.object entries) (.object entries')
  | positional {entries : List (String × Document)} {items : List Document}
      (each : List.Forall₂ (fun entry item => Respelled entry.2 item) entries items) :
      Respelled (.object entries) (.array items)

theorem respelled_positional (d : Document) : Respelled d d.positional := by
  induction d with
  | array items ih =>
    rw [positional_array]
    exact .array (List.forall₂_map_right_iff.mpr (List.forall₂_same.mpr ih))
  | object entries ih =>
    rw [positional_object]
    exact .positional (List.forall₂_map_right_iff.mpr (List.forall₂_same.mpr ih))
  | _ => exact .scalar rfl

theorem forall_mem_iff_of_forall₂ {α β : Type} {R : α → β → Prop} {P : α → Prop} {Q : β → Prop} {as : List α}
    {bs : List β} (each : List.Forall₂ R as bs) (same : ∀ a ∈ as, ∀ b, R a b → (P a ↔ Q b)) :
    (∀ a ∈ as, P a) ↔ ∀ b ∈ bs, Q b := by
  induction each with
  | nil => exact iff_of_true (List.forall_mem_nil _) (List.forall_mem_nil _)
  | cons related _ ih =>
    obtain ⟨first, others⟩ := List.forall_mem_cons.mp same
    rw [List.forall_mem_cons, List.forall_mem_cons, first _ related, ih others]

-- A property that an array or an object has just if there is a level left for it and all its members have the property
-- one level down. Respelling keeps it.
theorem Respelled.iff_of_members (P : Nat → Document → Prop) (allowed : Nat → Prop)
    (arrays : ∀ levels items, P levels (.array items) ↔ allowed levels ∧ ∀ item ∈ items, P (levels - 1) item)
    (objects : ∀ levels entries,
      P levels (.object entries) ↔ allowed levels ∧ ∀ entry ∈ entries, P (levels - 1) entry.2)
    {d d' : Document} (respelled : Respelled d d') (levels : Nat) : P levels d ↔ P levels d' := by
  induction d generalizing d' levels with
  | array items ih =>
    cases respelled with
    | scalar => exact Iff.rfl
    | array each =>
      rw [arrays, arrays]
      exact and_congr_right' (forall_mem_iff_of_forall₂ each fun item present _ related => ih item present related _)
  | object entries ih =>
    cases respelled with
    | scalar => exact Iff.rfl
    | @keyed _ written entries' keys each order =>
      have reordered : (∀ entry ∈ written, P (levels - 1) entry.2) ↔ ∀ entry ∈ entries', P (levels - 1) entry.2 :=
        forall_congr' fun entry => imp_congr_left order.mem_iff
      rw [objects, objects, ← reordered]
      exact and_congr_right' (forall_mem_iff_of_forall₂ each fun entry present _ related => ih entry present related _)
    | positional each =>
      rw [objects, arrays]
      exact and_congr_right' (forall_mem_iff_of_forall₂ each fun entry present _ related => ih entry present related _)
  | _ =>
    cases respelled
    exact Iff.rfl

theorem Respelled.nesting_eq {d d' : Document} (respelled : Respelled d d') : d.nesting = d'.nesting := by
  have same : ∀ levels, d.nesting ≤ levels ↔ d'.nesting ≤ levels := by
    refine respelled.iff_of_members (fun levels d => d.nesting ≤ levels) (fun levels => 1 ≤ levels) ?_ ?_
    · intro levels items
      rw [nesting, ← itemsNesting_le_iff]
      omega
    · intro levels entries
      rw [nesting, ← entriesNesting_le_iff]
      omega
  exact Nat.le_antisymm ((same _).mpr (Nat.le_refl _)) ((same _).mp (Nat.le_refl _))

-- Documents that are read back from their own text, at whatever depth.

theorem reread_array_self_iff (items : List Document) :
    (array items).reread = some (array items) ↔ ∀ item ∈ items, item.reread = some item := by
  have all : items.mapM reread = some items ↔ ∀ item ∈ items, item.reread = some item := by
    rw [mapM_eq_some_iff, List.forall₂_same]
  rw [reread_array, ← all]
  exact (map_eq_some_wrap_iff fun _ _ => Document.array.inj).symm

theorem reread_object_self_iff (entries : List (String × Document)) :
    (object entries).reread = some (object entries) ↔ ∀ entry ∈ entries, entry.2.reread = some entry.2 := by
  have each (entry : String × Document) : readEntry reread entry = some entry ↔ entry.2.reread = some entry.2 := by
    simp [readEntry, Prod.ext_iff]
  have all : entries.mapM (readEntry reread) = some entries ↔ ∀ entry ∈ entries, entry.2.reread = some entry.2 := by
    rw [mapM_eq_some_iff, List.forall₂_same]
    exact forall₂_congr fun entry _ => each entry
  rw [reread_object, ← all]
  exact (map_eq_some_wrap_iff fun _ _ => Document.object.inj).symm

theorem Respelled.reread_self_iff {d d' : Document} (respelled : Respelled d d') :
    d.reread = some d ↔ d'.reread = some d' := by
  refine respelled.iff_of_members (fun _ d => d.reread = some d) (fun _ => True) ?_ ?_ 0
  · intro _ items
    rw [reread_array_self_iff, true_and]
  · intro _ entries
    rw [reread_object_self_iff, true_and]

-- A text spells a document, at whatever depth.
def SpelledBy (d : Document) (source : String) : Prop :=
  ∃ levels rest, readValue (source.toList.length + 1) levels source.toList = .ok (d, rest) ∧ skipBlanks rest = []

theorem SpelledBy.ofText?_eq {d : Document} {source : String} (spelled : d.SpelledBy source)
    (shallow : d.nesting ≤ nestingLimit) : ofText? source = some d := by
  obtain ⟨levels, rest, read, blank⟩ := spelled
  have within := readValue_extend (Nat.le_refl _) read shallow fun _ => endsNumeral_nil
  rw [List.append_nil, List.append_nil] at within
  exact ofText?_of_read within blank

theorem spelledBy_text_of_reread {d : Document} (same : d.reread = some d) : d.SpelledBy d.text := by
  have read := readValue_chars d (Nat.le_succ d.chars.length) d.nesting [] endsNumeral_nil
  rw [List.append_nil, rereadWithin, if_pos (Nat.le_refl _), same] at read
  refine ⟨d.nesting, [], ?_, rfl⟩
  rw [Document.text, String.toList_ofList]
  exact eq_ok_of_toOption read

end Document

-- Nothing of the value is a double, nor of the nodes in it.
structure Value.Exact (value : Value) : Prop where
  own : ∀ x, value ≠ .double x
  nodes : ∀ node ∈ value.nodes, node.outline.doubles = []

theorem Node.double?_of_record (node : Node) {name : String} {x : Binary64}
    (field : (name, Value.double x) ∈ node.record) : node.double? = some x := by
  cases node with
  | expression e =>
    cases e with
    | double y =>
      cases List.mem_singleton.mp field
      rfl
    | _ => simp [Node.record, Expression.record] at field
  | comparison c => simp [Node.record, Comparison.toExpression, Expression.record] at field
  | assignment a => simp [Node.record, Assignment.record] at field
  | variableDecl v => simp [Node.record, Variable.record] at field
  | block b => simp [Node.record, Block.record] at field
  | statement s =>
    cases s <;> simp [Node.record, Statement.record, Assignment.record, Variable.record, Block.record] at field

theorem Node.exact_of_record (node : Node) (plain : node.outline.doubles = []) {field : String × Value}
    (present : field ∈ node.record) : field.2.Exact := by
  rw [node.outline_eq, Outline.doubles_node, List.append_eq_nil_iff, List.flatMap_eq_nil_iff] at plain
  obtain ⟨own, below⟩ := plain
  obtain ⟨name, value⟩ := field
  constructor
  · rintro x rfl
    rw [node.double?_of_record present] at own
    cases own
  · intro child inside
    exact below child.outline (node.shows_children.mem_outlines (Node.mem_children present inside))

-- The document of a tree without doubles is read back from its text.

theorem Value.reread_toDocument {value : Value} (exact : value.Exact)
    (children : ∀ node ∈ value.nodes, node.toDocument.reread = some node.toDocument) :
    value.toDocument.reread = some value.toDocument := by
  cases value with
  | integer value => exact reread_int64 value
  | double x => exact absurd rfl (exact.own x)
  | text | word | boolean => rfl
  | place child =>
    cases child with
    | none => rfl
    | some node => exact children node (List.mem_singleton_self node)
  | list nodes => exact (reread_array_self_iff _).mpr (List.forall_mem_map.mpr children)

theorem Node.reread_toDocument (node : Node) (plain : node.outline.doubles = []) :
    node.toDocument.reread = some node.toDocument := by
  induction node using Node.children_induction with
  | step node ih =>
    rw [Node.toDocument_eq, reread_object_self_iff]
    intro entry present
    rcases List.mem_append.mp present with tag | member
    · split at tag
      · cases List.mem_singleton.mp tag
        rfl
      · cases tag
    · obtain ⟨field, among, rfl⟩ := List.mem_map.mp member
      have exact := node.exact_of_record plain among
      exact Value.reread_toDocument exact fun child inside =>
        ih child (Node.mem_children among inside) (exact.nodes child inside)

-- Where a record is given by name, every field is found once.

theorem valuesOf_of_nodup {entries : List (String × Document)} (distinct : (entries.map Prod.fst).Nodup)
    {name : String} {d : Document} (present : (name, d) ∈ entries) : valuesOf name entries = [d] := by
  induction entries with
  | nil => cases present
  | cons entry entries ih =>
    obtain ⟨key, value⟩ := entry
    obtain ⟨fresh, others⟩ := List.nodup_cons.mp distinct
    rcases List.mem_cons.mp present with same | later
    · cases same
      have none : valuesOf name entries = [] := by
        rw [valuesOf, List.map_eq_nil_iff, List.filter_eq_nil_iff]
        intro entry among same
        exact fresh (List.mem_map.mpr ⟨entry, among, eq_of_beq same⟩)
      rw [valuesOf_cons_self, none]
    · have other : key ≠ name := by
        rintro rfl
        exact fresh (List.mem_map.mpr ⟨(key, d), later, rfl⟩)
      rw [valuesOf_cons_of_ne other]
      exact ih others later

theorem Follows.names_eq {record : List (String × Value)} {layout : List (String × Content)}
    (follows : Follows record layout) : record.map Prod.fst = layout.map Prod.fst := by
  induction follows with
  | nil => rfl
  | cons agree _ ih => rw [List.map_cons, List.map_cons, agree.1, ih]

section Entries

variable {node : Node}

theorem Node.entries_of_tagged (tagged : node.role.isTagged = true) : node.entries =
    (tagKey, .string node.kind.tag) :: node.record.map fun field => (field.1, field.2.toDocument) := by
  rw [Node.entries, tagged]
  rfl

theorem Node.entries_of_untagged (untagged : node.role.isTagged = false) :
    node.entries = node.record.map fun field => (field.1, field.2.toDocument) := by
  rw [Node.entries, untagged]
  rfl

end Entries

theorem Node.nodup_entries (node : Node) : (node.entries.map Prod.fst).Nodup := by
  have names : (node.record.map fun field => (field.1, field.2.toDocument)).map Prod.fst =
      node.kind.layout.map Prod.fst := by
    rw [List.map_map]
    exact node.record_follows.names_eq
  cases tagged : node.role.isTagged with
  | false =>
    rw [Node.entries_of_untagged tagged, names]
    exact node.kind.nodup_layout
  | true =>
    rw [Node.entries_of_tagged tagged, List.map_cons, names]
    refine List.nodup_cons.mpr ⟨?_, node.kind.nodup_layout⟩
    intro tag
    obtain ⟨slot, present, same⟩ := List.mem_map.mp tag
    exact node.kind.tagKey_not_mem_layout slot present same

theorem Respelled.forall₂_valuesOf {entries written : List (String × Document)}
    (each : List.Forall₂ (fun entry entry' => Respelled entry.2 entry'.2) entries written)
    (keys : entries.map Prod.fst = written.map Prod.fst) (name : String) :
    List.Forall₂ Respelled (valuesOf name entries) (valuesOf name written) := by
  induction each with
  | nil => exact .nil
  | @cons entry entry' entries written related _ ih =>
    obtain ⟨key, d⟩ := entry
    obtain ⟨key', d'⟩ := entry'
    obtain ⟨rfl, later⟩ := List.cons.inj keys
    by_cases other : key = name
    · cases other
      rw [valuesOf_cons_self, valuesOf_cons_self]
      exact .cons related (ih later)
    · rw [valuesOf_cons_of_ne other, valuesOf_cons_of_ne other]
      exact ih later

-- An object stands for another with the fields of a record, found under the same names.
theorem Respelled.exists_found {entries written entries' : List (String × Document)}
    (each : List.Forall₂ (fun entry entry' => Respelled entry.2 entry'.2) entries written)
    (keys : entries.map Prod.fst = written.map Prod.fst) (order : written.Perm entries') {name : String} {d : Document}
    (only : valuesOf name entries = [d]) : ∃ d', valuesOf name entries' = [d'] ∧ Respelled d d' := by
  have found := forall₂_valuesOf each keys name
  rw [only] at found
  have same := valuesOf_perm order name
  cases found' : valuesOf name written with
  | nil =>
    rw [found'] at found
    cases found
  | cons d' others =>
    rw [found'] at found same
    cases found with
    | cons related rest =>
      cases rest
      exact ⟨d', (List.singleton_perm.mp same).symm, related⟩

-- A field is read from whatever respells its document, if its children are.
theorem Value.readFrom_of_respelled {value : Value} (exact : value.Exact) {d : Document}
    (respelled : Respelled value.toDocument d)
    (children : ∀ node ∈ value.nodes, ∀ d, Respelled node.toDocument d → Decoded d node) (keyed : Bool) :
    value.ReadFrom Decoded keyed [d] := by
  cases value with
  | text | boolean | integer =>
    cases respelled
    exact rfl
  | word spelling =>
    cases respelled
    exact ⟨_, rfl, .string⟩
  | double x => exact absurd rfl (exact.own x)
  | place child =>
    cases child with
    | none =>
      cases respelled
      exact .inr rfl
    | some node => exact ⟨d, rfl, children node (List.mem_singleton_self node) d respelled⟩
  | list nodes =>
    cases respelled with
    | scalar flat => simp [Value.toDocument, nesting] at flat
    | @array _ items each =>
      rw [List.forall₂_map_left_iff] at each
      have both := (List.forall₂_and_left nodes items).mpr ⟨children, each⟩
      have decoded : List.Forall₂ (fun node d => Decoded d node) nodes items :=
        both.imp fun node d related => related.1 d related.2
      exact .inr ⟨items, rfl, decoded.flip⟩

-- Where a record is given by position, the tag comes first and every field stands at its place.

theorem Role.unpack?_tag (node : Node) (tagged : node.role.isTagged = true) (items : List Document) :
    node.role.unpack? (.array (.string node.kind.tag :: items)) = some (node.kind, .items items) := by
  cases node with
  | expression e =>
    have tag := (toOption_readWordOf_iff expressionKind_faithful).mpr (rfl : e.kind.tag = Vocabulary.spell e.kind)
    exact (Role.unpack?_tagged Kind.expression Kind.expression.inj rfl).mpr (congrArg (Option.map _) tag)
  | statement s =>
    have tag := (toOption_readWordOf_iff statementKind_faithful).mpr (rfl : s.kind.tag = Vocabulary.spell s.kind)
    exact (Role.unpack?_tagged Kind.statement Kind.statement.inj rfl).mpr (congrArg (Option.map _) tag)
  | _ => cases tagged

theorem Role.unpack?_untag (node : Node) (untagged : node.role.isTagged = false) (items : List Document) :
    node.role.unpack? (.array items) = some (node.kind, .items items) := by
  cases node with
  | expression | statement => cases untagged
  | _ => rfl

theorem getElem?_of_forall₂ {α β : Type} {R : α → β → Prop} {as : List α} {bs : List β} (each : List.Forall₂ R as bs)
    {index : Nat} {a : α} (found : as[index]? = some a) : ∃ b, bs[index]? = some b ∧ R a b := by
  induction each generalizing index with
  | nil => cases found
  | cons related _ ih =>
    cases index with
    | zero =>
      cases found
      exact ⟨_, rfl, related⟩
    | succ index => exact ih found

theorem Node.valuesOf_tagKey_of_keyed {node : Node} (tagged : node.role.isTagged = true)
    {written entries' : List (String × Document)} (keys : node.entries.map Prod.fst = written.map Prod.fst)
    (each : List.Forall₂ (fun entry entry' => Respelled entry.2 entry'.2) node.entries written)
    (order : written.Perm entries') : valuesOf tagKey entries' = [.string node.kind.tag] := by
  have tag : (tagKey, .string node.kind.tag) ∈ node.entries := by
    rw [Node.entries_of_tagged tagged]
    exact List.mem_cons_self
  obtain ⟨d, only, related⟩ := Respelled.exists_found each keys order (valuesOf_of_nodup node.nodup_entries tag)
  cases related
  exact only

section Nodes

variable {node : Node} (plain : node.outline.doubles = [])
  (children : ∀ child ∈ node.children, child.outline.doubles = [] →
    ∀ d, Respelled child.toDocument d → Decoded d child)
include plain children

theorem Node.readFrom_of_respelled {field : String × Value} (present : field ∈ node.record) {d : Document}
    (respelled : Respelled field.2.toDocument d) (keyed : Bool) : field.2.ReadFrom Decoded keyed [d] := by
  have exact := node.exact_of_record plain present
  exact Value.readFrom_of_respelled exact respelled
    (fun child inside => children child (Node.mem_children present inside) (exact.nodes child inside)) keyed

-- The items behind the tag.
theorem Node.decoded_of_items {d : Document} {items : List Document}
    (unpacked : node.role.unpack? d = some (node.kind, .items items))
    (each : List.Forall₂ (fun field item => Respelled field.2.toDocument item) node.record items) : Decoded d node := by
  have fields : items.length = node.kind.layout.length := each.length_eq.symm.trans node.record_follows.length_eq
  refine (Role.decode_iff _ _ _).mpr ⟨rfl, .items items, unpacked, Nat.le_of_eq fields, ?_⟩
  apply Members.fit_iff.mpr
  intro index name value found
  obtain ⟨item, place, related⟩ := getElem?_of_forall₂ each found
  have only : (Members.items items).lookup (0 + index) name = [item] := by
    rw [Nat.zero_add, Members.lookup, place]
    rfl
  rw [only]
  exact Node.readFrom_of_respelled plain children (List.mem_of_getElem? found) related false

theorem Node.decoded_of_positional {items : List Document}
    (each : List.Forall₂ (fun entry item => Respelled entry.2 item) node.entries items) :
    Decoded (.array items) node := by
  cases tagged : node.role.isTagged with
  | false =>
    rw [Node.entries_of_untagged tagged, List.forall₂_map_left_iff] at each
    exact Node.decoded_of_items plain children (Role.unpack?_untag node tagged items) each
  | true =>
    rw [Node.entries_of_tagged tagged] at each
    cases each with
    | @cons _ _ _ items tag fields =>
      cases tag
      rw [List.forall₂_map_left_iff] at fields
      exact Node.decoded_of_items plain children (Role.unpack?_tag node tagged items) fields

theorem Node.decoded_of_keyed {written entries' : List (String × Document)}
    (keys : node.entries.map Prod.fst = written.map Prod.fst)
    (each : List.Forall₂ (fun entry entry' => Respelled entry.2 entry'.2) node.entries written)
    (order : written.Perm entries') : Decoded (.object entries') node := by
  refine Role.decode_object_iff.mpr ⟨rfl, ?_, ?_⟩
  · cases tagged : node.role.isTagged with
    | false =>
      cases node with
      | expression | statement => cases tagged
      | _ => rfl
    | true =>
      rw [Node.valuesOf_tagKey_of_keyed tagged keys each order]
      have words : ∀ d ∈ [string node.kind.tag], ∃ word, d = .string word :=
        List.forall_mem_singleton.mpr ⟨_, rfl⟩
      exact (Role.kind?_iff words node).mpr fun _ => rfl
  · intro field present
    have entry : (field.1, field.2.toDocument) ∈ node.entries :=
      List.mem_append_right _ (List.mem_map.mpr ⟨field, present, rfl⟩)
    obtain ⟨d, only, related⟩ := Respelled.exists_found each keys order (valuesOf_of_nodup node.nodup_entries entry)
    rw [only]
    exact Node.readFrom_of_respelled plain children present related true

end Nodes

theorem Node.decoded_of_respelled (node : Node) (plain : node.outline.doubles = []) {d : Document}
    (respelled : Respelled node.toDocument d) : Decoded d node := by
  induction node using Node.children_induction generalizing d with
  | step node ih =>
    have children : ∀ child ∈ node.children, child.outline.doubles = [] →
        ∀ d, Respelled child.toDocument d → Decoded d child :=
      fun child present plain d related => ih child present plain related
    rw [Node.toDocument_eq] at respelled
    cases respelled with
    | scalar flat => simp [nesting] at flat
    | keyed keys each order => exact Node.decoded_of_keyed plain children keys each order
    | positional each => exact Node.decoded_of_positional plain children each

-- A tag is spelled out, so it is no index either.
theorem Node.hasIndexTag_of_respelled (κ : Type) [Vocabulary κ] (node : Node) (tagged : node.role.isTagged = true)
    {d : Document} (respelled : Respelled node.toDocument d) : d.hasIndexTag κ = false := by
  rw [Node.toDocument_eq] at respelled
  cases respelled with
  | scalar flat => simp [nesting] at flat
  | keyed keys each order =>
    rw [hasIndexTag, Node.valuesOf_tagKey_of_keyed tagged keys each order]
    rfl
  | positional each =>
    rw [Node.entries_of_tagged tagged] at each
    cases each with
    | cons tag fields =>
      cases tag
      rfl

theorem Node.positional_toDocument (node : Node) : node.toDocument.positional =
    .array ((if node.role.isTagged then [.string node.kind.tag] else []) ++
      node.record.map fun field => field.2.toDocument.positional) := by
  rw [Node.toDocument_eq, positional_object, Node.entries, List.map_append, List.map_map]
  cases node.role.isTagged <;> rfl

-- A tree without doubles is read from the document that gives all its records by position, and from every document
-- that mixes records by position and by name, as long as the brackets are allowed.
theorem Statement.parse_respelled (t : Statement) (plain : t.doubles = []) :
    (∀ node : Node, node.toDocument.positional =
      .array ((if node.role.isTagged then [.string node.kind.tag] else []) ++
        node.record.map fun field => field.2.toDocument.positional)) ∧
    Respelled t.toDocument t.toDocument.positional ∧
    ∀ d, Respelled t.toDocument d →
      d.nesting = t.toDocument.positional.nesting ∧ d.SpelledBy d.text ∧
      ∀ source, d.SpelledBy source → (parse source = .ok t ↔ d.nesting ≤ 127) := by
  refine ⟨Node.positional_toDocument, respelled_positional _, fun d respelled => ⟨?_, ?_, fun source spelled => ?_⟩⟩
  · exact respelled.nesting_eq.symm.trans (respelled_positional _).nesting_eq
  · exact spelledBy_text_of_reread (respelled.reread_self_iff.mp ((Node.statement t).reread_toDocument plain))
  · constructor
    · intro accepted
      obtain ⟨read, same⟩ := ofText?_of_parse accepted
      obtain ⟨levels, rest, whole, blank⟩ := spelled
      rw [← bracketDepth_of_read whole blank, bracketDepth_of_ofText? same]
      exact nesting_of_ofText? same
    · intro shallow
      have decoded : Decoded d (.statement t) := (Node.statement t).decoded_of_respelled plain respelled
      have named : d.hasIndexTag StatementKind = false :=
        Node.hasIndexTag_of_respelled StatementKind (.statement t) rfl respelled
      apply eq_ok_of_toOption
      rw [toOption_parse_text (spelled.ofText?_eq shallow), named]
      exact (decoded_iff d t).mpr decoded

-- A loop by position, with its condition by name, tag last, and the block of its body by position again.
theorem Statement.parse_respelled_loop :
    let t : Statement := .whileLoop (some (.identifier "x")) (some [.returning none]) none
    let condition : Document := .object [("name", .string "x"), ("kind", .string "Identifier")]
    let body : Document := .array [.array [.array [.string "Return", .null]]]
    let d : Document := .array [.string "WhileLoop", condition, body, .null]
    t.doubles = [] ∧ Respelled t.toDocument d ∧ d.nesting ≤ 127 ∧ parse d.text = .ok t ∧
      t.toDocument.positional =
        .array [.string "WhileLoop", .array [.string "Identifier", .string "x"], body, .null] := by
  intro t condition body d
  have plain : t.doubles = [] := by decide +kernel
  have named : Respelled (.object [("kind", .string "Identifier"), ("name", .string "x")]) condition :=
    .keyed rfl (.cons (.scalar rfl) (.cons (.scalar rfl) .nil)) (.swap ..)
  have returned : Respelled (.object [("kind", .string "Return"), ("expression", .null)])
      (.array [.string "Return", .null]) := .positional (.cons (.scalar rfl) (.cons (.scalar rfl) .nil))
  have respelled : Respelled t.toDocument d :=
    .positional (.cons (.scalar rfl) (.cons named (.cons (.positional (.cons (.array (.cons returned .nil)) .nil))
      (.cons (.scalar rfl) .nil))))
  obtain ⟨-, -, each⟩ := parse_respelled t plain
  obtain ⟨-, spelled, read⟩ := each d respelled
  exact ⟨plain, respelled, by decide +kernel, (read d.text spelled).mpr (by decide +kernel), rfl⟩

end Treeline
