import Mathlib.Logic.Relation
import Treeline.Proofs.Decoding
import Treeline.Proofs.Locality

namespace Treeline

open Document

-- The grammar of trees spelled by names, and that documents are read by it.

-- The kind that the tags of an object give it, in each role.
def Role.kind? (tags : List Document) : Role → Option Kind
  | .expression => (onlyTagged? ExpressionKind tags).map .expression
  | .comparison => some (.expression .comparison)
  | .assignment => some (.statement .assignment)
  | .variableDecl => some (.statement .variableDecl)
  | .block => some (.statement .block)
  | .statement => (onlyTagged? StatementKind tags).map .statement

theorem valuesOf_without {name other : String} (differs : name ≠ other) (entries : List (String × Document)) :
    valuesOf name (without other entries) = valuesOf name entries := by
  unfold valuesOf without
  rw [List.filter_filter]
  congr 2
  funext entry
  by_cases same : entry.1 = name <;> simp [same, differs]

-- Objects, with the tag among the members or without it.
theorem Role.unpack?_object (role : Role) (entries : List (String × Document)) :
    role.unpack? (.object entries) = (role.kind? (valuesOf tagKey entries)).map fun kind =>
      (kind, .entries (if role.isTagged then without tagKey entries else entries)) := by
  cases role with
  | expression | statement =>
    simp only [Role.unpack?, Role.kind?, tagged?, Option.map_map]
    rfl
  | _ => rfl

theorem Role.unpack?_object_eq_some_iff {role : Role} {entries : List (String × Document)} {kind : Kind}
    {members : Members} :
    role.unpack? (.object entries) = some (kind, members) ↔
      role.kind? (valuesOf tagKey entries) = some kind ∧
        members = .entries (if role.isTagged then without tagKey entries else entries) := by
  rw [unpack?_object, Option.map_eq_some_iff]
  simp only [Prod.mk.injEq]
  constructor
  · rintro ⟨found, tagged, rfl, rfl⟩
    exact ⟨tagged, rfl⟩
  · rintro ⟨tagged, rfl⟩
    exact ⟨kind, tagged, rfl, rfl⟩

-- No field is called like the tag, so it is found whether or not the tag is left out.
theorem Role.lookup_members (role : Role) {name : String} (field : name ≠ tagKey) (index : Nat)
    (entries : List (String × Document)) :
    (Members.entries (if role.isTagged then without tagKey entries else entries)).lookup index name =
      valuesOf name entries := by
  split
  · exact valuesOf_without field entries
  · rfl

theorem Node.name_ne_tagKey (node : Node) {index : Nat} {name : String} {value : Value}
    (field : node.record[index]? = some (name, value)) : name ≠ tagKey := by
  obtain ⟨content, slot, -⟩ := node.record_follows.slot field
  exact node.kind.tagKey_not_mem_layout _ (List.mem_of_getElem? slot)

theorem Role.decode_object_iff {role : Role} {entries : List (String × Document)} {node : Node} :
    role.decode (.object entries) = some node ↔
      node.role = role ∧ role.kind? (valuesOf tagKey entries) = some node.kind ∧
        ∀ field ∈ node.record, field.2.ReadFrom Decoded true (valuesOf field.1 entries) := by
  rw [decode_iff, Unpacks]
  apply and_congr_right'
  constructor
  · rintro ⟨members, unpacked, -, fit⟩
    obtain ⟨tagged, rfl⟩ := unpack?_object_eq_some_iff.mp unpacked
    refine ⟨tagged, ?_⟩
    rintro ⟨name, value⟩ present
    obtain ⟨index, field⟩ := List.getElem?_of_mem present
    have read := Members.fit_iff.mp fit index name value field
    rwa [lookup_members role (node.name_ne_tagKey field)] at read
  · rintro ⟨tagged, fields⟩
    refine ⟨_, unpack?_object_eq_some_iff.mpr ⟨tagged, rfl⟩, trivial, ?_⟩
    apply Members.fit_iff.mpr
    intro index name value field
    rw [lookup_members role (node.name_ne_tagKey field)]
    exact fields (name, value) (List.mem_of_getElem? field)

theorem onlyTagged?_iff {κ : Type} [Vocabulary κ] (faithful : Vocabulary.Faithful κ) {tags : List Document}
    (words : ∀ d ∈ tags, ∃ word, d = .string word) {kind : κ} :
    onlyTagged? κ tags = some kind ↔ tags = [.string (Vocabulary.spell kind)] := by
  match tags with
  | [] => simp [onlyTagged?]
  | [tag] =>
    obtain ⟨name, rfl⟩ := words tag (List.mem_singleton_self tag)
    refine (toOption_readWordOf_iff faithful).trans ?_
    simp
  | _ :: _ :: _ => simp [onlyTagged?]

theorem Role.kind?_iff {tags : List Document} (words : ∀ d ∈ tags, ∃ word, d = .string word) (node : Node) :
    node.role.kind? tags = some node.kind ↔ (node.role.isTagged = true → tags = [.string node.kind.tag]) := by
  cases node with
  | expression e =>
    refine Iff.trans ?_ (forall_prop_of_true rfl).symm
    refine Iff.trans ?_ (onlyTagged?_iff expressionKind_faithful words)
    exact (map_eq_some_wrap_iff fun _ _ => Kind.expression.inj).symm
  | statement t =>
    refine Iff.trans ?_ (forall_prop_of_true rfl).symm
    refine Iff.trans ?_ (onlyTagged?_iff statementKind_faithful words)
    exact (map_eq_some_wrap_iff fun _ _ => Kind.statement.inj).symm
  | _ => exact iff_of_true rfl (by rintro ⟨⟩)

-- The name of no field of the object, and not the name of its tag.
def Role.Unknown (role : Role) (entries : List (String × Document)) (name : String) : Prop :=
  (role.isTagged = true → name ≠ tagKey) ∧
    ∀ kind, role.kind? (valuesOf tagKey entries) = some kind → ∀ slot ∈ kind.layout, slot.1 ≠ name

inductive Rewords : Role → Document → Document → Prop
  | reordered {role : Role} {entries entries' : List (String × Document)} (same : entries.Perm entries') :
      Rewords role (.object entries) (.object entries')
  | extended {role : Role} {entries : List (String × Document)} {name : String} (unknown : role.Unknown entries name)
      (value : Document) : Rewords role (.object entries) (.object ((name, value) :: entries))
  | emptied {role inner : Role} {entries : List (String × Document)} {name : String} {kind : Kind}
      (tagged : role.kind? (valuesOf tagKey entries) = some kind) (slot : (name, .place inner) ∈ kind.layout)
      (absent : valuesOf name entries = []) : Rewords role (.object entries) (.object ((name, .null) :: entries))
  | child {role inner : Role} {entries : List (String × Document)} {name : String} {kind : Kind} {d d' : Document}
      (tagged : role.kind? (valuesOf tagKey entries) = some kind) (slot : (name, .place inner) ∈ kind.layout)
      (reworded : Rewords inner d d') : Rewords role (.object ((name, d) :: entries)) (.object ((name, d') :: entries))
  | item {role inner : Role} {entries : List (String × Document)} {name : String} {kind : Kind} {d d' : Document}
      {before after : List Document} (tagged : role.kind? (valuesOf tagKey entries) = some kind)
      (slot : (name, .list inner) ∈ kind.layout) (reworded : Rewords inner d d') :
      Rewords role (.object ((name, .array (before ++ d :: after)) :: entries))
        (.object ((name, .array (before ++ d' :: after)) :: entries))

-- What is found before and after is read as the same values.
def Content.Alike (content : Content) (found found' : List Document) : Prop :=
  ∀ value : Value, value.Suits content → (value.ReadFrom Decoded true found ↔ value.ReadFrom Decoded true found')

theorem valuesOf_perm {entries entries' : List (String × Document)} (same : entries.Perm entries') (name : String) :
    (valuesOf name entries).Perm (valuesOf name entries') :=
  (same.filter _).map _

-- Only objects are reworded, and their tags stay as they are.
theorem Rewords.objects {role : Role} {d d' : Document} (reworded : Rewords role d d') :
    ∃ entries entries', d = .object entries ∧ d' = .object entries' ∧
      (role.isTagged = true → (valuesOf tagKey entries).Perm (valuesOf tagKey entries')) := by
  have unchanged : ∀ {name : String} {entries : List (String × Document)} (d : Document), name ≠ tagKey →
      valuesOf tagKey ((name, d) :: entries) = valuesOf tagKey entries := fun _ differs => valuesOf_cons_of_ne differs
  cases reworded with
  | reordered same => exact ⟨_, _, rfl, rfl, fun _ => valuesOf_perm same tagKey⟩
  | extended unknown value =>
    refine ⟨_, _, rfl, rfl, ?_⟩
    intro tagged
    rw [unchanged value (unknown.1 tagged)]
  | @emptied _ _ _ _ kind _ slot =>
    refine ⟨_, _, rfl, rfl, ?_⟩
    intro _
    rw [unchanged _ (kind.tagKey_not_mem_layout _ slot)]
  | @child _ _ _ _ kind _ _ _ slot =>
    refine ⟨_, _, rfl, rfl, ?_⟩
    intro _
    rw [unchanged _ (kind.tagKey_not_mem_layout _ slot), unchanged _ (kind.tagKey_not_mem_layout _ slot)]
  | @item _ _ _ _ kind _ _ _ _ _ slot =>
    refine ⟨_, _, rfl, rfl, ?_⟩
    intro _
    rw [unchanged _ (kind.tagKey_not_mem_layout _ slot), unchanged _ (kind.tagKey_not_mem_layout _ slot)]

namespace Content

variable {role : Role} {d d' : Document} {rest : List Document}

end Content

end Treeline
