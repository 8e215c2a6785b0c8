import Treeline.Proofs.Layout
import Treeline.Proofs.Whole

namespace Treeline

open Document

-- Records as the members of a document hold them, by name or by place, and the fields that are read as such a record.

namespace Document.Members

-- What the members hold for a field, which is told by its place or by its name.
def lookup (index : Nat) (name : String) : Members → List Document
  | .entries es => valuesOf name es
  | .items ds => ds[index]?.toList

def isKeyed : Members → Bool
  | .entries _ => true
  | .items _ => false

-- There are no more items than fields.
def Within (size : Nat) : Members → Prop
  | .entries _ => True
  | .items ds => ds.length ≤ size

end Document.Members

-- A word as the members of a record may spell it: as a string, or as the only key of an object that holds nothing else.
inductive Document.SpellsWord (spelling : String) : Document → Prop
  | string : SpellsWord spelling (.string spelling)
  | key : SpellsWord spelling (.object [(spelling, .null)])
  | emptyKey : SpellsWord spelling (.object [(spelling, .object [])])

-- What is found for a field is read as its value; `child` tells what documents are read as nodes.
def Value.ReadFrom (child : Document → Node → Prop) (keyed : Bool) (found : List Document) : Value → Prop
  | .text value => found = [.string value]
  | .word spelling => ∃ d, found = [d] ∧ d.SpellsWord spelling
  | .boolean value => found = [.boolean value]
  | .integer value => found = [.integer value.toInt]
  | .double value => ∃ d, found = [d] ∧ d.readDouble.toOption = some value
  | .place none => keyed = true ∧ found = [] ∨ found = [.null]
  | .place (some node) => ∃ d, found = [d] ∧ child d node
  | .list nodes => found = [] ∧ nodes = [] ∨ ∃ items, found = [.array items] ∧ List.Forall₂ child items nodes

-- The members hold a record whose first field has the place `index`.
def Document.Members.Fit (child : Document → Node → Prop) (members : Members) : Nat → List (String × Value) → Prop
  | _, [] => True
  | index, (name, value) :: record =>
    value.ReadFrom child members.isKeyed (members.lookup index name) ∧ members.Fit child (index + 1) record

theorem Document.Members.fit_append {child : Document → Node → Prop} {members : Members} {index : Nat}
    {first second : List (String × Value)} :
    members.Fit child index (first ++ second) ↔
      members.Fit child index first ∧ members.Fit child (index + first.length) second := by
  induction first generalizing index with
  | nil => simp [Fit]
  | cons field first ih =>
    have place : index + 1 + first.length = index + (first.length + 1) := by omega
    rw [List.cons_append, Fit, Fit, ih, List.length_cons, place, and_assoc]

-- The node that a document is read as where one of the role is expected.
def Role.decode : Role → Document → Option Node
  | .expression, d => (Expression.ofDocument d).toOption.map .expression
  | .comparison, d => (Comparison.ofDocument d).toOption.map .comparison
  | .assignment, d => (Assignment.ofDocument d).toOption.map .assignment
  | .variableDecl, d => (Variable.ofDocument d).toOption.map .variableDecl
  | .block, d => (Statement.blockOf d).toOption.map .block
  | .statement, d => (Statement.ofDocument d).toOption.map .statement

def Decoded (d : Document) (node : Node) : Prop := node.role.decode d = some node

theorem Role.decode_null (role : Role) : role.decode .null = none := by
  cases role <;> rfl

-- Records, up to which fault is met.

section Records

variable {ρ α β : Type} (reading : Document → ρ)

def Field.ofFound (field : Field ρ α) (keyed : Bool) : List (Part ρ) → Option α
  | [] => if keyed then field.absent else field.beyond
  | [part] => (field.read part).toOption
  | _ => none

def Fields.ofMembers (fields : Fields ρ α) (members : Members) (short : Nat → Fault) (index : Nat) : Option α :=
  match members.body reading with
  | .entries entries => (fields.fromEntries index entries).toOption
  | .items items => (fields.fromItems short index items).toOption

theorem Field.ofFound_keyed (field : Field ρ α) (found : List (Part ρ)) :
    field.ofFound true found = field.ofNamed found :=
  match found with
  | [] | [_] | _ :: _ :: _ => rfl

theorem Field.toOption_fromItems (field : Field ρ α) (short : Nat → Fault) (index : Nat) (items : List (Part ρ)) :
    (field.fromItems short index items).toOption = field.ofFound false items[index]?.toList := by
  unfold Field.fromItems
  cases items[index]? with
  | some part => exact toOption_mapError _ _
  | none => cases beyond : field.beyond <;> simp [Field.ofFound, beyond, Except.toOption]

theorem Fields.ofMembers_one (field : Field ρ α) (members : Members) (short : Nat → Fault) (index : Nat) :
    (Fields.one field).ofMembers reading members short index =
      field.ofFound members.isKeyed ((members.lookup index field.name).map fun d => ⟨d, reading d⟩) := by
  cases members with
  | entries entries =>
    have found : named field.name (parts reading entries) = (valuesOf field.name entries).map fun d => ⟨d, reading d⟩ :=
      named_parts reading field.name entries
    refine (field.toOption_fromEntries index (parts reading entries)).trans ?_
    rw [found]
    exact (field.ofFound_keyed _).symm
  | items items =>
    refine (field.toOption_fromItems short index _).trans ?_
    rw [List.getElem?_map]
    simp only [Members.lookup, Members.isKeyed]
    cases items[index]? <;> rfl

theorem Fields.ofMembers_both {left : Fields ρ α} {right : Fields ρ β} {members : Members} {short : Nat → Fault}
    {index : Nat} {a : α} {b : β} :
    (left.both right).ofMembers reading members short index = some (a, b) ↔
      left.ofMembers reading members short index = some a ∧
        right.ofMembers reading members short (index + left.size) = some b := by
  have joined : ∀ (one : Except Complaint α) (two : Except Complaint β),
      (earliest one two).toOption = some (a, b) ↔ one.toOption = some a ∧ two.toOption = some b := by
    intro one two
    rw [toOption_earliest]
    cases one.toOption <;> cases two.toOption <;> simp
  cases members with
  | entries entries => exact joined _ _
  | items items => exact joined _ _

theorem Fields.ofMembers_map (f : α → β) (fields : Fields ρ α) (members : Members) (short : Nat → Fault)
    (index : Nat) :
    (fields.map f).ofMembers reading members short index = (fields.ofMembers reading members short index).map f := by
  cases members with
  | entries entries => exact toOption_map _ _
  | items items => exact toOption_map _ _

theorem Fields.toOption_read_iff (title : String) (fields : Fields ρ α) (members : Members) (a : α) :
    (fields.read title (members.body reading)).toOption = some a ↔
      members.Within fields.size ∧
        fields.ofMembers reading members (fun index => .invalidLength index (.recordOf title fields.size)) 0 =
          some a := by
  cases members with
  | entries entries =>
    have free : (Members.entries entries).Within fields.size := trivial
    rw [and_iff_right free]
    exact Eq.congr_left (toOption_mapError _ _)
  | items items =>
    have bounded : (Members.items items).Within fields.size ↔ items.length ≤ fields.size := Iff.rfl
    refine (Eq.congr_left (toOption_bind _ _)).trans ?_
    rw [toOption_mapError, List.length_map, bounded, and_comm, Option.bind_eq_some_iff]
    constructor
    · rintro ⟨value, read, rest⟩
      split at rest
      · cases rest
      · next short =>
        cases rest
        exact ⟨read, Nat.le_of_not_lt short⟩
    · rintro ⟨read, enough⟩
      refine ⟨a, read, ?_⟩
      rw [if_neg (Nat.not_lt.mpr enough)]
      rfl

-- Fields describe a record if they are read as what the members hold of it.
structure Fields.Describes (fields : Fields ρ α) (record : α → List (String × Value)) : Prop where
  length : ∀ a, (record a).length = fields.size
  read : ∀ members short index a,
    fields.ofMembers reading members short index = some a ↔ members.Fit Decoded index (record a)

namespace Fields.Describes

variable {reading} {fields left : Fields ρ α} {right : Fields ρ β}

theorem one {field : Field ρ α} {value : α → Value}
    (same : ∀ keyed found a, field.ofFound keyed (found.map fun d => ⟨d, reading d⟩) = some a ↔
      (value a).ReadFrom Decoded keyed found) :
    (Fields.one field).Describes reading fun a => [(field.name, value a)] := by
  refine ⟨fun _ => rfl, ?_⟩
  intro members short index a
  rw [Fields.ofMembers_one, same, Members.Fit, Members.Fit, and_true]

theorem both {record : α → List (String × Value)} {record' : β → List (String × Value)}
    (first : left.Describes reading record) (second : right.Describes reading record') :
    (left.both right).Describes reading fun pair => record pair.1 ++ record' pair.2 := by
  refine ⟨?_, ?_⟩
  · rintro ⟨a, b⟩
    rw [List.length_append, first.length, second.length]
    rfl
  · rintro members short index ⟨a, b⟩
    rw [Fields.ofMembers_both, first.read, second.read, Members.fit_append, first.length]

-- What is made of a record is read just if the record is.
theorem map {record : α → List (String × Value)} (described : fields.Describes reading record) {f : α → β}
    {record' : β → List (String × Value)} (same : ∀ a, record' (f a) = record a) (members : Members)
    (short : Nat → Fault) (index : Nat) (b : β) :
    (fields.map f).ofMembers reading members short index = some b ↔
      (∃ a, f a = b) ∧ members.Fit Decoded index (record' b) := by
  rw [Fields.ofMembers_map, Option.map_eq_some_iff]
  constructor
  · rintro ⟨a, read, rfl⟩
    exact ⟨⟨a, rfl⟩, same a ▸ (described.read members short index a).mp read⟩
  · rintro ⟨⟨a, rfl⟩, fit⟩
    exact ⟨a, (described.read members short index a).mpr (same a ▸ fit), rfl⟩

theorem map_onto {record : α → List (String × Value)} (described : fields.Describes reading record) {f : α → β}
    (onto : ∀ b, ∃ a, f a = b) {record' : β → List (String × Value)} (same : ∀ a, record' (f a) = record a) :
    (fields.map f).Describes reading record' := by
  refine ⟨?_, ?_⟩
  · intro b
    obtain ⟨a, rfl⟩ := onto b
    rw [same]
    exact described.length a
  · intro members short index b
    rw [described.map same]
    exact and_iff_right (onto b)

end Fields.Describes

end Records

-- The fields of each sort.

section Sorts

variable {ρ α : Type} {reading : Document → ρ}

theorem Field.ofFound_required {name : String} {read : Part ρ → Except Fault α} {keyed : Bool} {found : List Document}
    {a : α} :
    (Field.required name read).ofFound keyed (found.map fun d => ⟨d, reading d⟩) = some a ↔
      ∃ d, found = [d] ∧ (read ⟨d, reading d⟩).toOption = some a := by
  match found with
  | [] => cases keyed <;> simp [Field.ofFound, Field.required]
  | [d] => simp [Field.ofFound, Field.required]
  | _ :: _ :: _ => simp [Field.ofFound]

-- A field that only one document is read as each value of.
theorem Fields.describes_exact (name : String) {read : Document → Except Fault α} (value : α → Value)
    (document : α → Document) (exact : ∀ d a, (read d).toOption = some a ↔ d = document a)
    (same : ∀ a keyed found, (value a).ReadFrom Decoded keyed found ↔ found = [document a]) :
    (Fields.one (.required name fun part : Part ρ => read part.document)).Describes reading
      fun a => [(name, value a)] := by
  apply Describes.one
  intro keyed found a
  rw [Field.ofFound_required, same]
  constructor
  · rintro ⟨d, rfl, read⟩
    rw [(exact d a).mp read]
  · rintro rfl
    exact ⟨document a, rfl, (exact _ a).mpr rfl⟩

theorem describes_text (name : String) :
    (textField name : Fields ρ String).Describes reading fun value => [(name, .text value)] := by
  apply Fields.describes_exact name Value.text Document.string
  · intro d value
    cases d <;> simp [readText, Except.toOption]
  · exact fun _ _ _ => Iff.rfl

theorem describes_boolean (name : String) :
    (Fields.one (.required name fun part : Part ρ => part.document.readBoolean)).Describes reading
      fun value => [(name, .boolean value)] := by
  apply Fields.describes_exact name Value.boolean Document.boolean
  · intro d value
    cases d <;> simp [readBoolean, Except.toOption]
  · exact fun _ _ _ => Iff.rfl

theorem toOption_readInteger_iff (d : Document) (value : Int64) :
    d.readInteger.toOption = some value ↔ d = .integer value.toInt := by
  constructor
  · intro read
    cases d with
    | integer n =>
      rw [readInteger] at read
      split at read
      · next bounds =>
        cases read
        rw [Int64.toInt_ofInt_of_le bounds.1 (Int.lt_add_one_of_le bounds.2)]
      · cases read
    | _ => cases read
  · rintro rfl
    exact toOption_readInteger value

theorem describes_integer (name : String) :
    (Fields.one (.required name fun part : Part ρ => part.document.readInteger)).Describes reading
      fun value => [(name, .integer value)] := by
  apply Fields.describes_exact name Value.integer fun value => .integer value.toInt
  · exact toOption_readInteger_iff
  · exact fun _ _ _ => Iff.rfl

theorem describes_double (name : String) :
    (Fields.one (.required name fun part : Part ρ => part.document.readDouble)).Describes reading
      fun value => [(name, .double value)] := by
  apply Fields.Describes.one
  intro keyed found value
  exact Field.ofFound_required

theorem Vocabulary.Faithful.ofText?_iff {κ : Type} [Vocabulary κ] (faithful : Vocabulary.Faithful κ) {name : String}
    {word : κ} : Vocabulary.ofText? κ name = some word ↔ name = Vocabulary.spell word := by
  constructor
  · intro found
    have same := List.find?_some found
    exact (beq_iff_eq.mp same).symm
  · rintro rfl
    exact faithful word

theorem toOption_readWordOf_iff {κ : Type} [Vocabulary κ] (faithful : Vocabulary.Faithful κ) {name : String}
    {word : κ} : (readWordOf κ name).toOption = some word ↔ name = Vocabulary.spell word := by
  rw [← faithful.ofText?_iff, readWordOf]
  cases Vocabulary.ofText? κ name <;> simp [Except.toOption]

theorem toOption_readSymbol_iff {κ : Type} [Vocabulary κ] (faithful : Vocabulary.Faithful κ) (d : Document) (word : κ) :
    (readSymbol κ d).toOption = some word ↔ d.SpellsWord (Vocabulary.spell word) := by
  constructor
  · intro read
    unfold readSymbol at read
    split at read
    · next name =>
      rw [(toOption_readWordOf_iff faithful).mp read]
      exact .string
    · next name value =>
      rw [toOption_bind] at read
      obtain ⟨found, spelled, rest⟩ := Option.bind_eq_some_iff.mp read
      rw [(toOption_readWordOf_iff faithful).mp spelled]
      split at rest
      · cases rest
        exact .key
      · cases rest
        exact .emptyKey
      · cases rest
    · cases read
    · cases read
  · have known : readWordOf κ (Vocabulary.spell word) = .ok word :=
      eq_ok_of_toOption ((toOption_readWordOf_iff faithful).mpr rfl)
    intro spelled
    cases spelled with
    | string => exact congrArg Except.toOption known
    | key =>
      rw [readSymbol, known]
      rfl
    | emptyKey =>
      rw [readSymbol, known]
      rfl

theorem describes_symbol {κ : Type} [Vocabulary κ] (faithful : Vocabulary.Faithful κ) :
    (symbolField κ : Fields ρ κ).Describes reading fun word => [("operator", .word (Vocabulary.spell word))] := by
  apply Fields.Describes.one
  intro keyed found word
  rw [Field.ofFound_required]
  exact exists_congr fun d => and_congr_right fun _ => toOption_readSymbol_iff faithful d word

theorem describes_place (name : String) {read : Part ρ → Except Fault α} (wrap : α → Node)
    (same : ∀ d a, (read ⟨d, reading d⟩).toOption = some a ↔ Decoded d (wrap a)) :
    (Fields.one (.place name read)).Describes reading fun child => [(name, .place (child.map wrap))] := by
  have never : ∀ a, ¬Decoded .null (wrap a) := by
    intro a decoded
    cases (Role.decode_null _).symm.trans decoded
  apply Fields.Describes.one
  intro keyed found child
  match found with
  | [] => cases keyed <;> cases child <;> simp [Field.ofFound, Field.place, Value.ReadFrom]
  | [d] =>
    have filled : (some <$> read ⟨d, reading d⟩).toOption = (read ⟨d, reading d⟩).toOption.map some := toOption_map _ _
    cases d with
    | null => cases child <;> simp [Field.ofFound, Field.place, Value.ReadFrom, Except.toOption, never]
    | _ => cases child <;> simp [Field.ofFound, Field.place, Value.ReadFrom, filled, same]
  | _ :: _ :: _ => cases child <;> simp [Field.ofFound, Value.ReadFrom]

theorem describes_child (reading : Document → ρ) (name : String) {read : Document → Except Fault α} {wrap : α → Node}
    (same : ∀ d a, (read d).toOption = some a ↔ Decoded d (wrap a)) :
    (childField name read).Describes reading fun child => [(name, .place (child.map wrap))] :=
  describes_place name wrap same

theorem mapM_eq_some_iff {β : Type} {read : α → Option β} {items : List α} {found : List β} :
    items.mapM read = some found ↔ List.Forall₂ (fun item value => read item = some value) items found := by
  induction items generalizing found with
  | nil =>
    rw [List.mapM_nil, List.forall₂_nil_left_iff]
    exact Option.some_inj.trans eq_comm
  | cons item items ih =>
    rw [List.mapM_cons, List.forall₂_cons_left_iff]
    simp only [Option.bind_eq_bind, Option.bind_eq_some_iff, Option.pure_def, Option.some.injEq, ih]
    constructor
    · rintro ⟨value, first, values, others, rfl⟩
      exact ⟨value, values, first, others, rfl⟩
    · rintro ⟨value, values, first, others, rfl⟩
      exact ⟨value, first, values, others, rfl⟩

theorem readList_of_other {read : Document → Except Fault α} {d : Document}
    (other : ∀ items, d ≠ .array items) : (d.readList read).toOption = none := by
  cases d with
  | array items => exact absurd rfl (other items)
  | _ => rfl

theorem describes_list (name : String) {read : Part ρ → Except Fault (List α)} {one : Document → Except Fault α}
    (wrap : α → Node) (listed : ∀ d, read ⟨d, reading d⟩ = d.readList one)
    (same : ∀ d a, (one d).toOption = some a ↔ Decoded d (wrap a)) :
    (Fields.one (.list name read)).Describes reading fun children => [(name, .list (children.map wrap))] := by
  apply Fields.Describes.one
  intro keyed found children
  match found with
  | [] => cases keyed <;> simp [Field.ofFound, Field.list, Value.ReadFrom, eq_comm]
  | [d] =>
    by_cases array : ∃ ds, d = .array ds
    · obtain ⟨ds, rfl⟩ := array
      have items : (read ⟨.array ds, reading (.array ds)⟩).toOption = ds.mapM fun d => (one d).toOption :=
        (congrArg Except.toOption (listed (.array ds))).trans (toOption_mapM one)
      have each : (ds.mapM fun d => (one d).toOption) = some children ↔
          List.Forall₂ Decoded ds (children.map wrap) := by
        rw [mapM_eq_some_iff, List.forall₂_map_right_iff]
        simp only [same]
      simp [Field.ofFound, Field.list, Value.ReadFrom, items, each]
    · have none : (read ⟨d, reading d⟩).toOption = none :=
        (congrArg Except.toOption (listed d)).trans (readList_of_other fun ds equal => array ⟨ds, equal⟩)
      simp only [Field.ofFound, Field.list, Value.ReadFrom, List.map_cons, List.map_nil, none]
      constructor
      · rintro ⟨⟩
      · rintro (⟨⟨⟩, -⟩ | ⟨ds, equal, -⟩)
        cases equal
        exact absurd ⟨ds, rfl⟩ array
  | _ :: _ :: _ => simp [Field.ofFound, Value.ReadFrom]

end Sorts

theorem map_eq_some_wrap_iff {α β : Type} {wrap : α → β} (inj : Function.Injective wrap) {found : Option α} {a : α} :
    found = some a ↔ found.map wrap = some (wrap a) := by
  rw [← Option.map_some, (Option.map_injective inj).eq_iff]

-- What is made of the fields of a record is read from the members that fit them, and nothing else is.

theorem Fields.Describes.made {ρ α β : Type} {reading : Document → ρ} {fields : Fields ρ α}
    {record : α → List (String × Value)} (described : fields.Describes reading record) {f : α → β}
    {record' : β → List (String × Value)} (a : α) (same : ∀ a, record' (f a) = record a) {members : Members}
    {short : Nat → Fault} :
    (fields.map f).ofMembers reading members short 0 = some (f a) ↔ members.Fit Decoded 0 (record' (f a)) :=
  (described.map same members short 0 (f a)).trans (and_iff_right ⟨a, rfl⟩)

theorem Fields.kindOf_made {ρ α β κ : Type} {reading : Document → ρ} {fields : Fields ρ α} {f : α → β} {members : Members}
    {short : Nat → Fault} {b : β} (read : (fields.map f).ofMembers reading members short 0 = some b) {kindOf : β → κ}
    {kind : κ} (made : ∀ a, kindOf (f a) = kind) : kindOf b = kind := by
  rw [ofMembers_map] at read
  obtain ⟨a, -, rfl⟩ := Option.map_eq_some_iff.mp read
  exact made a

end Treeline
