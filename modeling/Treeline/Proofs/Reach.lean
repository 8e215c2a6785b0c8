import Treeline.Proofs.Children
import Treeline.Proofs.Reencoding
import Treeline.Proofs.Totals
import Treeline.Proofs.Tracing

namespace Treeline

open Document

-- How deep a tree can be that was read from a text: every node took a bracket of its own, so neither the lines that are
-- printed of it nor the depths that are counted go further than the brackets of the text.

-- The tree finds room in so many brackets: one for each node on the way down, and for parameters that of their list and
-- their own.
inductive Outline.Fits : Nat → Outline → Prop
  | hole (room : Nat) (missing : Missing) : Fits room (.hole missing)
  | node {room : Nat} {parent : Node} {children : List Outline} (listed : parent.parameters ≠ [] → 2 ≤ room)
      (below : ∀ child ∈ children, Fits room child) : Fits (room + 1) (.node parent children)

theorem Outline.Fits.mono {outline : Outline} {room more : Nat} (fits : outline.Fits room) (enough : room ≤ more) :
    outline.Fits more := by
  induction fits generalizing more with
  | hole room missing => exact .hole more missing
  | node listed _ ih =>
    cases more with
    | zero => cases enough
    | succ more =>
      have less := Nat.le_of_succ_le_succ enough
      exact .node (fun some => Nat.le_trans (listed some) less) fun child present => ih child present less

-- What was read into a tree.

-- The brackets between a node and the children that one of its fields holds.
def Value.brackets : Value → Nat
  | .list _ => 1
  | _ => 0

theorem Value.exists_read {value : Value} {keyed : Bool} {found : List Document}
    (read : value.ReadFrom Decoded keyed found) {bound : Nat} (shallow : ∀ part ∈ found, part.nesting < bound)
    {inner : Node} (present : inner ∈ value.nodes) :
    ∃ d, Decoded d inner ∧ d.nesting + value.brackets < bound := by
  cases value with
  | place child =>
    cases child with
    | none => cases present
    | some node =>
      cases List.mem_singleton.mp present
      obtain ⟨d, rfl, decoded⟩ := read
      exact ⟨d, decoded, shallow d (List.mem_singleton_self d)⟩
  | list nodes =>
    rcases read with ⟨-, rfl⟩ | ⟨items, rfl, each⟩
    · cases present
    · obtain ⟨d, item, decoded⟩ := exists_of_forall₂ each present
      have outer := shallow _ (List.mem_singleton_self _)
      have within := itemsNesting_le_iff.mp (Nat.le_refl (itemsNesting items)) d item
      rw [nesting] at outer
      refine ⟨d, decoded, ?_⟩
      rw [Value.brackets]
      omega
  | _ => cases present

theorem Role.exists_read {role : Role} {d : Document} {node : Node} (decoded : role.decode d = some node)
    {name : String} {value : Value} (field : (name, value) ∈ node.record) {inner : Node}
    (present : inner ∈ value.nodes) : ∃ d', Decoded d' inner ∧ d'.nesting + value.brackets < d.nesting := by
  obtain ⟨-, members, unpacked, -, fit⟩ := (Role.decode_iff _ _ _).mp decoded
  obtain ⟨-, inside⟩ := Role.encloses unpacked
  obtain ⟨index, found⟩ := List.getElem?_of_mem field
  have read := Members.fit_iff.mp fit index name value found
  exact Value.exists_read read (fun part held => inside part (Members.mem_all_of_lookup held)) present

theorem Node.record_parameters {node : Node} (some : node.parameters ≠ []) :
    ("parameters", .list (node.parameters.map .variableDecl)) ∈ node.record := by
  cases node with
  | statement s =>
    cases s with
    | functionDecl returnType name parameters body => simp [Node.record, Statement.record, Node.parameters]
    | _ => exact absurd rfl some
  | _ => exact absurd rfl some

-- A tree finds room in the brackets of the document that it was read from.
theorem fits_of_decoded {role : Role} {d : Document} {node : Node} (decoded : role.decode d = some node) :
    node.outline.Fits d.nesting := by
  induction depth : d.nesting using Nat.strongRecOn generalizing d role node with
  | ind n ih =>
    subst depth
    obtain ⟨-, members, unpacked, -⟩ := (Role.decode_iff _ _ _).mp decoded
    obtain ⟨opened, -⟩ := Role.encloses unpacked
    obtain ⟨room, depth⟩ := Nat.exists_eq_add_one_of_ne_zero (Nat.ne_of_gt opened)
    rw [node.outline_eq, depth]
    apply Outline.Fits.node
    · intro some
      obtain ⟨v, vs, parameters⟩ := List.exists_cons_of_ne_nil some
      have first : Node.variableDecl v ∈ (Value.list (node.parameters.map .variableDecl)).nodes := by
        rw [parameters]
        exact List.mem_cons_self
      obtain ⟨d', inside, deeper⟩ := Role.exists_read decoded (Node.record_parameters some) first
      obtain ⟨-, _, unpacked', -⟩ := (Role.decode_iff _ _ _).mp inside
      have opened' := (Role.encloses unpacked').1
      rw [Value.brackets] at deeper
      omega
    · intro child present
      rcases node.shows_children.hole_or_outline present with ⟨missing, rfl⟩ | ⟨inner, member, rfl⟩
      · exact .hole room missing
      · obtain ⟨⟨name, value⟩, field, held⟩ := List.mem_flatMap.mp member
        obtain ⟨d', inside, deeper⟩ := Role.exists_read decoded field held
        have less : d'.nesting < d.nesting := Nat.lt_of_le_of_lt (Nat.le_add_right ..) deeper
        exact (ih d'.nesting less inside rfl).mono (by omega)

-- What is printed of a tree.

def Trace.Below (bound : Nat) (trace : Trace) : Prop := ∀ line ∈ trace.lines, line.level < bound

namespace Trace.Below

variable {bound : Nat}

theorem silent {trace : Trace} (none : trace.lines = []) : Below bound trace := by
  rw [Below, none]
  exact List.forall_mem_nil _

theorem line {level : Nat} (below : level < bound) (text : String) : Below bound (.line level text) :=
  List.forall_mem_singleton.mpr below

theorem append {first second : Trace} (one : Below bound first) (two : Below bound second) :
    Below bound (first ++ second) := by
  obtain ⟨lines, missing⟩ := first
  cases missing with
  | none => exact List.forall_mem_append.mpr ⟨one, two⟩
  | some missing => exact one

theorem mono {more : Nat} {trace : Trace} (below : Below bound trace) (enough : bound ≤ more) : Below more trace :=
  fun line member => Nat.lt_of_lt_of_le (below line member) enough

theorem optional {level : Nat} (below : level < bound) (text : Option String) :
    Below bound (optionalTrace (.line level) text) := by
  cases text with
  | none => exact silent rfl
  | some text => exact line below text

theorem parameters {level : Nat} {vs : List Variable} (below : vs ≠ [] → level + 1 < bound) :
    Below bound (parametersTrace level vs) := by
  unfold Below
  rw [lines_parametersTrace]
  cases vs with
  | nil => exact List.forall_mem_nil _
  | cons v vs =>
    have deepest := below (List.cons_ne_nil v vs)
    intro line member
    rcases List.mem_cons.mp member with rfl | listed
    · exact Nat.lt_of_succ_lt deepest
    · obtain ⟨_, -, rfl⟩ := List.mem_map.mp listed
      exact deepest

end Trace.Below

open Trace (Below)

-- Before the first child of a node stands no marker, unless all children are there.
theorem Node.unmarked_or_whole {parent : Node} {children : List Outline}
    (own : parent.outline = .node parent children) :
    parent.kind.markers.head?.join = none ∨ ∀ missing, .hole missing ∉ children := by
  cases parent with
  | expression e =>
    cases e with
    | call callee arguments =>
      have arguments_eq : Expression.outlines arguments = children := (Outline.node.inj own).2
      refine .inr ?_
      intro missing present
      rw [← arguments_eq, Expression.outlines_eq_map] at present
      obtain ⟨e, -, same⟩ := List.mem_map.mp present
      exact Node.outline_ne_hole (.expression e) missing same
    | _ => exact .inl rfl
  | statement s => cases s <;> exact .inl rfl
  | _ => exact .inl rfl

namespace Outline

theorem below_traceList {ancestors : List Node} {level bound : Nat} {children : List Outline}
    (each : ∀ child ∈ children, Below bound (child.trace ancestors level)) (above : level < bound)
    (markers : List (Option String)) : Below bound (traceList ancestors level markers children) := by
  induction children generalizing markers with
  | nil => exact .silent rfl
  | cons child children ih =>
    obtain ⟨first, others⟩ := List.forall_mem_cons.mp each
    exact (Below.optional above _).append (first.append (ih others _))

-- A marker is printed only if there is a child at its level, before it or behind it.
theorem below_children {ancestors : List Node} {level room : Nat} {children : List Outline}
    {markers : List (Option String)} (fits : ∀ child ∈ children, child.Fits room)
    (each : ∀ child ∈ children, Below (level + room) (child.trace ancestors level))
    (unmarked : markers.head?.join = none ∨ ∀ missing, .hole missing ∉ children) :
    Below (level + room) (traceList ancestors level markers children) := by
  cases children with
  | nil => exact .silent rfl
  | cons child children =>
    cases child with
    | node parent inner =>
      cases fits _ List.mem_cons_self with
      | node => exact below_traceList each (by omega) markers
    | hole missing =>
      rcases unmarked with none | whole
      · rw [traceList_cons, none]
        exact .silent rfl
      · exact absurd List.mem_cons_self (whole missing)

theorem Fits.below_trace {outline : Outline} {room : Nat} (fits : outline.Fits room) (proper : outline.Proper)
    (ancestors : List Node) (level : Nat) : Below (level + room) (outline.trace ancestors level) := by
  induction fits generalizing ancestors level with
  | hole room missing => exact .silent rfl
  | @node room parent children listed below ih =>
    cases proper with
    | node own inside =>
      cases parameter : Place.isParameter ⟨parent, ancestors⟩ with
      | true =>
        rw [trace_parameter parameter]
        exact .silent rfl
      | false =>
        have here : level < level + (room + 1) := by omega
        have near : Place.inner level ⟨parent, ancestors⟩ ≤ level + 1 := by
          unfold Place.inner
          split <;> omega
        rw [trace_node parameter]
        refine .append ?_ (.append ?_ ?_)
        · unfold Place.opening
          split
          · exact .silent rfl
          · refine (Below.line here _).append (.parameters fun some => ?_)
            have enough := listed some
            omega
        · refine (below_children below ?_ (Node.unmarked_or_whole own)).mono ?_
          · exact fun child present => ih child present (inside child present) _ _
          · omega
        · unfold Place.closing
          split
          · exact .line here _
          · exact .silent rfl

-- What is counted of a tree.
theorem Fits.depth_lt {outline : Outline} {room : Nat} (fits : outline.Fits room) (ancestors : List Node) :
    ∀ place ∈ outline.places ancestors, place.depth < ancestors.length + room := by
  induction fits generalizing ancestors with
  | hole room missing =>
    intro place member
    cases member
  | @node room parent children listed below ih =>
    intro place member
    rw [places_node] at member
    rcases List.mem_cons.mp member with rfl | inside
    · simp only [Place.depth]
      omega
    · obtain ⟨child, present, held⟩ := List.mem_flatMap.mp inside
      have deep := ih child present (parent :: ancestors) place held
      rw [List.length_cons] at deep
      omega

end Outline

theorem Node.maxDepth_lt {node : Node} {room : Nat} (fits : node.outline.Fits room) {totals : Tally}
    (counted : node.tally = .ok totals) : totals.maxDepth < room := by
  have whole := Node.holes_eq_nil_of_tally counted
  rw [node.tally_eq_gain whole, Node.gain_outline whole] at counted
  cases counted
  have standing : node.places ≠ [] := by
    rw [Node.places, node.outline_eq, Outline.places_node]
    exact List.cons_ne_nil _ _
  obtain ⟨place, member, deepest⟩ := Place.exists_deepest standing
  have inside := fits.depth_lt [] place member
  rw [deepest, List.length_nil, Nat.zero_add] at inside
  exact inside

theorem Statement.decoded_of_parse {source : String} {t : Statement} (accepted : parse source = .ok t) :
    ∃ d, ofText? source = some d ∧ Decoded d (.statement t) := by
  obtain ⟨d, spelled⟩ := ofText?_of_parse accepted
  have read := congrArg Except.toOption accepted
  rw [toOption_parse_text spelled] at read
  split at read
  · cases read
  · exact ⟨d, spelled, (decoded_iff d t).mp read⟩

-- A width that is computed in words of 16 bits or more, as the level times the width of a step.
theorem Line.toNat_width {line : Line} (shallow : line.level ≤ 126) {bits : Nat} (wide : 16 ≤ bits) :
    (BitVec.ofNat bits line.level * BitVec.ofNat bits Line.indentWidth).toNat = line.level * Line.indentWidth := by
  have narrow : Nat.pow 2 16 ≤ Nat.pow 2 bits := Nat.pow_le_pow_right Nat.zero_lt_two wide
  have small : line.level * indentWidth < 0x10000 := by
    rw [indentWidth]
    omega
  rw [← BitVec.ofNat_mul, BitVec.toNat_ofNat]
  exact Nat.mod_eq_of_lt (Nat.lt_of_lt_of_le small narrow)

-- Whatever text is read as a tree, no line of the tree is printed and no node is counted as deep as the brackets of the
-- text go, so the indentation is at most 252 columns. Words of 16 bits are enough to compute it without overflow, and
-- to hold it as the width of a format.
theorem Statement.depth_of_parse {source : String} {t : Statement} (accepted : parse source = .ok t) :
    bracketDepth source ≤ 127 ∧
    (∀ line ∈ (t.render 0).lines, line.level < bracketDepth source ∧ line.level ≤ 126 ∧
      line.level * Line.indentWidth ≤ 252 ∧ ∀ bits, 16 ≤ bits →
        (BitVec.ofNat bits line.level * BitVec.ofNat bits Line.indentWidth).toNat = line.level * Line.indentWidth) ∧
    ∀ totals, (Node.statement t).tally = .ok totals →
      totals.maxDepth < bracketDepth source ∧ totals.maxDepth ≤ 126 := by
  obtain ⟨d, spelled, decoded⟩ := decoded_of_parse accepted
  have shallow : bracketDepth source ≤ 127 := bracketDepth_of_ofText? spelled ▸ nesting_of_ofText? spelled
  have fits : (Node.statement t).outline.Fits (bracketDepth source) :=
    bracketDepth_of_ofText? spelled ▸ fits_of_decoded decoded
  refine ⟨shallow, ?_, ?_⟩
  · intro line printed
    have rendered : t.render 0 = (Node.statement t).outline.trace [] 0 := t.render_eq_trace [] 0
    rw [rendered] at printed
    have below := fits.below_trace (Node.proper_outline _) [] 0 line printed
    rw [Nat.zero_add] at below
    have within : line.level ≤ 126 := by omega
    refine ⟨below, within, ?_, fun bits wide => Line.toNat_width within wide⟩
    rw [Line.indentWidth]
    omega
  · intro totals counted
    have deep := Node.maxDepth_lt fits counted
    exact ⟨deep, Nat.le_of_lt_succ (Nat.lt_of_lt_of_le deep shallow)⟩

-- A return of an expression as deep as texts may go: the last line stands at the last level, and the last node is
-- counted there.
theorem Statement.depth_of_parse_deepest :
    let deepest : Statement := .returning (some (Nat.repeat (fun e => .unary .not (some e)) 125 (.boolean true)))
    parse deepest.text = .ok deepest ∧ bracketDepth deepest.text = 127 ∧
      (∀ line ∈ (deepest.render 0).lines, line.level ≤ 126) ∧ (∃ line ∈ (deepest.render 0).lines, line.level = 126) ∧
      ∃ totals, (Node.statement deepest).tally = .ok totals ∧ totals.maxDepth ≤ 126 ∧ 126 ≤ totals.maxDepth := by
  intro deepest
  have depth : bracketDepth deepest.text = 127 := by
    rw [Statement.text, bracketDepth_text]
    decide +kernel
  have plain : ∀ x ∈ deepest.doubles, x.reparse = some x := by
    have none : deepest.doubles = [] := by decide +kernel
    rw [none]
    exact List.forall_mem_nil _
  have accepted : parse deepest.text = .ok deepest := parse_text_of_restored plain (Nat.le_of_eq depth)
  obtain ⟨-, printed, counted⟩ := depth_of_parse accepted
  have whole : (Node.statement deepest).holes = [] := by decide +kernel
  have tallied := Node.tally_eq_gain whole
  have last : ((deepest.render 0).lines.any fun line => line.level == 126) = true := by decide +kernel
  obtain ⟨line, present, level⟩ := List.any_eq_true.mp last
  refine ⟨accepted, depth, fun line present => (printed line present).2.1, ⟨line, present, beq_iff_eq.mp level⟩, _,
    tallied, (counted _ tallied).2, ?_⟩
  decide +kernel

end Treeline
