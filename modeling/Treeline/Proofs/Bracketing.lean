import Treeline.Proofs.Gaps
import Treeline.Proofs.Rows

namespace Treeline

-- The rows of blocks are brackets: each row that ends a block belongs to the row that opened it, and where printing
-- stops, the blocks around the place where it stops are the ones left open.

def blockOpening : Bytes := Bytes.ofText (Trace.createPrefix ++ Block.label)

def blockEnding : Bytes := Bytes.ofText (Trace.endPrefix ++ Block.label)

-- How far the first of some rows is indented.
def firstIndent (rows : List Bytes) : Nat := Bytes.leadingSpaces (rows.headD [])

-- Reads rows one by one. An opened block is kept, the innermost first, as all rows from the one that opened it on. The
-- end of a block must be indented like its opening, and every other row more than the openings of all open blocks.
def openBlocks : List (List Bytes) → List Bytes → Option (List (List Bytes))
  | opened, [] => some opened
  | opened, row :: rows =>
    if Bytes.content row = blockEnding then
      match opened with
      | [] => none
      | block :: outer => if firstIndent block = Bytes.leadingSpaces row then openBlocks outer rows else none
    else if opened.all fun block => firstIndent block < Bytes.leadingSpaces row then
      openBlocks (if Bytes.content row = blockOpening then (row :: rows) :: opened else opened) rows
    else none

-- All open blocks are opened above `level`.
def OpenAbove (level : Nat) (opened : List (List Bytes)) : Prop :=
  ∀ block ∈ opened, firstIndent block < Line.indentWidth * level

theorem OpenAbove.mono {level level' : Nat} {opened : List (List Bytes)} (above : OpenAbove level opened)
    (le : level ≤ level') : OpenAbove level' opened :=
  fun block member => Nat.lt_of_lt_of_le (above block member) (Nat.mul_le_mul_left _ le)

theorem leadingSpaces_row (level : Nat) (text : String) :
    Bytes.leadingSpaces (Line.row ⟨level, text⟩) =
      Line.indentWidth * level + Bytes.leadingSpaces (Bytes.ofText text) :=
  Bytes.leadingSpaces_indented ..

theorem content_row (level : Nat) (text : String) :
    Bytes.content (Line.row ⟨level, text⟩) = Bytes.content (Bytes.ofText text) :=
  Bytes.content_indented ..

-- The row of an opening, and that of an end.
abbrev openingRow (level : Nat) : Bytes := Line.row ⟨level, Trace.createPrefix ++ Block.label⟩

abbrev endingRow (level : Nat) : Bytes := Line.row ⟨level, Trace.endPrefix ++ Block.label⟩

theorem leadingSpaces_openingRow (level : Nat) : Bytes.leadingSpaces (openingRow level) = Line.indentWidth * level := by
  have flush : Bytes.leadingSpaces blockOpening = 0 := by decide +kernel
  rw [leadingSpaces_row, ← blockOpening, flush, Nat.add_zero]

theorem leadingSpaces_endingRow (level : Nat) : Bytes.leadingSpaces (endingRow level) = Line.indentWidth * level := by
  have flush : Bytes.leadingSpaces blockEnding = 0 := by decide +kernel
  rw [leadingSpaces_row, ← blockEnding, flush, Nat.add_zero]

theorem firstIndent_opening (level : Nat) (rows : List Bytes) :
    firstIndent (openingRow level :: rows) = Line.indentWidth * level :=
  leadingSpaces_openingRow level

theorem content_openingRow (level : Nat) : Bytes.content (openingRow level) = blockOpening := by
  have flush : Bytes.content blockOpening = blockOpening := by decide +kernel
  rw [content_row, ← blockOpening, flush]

theorem content_endingRow (level : Nat) : Bytes.content (endingRow level) = blockEnding := by
  have flush : Bytes.content blockEnding = blockEnding := by decide +kernel
  rw [content_row, ← blockEnding, flush]

section Scanning

variable {level : Nat} {opened : List (List Bytes)}

theorem all_above {row : Bytes} (above : OpenAbove level opened)
    (le : Line.indentWidth * level ≤ Bytes.leadingSpaces row) :
    (opened.all fun block => firstIndent block < Bytes.leadingSpaces row) = true :=
  List.all_eq_true.mpr fun block member => decide_eq_true (Nat.lt_of_lt_of_le (above block member) le)

-- A text that is no bracket, leading spaces aside.
def NoBracket (text : String) : Prop :=
  Bytes.content (Bytes.ofText text) ≠ blockEnding ∧ Bytes.content (Bytes.ofText text) ≠ blockOpening

instance (text : String) : Decidable (NoBracket text) :=
  inferInstanceAs (Decidable (_ ∧ _))

theorem openBlocks_plain {inner : Nat} {text : String} (plain : NoBracket text) (above : OpenAbove level opened)
    (le : level ≤ inner) (rows : List Bytes) :
    openBlocks opened (Line.row ⟨inner, text⟩ :: rows) = openBlocks opened rows := by
  have indented : Line.indentWidth * level ≤ Bytes.leadingSpaces (Line.row ⟨inner, text⟩) := by
    rw [leadingSpaces_row]
    exact Nat.le_trans (Nat.mul_le_mul_left _ le) (Nat.le_add_right ..)
  rw [openBlocks.eq_def]
  simp only [content_row, if_neg plain.1, if_neg plain.2, all_above above indented, if_true]

theorem openBlocks_opening (above : OpenAbove level opened) (rows : List Bytes) :
    openBlocks opened (openingRow level :: rows) = openBlocks ((openingRow level :: rows) :: opened) rows := by
  have noEnd : blockOpening ≠ blockEnding := by decide +kernel
  have indented := all_above above (Nat.le_of_eq (leadingSpaces_openingRow level).symm)
  rw [openBlocks.eq_def]
  simp only [content_openingRow, if_neg noEnd, indented, if_true]

theorem openBlocks_ending {block : List Bytes} (same : firstIndent block = Line.indentWidth * level)
    (rows : List Bytes) : openBlocks (block :: opened) (endingRow level :: rows) = openBlocks opened rows := by
  rw [openBlocks.eq_def]
  simp only [content_endingRow, leadingSpaces_endingRow, same, if_true]

end Scanning

namespace Trace

-- What a trace does to the blocks that are open before it: it goes through and leaves them as they were, or it stops
-- for something that is missing and leaves some more.
def Leaves (level : Nat) (trace : Trace) : Option (Missing × List (List Bytes)) → Prop
  | none => trace.missing = none ∧
      ∀ opened more, OpenAbove level opened → openBlocks opened (trace.rows ++ more) = openBlocks opened more
  | some (missing, left) => trace.missing = some missing ∧
      ∀ opened, OpenAbove level opened → openBlocks opened trace.rows = some (left ++ opened)

namespace Leaves

variable {level inner : Nat} {trace first second : Trace} {left left' : Option (Missing × List (List Bytes))}

theorem mono (leaves : Leaves inner trace left) (le : level ≤ inner) : Leaves level trace left := by
  cases left with
  | none => exact ⟨leaves.1, fun opened more above => leaves.2 opened more (above.mono le)⟩
  | some left => exact ⟨leaves.1, fun opened above => leaves.2 opened (above.mono le)⟩

theorem empty (level : Nat) : Leaves level .empty none := ⟨rfl, fun _ _ _ => rfl⟩

theorem stop (level : Nat) (missing : Missing) : Leaves level (.stop missing) (some (missing, [])) :=
  ⟨rfl, fun _ _ => rfl⟩

theorem line (level : Nat) {text : String} (plain : NoBracket text) : Leaves level (.line level text) none :=
  ⟨rfl, fun _ more above => openBlocks_plain plain above (Nat.le_refl level) more⟩

theorem optional (level : Nat) {text : Option String} (plain : ∀ inner ∈ text, NoBracket inner) :
    Leaves level (optionalTrace (.line level) text) none := by
  cases text with
  | none => exact empty level
  | some text => exact line level (plain text rfl)

theorem append (one : Leaves level first left) (two : Leaves level second left') :
    Leaves level (first ++ second) (left.or left') := by
  cases left with
  | some left =>
    rw [append_of_missing one.1]
    exact one
  | none =>
    have rows := Trace.rows_append one.1 second
    have missing : (first ++ second).missing = second.missing := by
      rw [missing_append, one.1, Option.none_or]
    cases left' with
    | none =>
      refine ⟨missing.trans two.1, fun opened more above => ?_⟩
      rw [rows, List.append_assoc, one.2 opened _ above, two.2 opened more above]
    | some left' =>
      refine ⟨missing.trans two.1, fun opened above => ?_⟩
      rw [rows, one.2 opened _ above, two.2 opened above]

theorem parameters (level : Nat) {vs : List Variable} (plain : ∀ v ∈ vs, NoBracket v.parameterText) :
    Leaves level (parametersTrace level vs) none := by
  refine ⟨missing_parametersTrace level vs, fun opened more above => ?_⟩
  have each : ∀ vs : List Variable, (∀ v ∈ vs, NoBracket v.parameterText) →
      openBlocks opened ((vs.map fun v => Line.row ⟨level + 1, v.parameterText⟩) ++ more) = openBlocks opened more := by
    intro vs plain
    induction vs with
    | nil => rfl
    | cons v vs ih =>
      obtain ⟨first, others⟩ := List.forall_mem_cons.mp plain
      exact (openBlocks_plain first above (Nat.le_succ level) _).trans (ih others)
  have header : NoBracket Trace.parametersMarker := by decide +kernel
  cases vs with
  | nil => rfl
  | cons v vs =>
    have rows : (parametersTrace level (v :: vs)).rows = Line.row ⟨level, parametersMarker⟩ ::
        (v :: vs).map fun v => Line.row ⟨level + 1, v.parameterText⟩ := by
      rw [Trace.rows, lines_parametersTrace, if_neg (by simp), List.map_cons, List.map_map]
      rfl
    rw [rows, List.cons_append, openBlocks_plain header above (Nat.le_refl level)]
    exact each (v :: vs) plain

-- A block closes after itself what it has opened, or is left open where its statements stop.
theorem block (leaves : Leaves (level + 1) trace left) :
    Leaves level (.create level Block.label ++ (trace ++ .close level Block.label))
      (left.map (Prod.map id (· ++ [openingRow level :: trace.rows]))) := by
  have opens : ∀ {opened : List (List Bytes)} {rows : List Bytes}, OpenAbove level opened →
      OpenAbove (level + 1) ((openingRow level :: rows) :: opened) := by
    intro opened rows above
    refine List.forall_mem_cons.mpr ⟨?_, above.mono (Nat.le_succ level)⟩
    rw [firstIndent_opening]
    exact Nat.mul_lt_mul_of_pos_left (Nat.lt_succ_self level) (by decide)
  cases left with
  | none =>
    have through : (trace ++ .close level Block.label).missing = none := by
      rw [missing_append, leaves.1]
      rfl
    have rows : (Trace.create level Block.label ++ (trace ++ .close level Block.label)).rows =
        openingRow level :: (trace.rows ++ [endingRow level]) := by
      rw [Trace.rows, lines_create_append, List.map_cons, ← Trace.rows, Trace.rows_append leaves.1]
      rfl
    refine ⟨through, fun opened more above => ?_⟩
    rw [rows, List.cons_append, openBlocks_opening above, List.append_assoc, leaves.2 _ _ (opens above),
      List.singleton_append, openBlocks_ending (firstIndent_opening level _)]
  | some left =>
    rw [append_of_missing leaves.1]
    refine ⟨leaves.1, fun opened above => ?_⟩
    have rows : (Trace.create level Block.label ++ trace).rows = openingRow level :: trace.rows := rfl
    rw [rows, openBlocks_opening above, leaves.2 _ (opens above)]
    exact congrArg some (List.append_assoc left.2 [_] opened).symm

end Leaves

end Trace

-- A place whose node is traced at `level`. The body of a function is traced at the level of its statements.
def Place.Meets (start level : Nat) (place : Place) : Prop := place.level start + place.isBody.toNat = level

namespace Place

theorem meets_root (start : Nat) (node : Node) : Meets start start ⟨node, []⟩ := by
  simp [Meets, Place.level, depth, comparisons, functions, steps, isBody]

theorem Meets.level_eq {start level : Nat} {place : Place} (meets : Meets start level place)
    (noBody : place.isBody = false) : place.level start = level := by
  rw [Meets, noBody] at meets
  exact (Int.add_zero _).symm.trans meets

theorem Meets.child {start level : Nat} {parent : Node} {ancestors : List Node}
    (meets : Meets start level ⟨parent, ancestors⟩) (child : Node) :
    Meets start (inner level ⟨parent, ancestors⟩) ⟨child, parent :: ancestors⟩ := by
  have apart : isBody ⟨parent, ancestors⟩ = true → parent.isComparison = false := by
    intro body
    obtain ⟨b, rfl⟩ := exists_body body
    rfl
  have inBody : isBody ⟨child, parent :: ancestors⟩ = parent.isBodyOf child := rfl
  unfold Meets inner at *
  rw [inBody]
  simp only [Place.level, depth, comparisons, functions, steps, List.length_cons, List.countP_cons,
    List.zip_cons_cons] at meets ⊢
  cases body : isBody ⟨parent, ancestors⟩ with
  | true =>
    rw [body] at meets
    cases parent.isBodyOf child <;>
      simp only [apart body, Bool.toNat_true, Bool.toNat_false, Bool.false_eq_true, Bool.or_false, if_true,
        if_false] at meets ⊢ <;> omega
  | false =>
    rw [body] at meets
    cases parent.isComparison <;> cases parent.isBodyOf child <;>
      simp only [Bool.toNat_true, Bool.toNat_false, Bool.false_eq_true, Bool.or_self, Bool.or_true, if_true,
        if_false] at meets ⊢ <;> omega

end Place

-- The rows of the blocks among some places, each printed alone at its level, the innermost first.
def unclosed (start : Nat) (places : List Place) : List (List Bytes) :=
  ((places.filter Place.isBlock).map fun place => (place.node.render (place.level start).toNat).rows).reverse

theorem Place.isBlock_iff {place : Place} :
    place.isBlock = true ↔ place.node.kind = .statement .block ∧ place.isBody = false := by
  simp [isBlock]

theorem Node.label_of_block {node : Node} (block : node.kind = .statement .block) : node.label = Block.label := by
  cases node with
  | block => rfl
  | statement s =>
    cases s with
    | block => rfl
    | _ => cases block
  | _ => cases block

-- A node that is neither a parameter nor a body is printed alike wherever it stands.
theorem Place.render_eq_trace {place : Place} (noParameter : place.isParameter = false) (noBody : place.isBody = false)
    (level : Nat) : place.node.render level = place.node.outline.trace place.ancestors level := by
  obtain ⟨node, ancestors⟩ := place
  cases node with
  | expression e => exact e.render_eq_trace ancestors level
  | comparison c => exact c.render_eq_trace ancestors level
  | assignment a => exact a.render_eq_trace ancestors level
  | variableDecl v => exact v.render_eq_trace noParameter level
  | block b => exact Block.render_eq_trace b noBody level
  | statement s => exact s.render_eq_trace ancestors level

theorem unclosed_cons_block (start : Nat) {place : Place} (block : place.isBlock = true) (places : List Place) :
    unclosed start (place :: places) =
      unclosed start places ++ [(place.node.render (place.level start).toNat).rows] := by
  rw [unclosed, List.filter_cons_of_pos block, List.map_cons, List.reverse_cons]
  rfl

theorem unclosed_cons_other (start : Nat) {place : Place} (other : place.isBlock = false) (places : List Place) :
    unclosed start (place :: places) = unclosed start places := by
  rw [unclosed, List.filter_cons_of_neg (by simp [other])]
  rfl

-- What is reported of a gap, and what is left open around it.
def Gap.leaves (start : Nat) (ancestors : List Node) (gap : Gap) : Missing × List (List Bytes) :=
  (gap.missing, unclosed start (Place.along ancestors gap.path))

theorem Gap.leaves_below_block {start : Nat} {ancestors : List Node} {parent : Node}
    (block : Place.isBlock ⟨parent, ancestors⟩ = true) :
    Gap.leaves start ancestors ∘ Gap.below parent =
      Prod.map id (· ++ [(parent.render (Place.level start ⟨parent, ancestors⟩).toNat).rows]) ∘
        Gap.leaves start (parent :: ancestors) :=
  funext fun gap => congrArg (gap.missing, ·) (unclosed_cons_block start block _)

theorem Gap.leaves_below_other {start : Nat} {ancestors : List Node} {parent : Node}
    (other : Place.isBlock ⟨parent, ancestors⟩ = false) :
    Gap.leaves start ancestors ∘ Gap.below parent = Gap.leaves start (parent :: ancestors) :=
  funext fun gap => congrArg (gap.missing, ·) (unclosed_cons_other start other _)

theorem Bytes.ofText_inj {first second : String} (same : Bytes.ofText first = Bytes.ofText second) :
    first = second := by
  have texts := congrArg Bytes.toText? same
  rw [Bytes.toText?_ofText, Bytes.toText?_ofText] at texts
  exact Option.some.inj texts

-- Only the lines of blocks are brackets.

theorem noBracket_create {node : Node} (other : node.kind ≠ .statement .block) :
    NoBracket (Trace.createPrefix ++ node.label) := by
  have flush : Bytes.content (Bytes.ofText (Trace.createPrefix ++ node.label)) =
      Bytes.ofText (Trace.createPrefix ++ node.label) := by
    rw [Bytes.ofText_append]
    rfl
  unfold NoBracket
  rw [flush]
  constructor
  · intro same
    have heads := congrArg List.head? same
    rw [Bytes.ofText_append] at heads
    change some 67 = some 69 at heads
    cases heads
  · intro same
    have labels : node.label = (Node.block []).label := (String.append_right_inj _).mp (Bytes.ofText_inj same)
    exact other (Node.kind_eq_of_label labels)

theorem Kind.noBracket_markers (kind : Kind) : ∀ text, some text ∈ kind.markers → NoBracket text := by
  have arguments : NoBracket Trace.argumentsMarker := by decide +kernel
  have loop : NoBracket Trace.loopBodyMarker := by decide +kernel
  have otherwise : NoBracket Trace.elseBodyMarker := by decide +kernel
  unfold Kind.markers
  split <;> simp [arguments, loop, otherwise]

namespace Outline

variable {start level : Nat} {ancestors : List Node}

theorem leaves_traceList {children : List Outline}
    (each : ∀ child ∈ children, (child.trace ancestors level).Leaves level
      ((child.reported ancestors).map (Gap.leaves start ancestors)))
    {markers : List (Option String)} (plain : ∀ text, some text ∈ markers → NoBracket text) :
    (traceList ancestors level markers children).Leaves level
      (((children.flatMap gaps).find? (Gap.isPrinted ancestors)).map (Gap.leaves start ancestors)) := by
  induction children generalizing markers with
  | nil => exact .empty level
  | cons child children ih =>
    obtain ⟨first, others⟩ := List.forall_mem_cons.mp each
    have marker : ∀ text ∈ markers.head?.join, NoBracket text := fun text found => plain text (mem_of_marker found)
    have behind := ih others fun text member => plain text (List.mem_of_mem_tail member)
    rw [traceList_cons, List.flatMap_cons, List.find?_append, Option.map_or]
    exact (Trace.Leaves.optional level marker).append (first.append behind)

-- A node that is no block with rows of its own adds only plain rows.
theorem leaves_other {parent : Node} {inside : Trace} {left : Option (Missing × List (List Bytes))}
    (other : Place.isBlock ⟨parent, ancestors⟩ = false)
    (plain : ∀ v ∈ parent.parameters, NoBracket v.parameterText)
    (leaves : inside.Leaves (Place.inner level ⟨parent, ancestors⟩) left) :
    (Place.opening level ⟨parent, ancestors⟩ ++ (inside ++ Place.closing level ⟨parent, ancestors⟩)).Leaves level
      left := by
  have closed : Place.closing level ⟨parent, ancestors⟩ = .empty := by
    rw [Place.closing, other]
    rfl
  rw [closed, Trace.append_empty]
  unfold Place.opening Place.inner at *
  cases body : Place.isBody ⟨parent, ancestors⟩ with
  | true =>
    rw [body] at leaves
    exact leaves
  | false =>
    have noBlock : parent.kind ≠ .statement .block := by
      intro block
      rw [Place.isBlock, body, block] at other
      cases other
    rw [body] at leaves
    have opened := (Trace.Leaves.line level (noBracket_create noBlock)).append
      ((Trace.Leaves.parameters (level + 1) plain).mono (Nat.le_succ level))
    refine opened.append (leaves.mono ?_)
    split
    · exact Nat.le_refl level
    · exact Nat.le_succ level

-- A block is either closed again, or it stays open with all rows from its own on.
theorem leaves_block {parent : Node} {inside : Trace} {left : Option (Missing × List (List Bytes))}
    (block : Place.isBlock ⟨parent, ancestors⟩ = true)
    (leaves : inside.Leaves (Place.inner level ⟨parent, ancestors⟩) left) :
    (Place.opening level ⟨parent, ancestors⟩ ++ (inside ++ Place.closing level ⟨parent, ancestors⟩)).Leaves level
      (left.map (Prod.map id (· ++ [(Place.opening level ⟨parent, ancestors⟩ ++
        (inside ++ Place.closing level ⟨parent, ancestors⟩)).rows]))) := by
  obtain ⟨kind, noBody⟩ := Place.isBlock_iff.mp block
  have other : parent.kind ≠ .statement .functionDecl := by
    rw [kind]
    decide
  have opened : Place.opening level ⟨parent, ancestors⟩ = .create level Block.label := by
    rw [Place.opening_of_ne noBody, Node.parameters_eq_nil other, Node.label_of_block kind]
    exact Trace.append_empty _
  have deeper : Place.inner level ⟨parent, ancestors⟩ = level + 1 := by
    rw [Place.inner, noBody, Node.isComparison, kind]
    rfl
  have closed : Place.closing level ⟨parent, ancestors⟩ = .close level Block.label := if_pos block
  rw [deeper] at leaves
  rw [opened, closed]
  cases left with
  | none => exact leaves.block
  | some left =>
    have rows : (Trace.create level Block.label ++ (inside ++ .close level Block.label)).rows =
        openingRow level :: inside.rows := by
      rw [Trace.append_of_missing leaves.1]
      rfl
    rw [rows]
    exact leaves.block

-- What printing leaves open are the blocks on the way to the gap it stops at.
theorem leaves_trace {outline : Outline} (proper : outline.Proper)
    (plain : ∀ inner ∈ outline.nodes, ∀ v ∈ inner.parameters, NoBracket v.parameterText)
    (meets : ∀ root children, outline = .node root children → Place.Meets start level ⟨root, ancestors⟩) :
    (outline.trace ancestors level).Leaves level ((outline.reported ancestors).map (Gap.leaves start ancestors)) := by
  induction proper generalizing ancestors level with
  | hole missing => exact .stop level missing
  | @node parent children own below ih =>
    have standing := meets parent children rfl
    rw [nodes_node] at plain
    obtain ⟨plainHere, plainBelow⟩ := List.forall_mem_cons.mp plain
    cases parameter : Place.isParameter ⟨parent, ancestors⟩ with
    | true =>
      rw [trace_parameter parameter, reported_parameter parameter]
      exact .empty level
    | false =>
      have inside : (traceList (parent :: ancestors) (Place.inner level ⟨parent, ancestors⟩) parent.kind.markers
          children).Leaves (Place.inner level ⟨parent, ancestors⟩)
            (((children.flatMap gaps).find? (Gap.isPrinted (parent :: ancestors))).map
              (Gap.leaves start (parent :: ancestors))) := by
        refine leaves_traceList (fun child present => ih child present ?_ ?_) parent.kind.noBracket_markers
        · intro inner member
          exact plainBelow inner (List.mem_flatMap.mpr ⟨child, present, member⟩)
        · intro root children _
          exact standing.child root
      rw [reported_node parameter, Option.map_map]
      cases block : Place.isBlock ⟨parent, ancestors⟩ with
      | false =>
        rw [Gap.leaves_below_other block, trace_node parameter]
        exact leaves_other block plainHere inside
      | true =>
        have rows : (parent.render (Place.level start ⟨parent, ancestors⟩).toNat).rows =
            ((Outline.node parent children).trace ancestors level).rows := by
          obtain ⟨-, noBody⟩ := Place.isBlock_iff.mp block
          rw [standing.level_eq noBody, Int.toNat_natCast, Place.render_eq_trace parameter noBody, own]
        rw [Gap.leaves_below_block block, rows, ← Option.map_map, trace_node parameter]
        exact leaves_block block inside

end Outline

-- Blocks are indented further the later they are opened.
def Nested (opened : List (List Bytes)) : Prop :=
  opened.Pairwise fun block outer => firstIndent outer < firstIndent block

theorem nested_openBlocks {opened left : List (List Bytes)} {rows : List Bytes} (nested : Nested opened)
    (read : openBlocks opened rows = some left) : Nested left := by
  induction rows generalizing opened with
  | nil =>
    cases read
    exact nested
  | cons row rows ih =>
    rw [openBlocks.eq_def] at read
    dsimp only at read
    split at read
    next =>
      cases opened with
      | nil => cases read
      | cons block outer =>
        dsimp only at read
        split at read
        · exact ih (List.pairwise_cons.mp nested).2 read
        · cases read
    next =>
      split at read
      next deeper =>
        refine ih ?_ read
        split
        · refine List.pairwise_cons.mpr ⟨fun block member => ?_, nested⟩
          exact of_decide_eq_true (List.all_eq_true.mp deeper block member)
        · exact nested
      next => cases read

-- The blocks on the way to a gap that have rows of their own, the outermost first.
def Gap.blocks (gap : Gap) : List Place := (Place.along [] gap.path).filter Place.isBlock

-- Read row by row, the blocks of a trace are closed in the order in which they were opened, and stand around all that
-- is indented further. If printing stops, the blocks around the node that misses something are left open, each with all
-- the rows that it is printed in by itself.
theorem blocks_bracketed (node : Node) (level : Nat) (refusal : Refusal)
    (oneLine : ∀ inner ∈ node.nodes, ∀ text ∈ inner.texts, '\n' ∉ text.toList)
    (distinct : ∀ inner ∈ node.nodes, ∀ v ∈ inner.parameters, NoBracket v.parameterText) :
    let printed := (Sink.new none refusal).print (node.render level)
    ∃ left, openBlocks [] (Bytes.rows printed.1.bytes) = some left ∧
      (printed.2 = .ok () → left = []) ∧
      ∀ error, printed.2 = .error error → ∃ gap, node.reportedGap = some gap ∧ error = .structural gap.missing ∧
        (∃ place ∈ node.places, gap.path = (place.node :: place.ancestors).reverse ∧
          gap.missing.node = place.node.label ∧ gap.missing.slot ∈ place.node.emptySlots) ∧
        left.reverse = gap.blocks.map (fun place => (place.node.render (place.level level).toNat).rows) ∧
        (left.reverse.map firstIndent).Pairwise (· < ·) := by
  intro printed
  have rows : Bytes.rows printed.1.bytes = (node.render level).rows := by
    have bytes : printed.1.bytes = (node.render level).bytes :=
      congrArg (fun result => result.1.bytes) (Sink.print_unlimited refusal (node.render level))
    rw [bytes]
    exact Trace.rows_bytes (Node.unbroken_render oneLine level)
  have result : printed.2 = (node.render level).outcome :=
    congrArg Prod.snd (Sink.print_unlimited refusal (node.render level))
  have leaves : (node.render level).Leaves level (node.reportedGap.map (Gap.leaves level [])) := by
    rw [Node.render_eq_trace]
    exact Outline.leaves_trace node.proper_outline distinct fun root _ _ => Place.meets_root level root
  have nothingOpen : OpenAbove level [] := List.forall_mem_nil _
  rw [rows, result, Trace.outcome]
  cases found : node.reportedGap with
  | none =>
    rw [found] at leaves
    obtain ⟨through, kept⟩ := leaves
    have read := kept [] [] nothingOpen
    rw [List.append_nil] at read
    refine ⟨[], read, fun _ => rfl, fun error failed => ?_⟩
    rw [through] at failed
    cases failed
  | some gap =>
    rw [found] at leaves
    obtain ⟨stopped, left⟩ := leaves
    have read := left [] nothingOpen
    rw [List.append_nil] at read
    refine ⟨_, read, fun succeeded => ?_,
      fun error failed => ⟨gap, rfl, ?_, Node.exists_place_of_reportedGap found, List.reverse_reverse _, ?_⟩⟩
    · rw [stopped] at succeeded
      cases succeeded
    · rw [stopped] at failed
      cases failed
      rfl
    · have nested := nested_openBlocks List.Pairwise.nil read
      rw [List.map_reverse, List.pairwise_reverse, List.pairwise_map]
      exact nested

-- The block that is the body of the function has no rows to be left open. The three others on the way have.
theorem blocks_bracketed_function :
    let node : Node := .statement (.block [.block [], .classDecl "C" (some [.functionDecl "int" "f" [⟨"int", "x", none⟩]
      (some [.block [.expression none]])])])
    (∀ inner ∈ node.nodes, ∀ text ∈ inner.texts, '\n' ∉ text.toList) ∧
      (∀ inner ∈ node.nodes, ∀ v ∈ inner.parameters, NoBracket v.parameterText) ∧
      ∃ left, openBlocks [] (Bytes.rows ((Sink.new none .closed).print (node.render 0)).1.bytes) = some left ∧
        left.reverse.map firstIndent = [0, 4, 8] := by
  intro node
  have oneLine : ∀ inner ∈ node.nodes, ∀ text ∈ inner.texts, '\n' ∉ text.toList := by decide +kernel
  have distinct : ∀ inner ∈ node.nodes, ∀ v ∈ inner.parameters, NoBracket v.parameterText := by decide +kernel
  obtain ⟨left, read, -, failed⟩ := blocks_bracketed node 0 .closed oneLine distinct
  refine ⟨oneLine, distinct, left, read, ?_⟩
  rw [Sink.print_unlimited] at failed
  obtain ⟨gap, found, -, -, blocks, -⟩ := failed _ rfl
  have indents : (node.reportedGap.map fun gap => gap.blocks.map fun place =>
      firstIndent (place.node.render (place.level 0).toNat).rows) = some [0, 4, 8] := by
    decide +kernel
  rw [found] at indents
  rw [blocks, List.map_map]
  exact Option.some.inj indents

-- A block can only be ended where it was opened, and what follows inside must be indented further.

example : openBlocks [] [openingRow 1, endingRow 0] = none := by decide +kernel

example : openBlocks [] [openingRow 1, Line.row ⟨1, Trace.argumentsMarker⟩] = none := by decide +kernel

end Treeline
