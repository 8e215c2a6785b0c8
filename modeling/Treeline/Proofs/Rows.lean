import Treeline.Proofs.Legibility
import Treeline.Proofs.Tracing

namespace Treeline

-- Where the rows of an output end. A byte that ends a row stands for a character that does; no other character has one
-- among its bytes.

namespace Bytes

theorem newline_not_mem_encoded {c : Char} (long : 127 < c.val.toNat) : newline ∉ String.utf8EncodeChar c := by
  have high : ∀ n, 128 ≤ n → n < 256 → newline ≠ UInt8.ofNat n := by
    intro n low fits same
    have values := congrArg UInt8.toNat same
    rw [UInt8.toNat_ofNat_of_lt' fits] at values
    change 10 = n at values
    omega
  unfold String.utf8EncodeChar
  simp only [Nat.not_le.mpr long, if_false]
  split
  · simp only [List.mem_cons, List.not_mem_nil, or_false, not_or]
    exact ⟨high _ (by omega) (by omega), high _ (by omega) (by omega)⟩
  split
  · simp only [List.mem_cons, List.not_mem_nil, or_false, not_or]
    exact ⟨high _ (by omega) (by omega), high _ (by omega) (by omega), high _ (by omega) (by omega)⟩
  · simp only [List.mem_cons, List.not_mem_nil, or_false, not_or]
    exact ⟨high _ (by omega) (by omega), high _ (by omega) (by omega), high _ (by omega) (by omega),
      high _ (by omega) (by omega)⟩

theorem count_newline_encoded (c : Char) : (String.utf8EncodeChar c).count newline = if c = '\n' then 1 else 0 := by
  rcases Nat.lt_or_ge 127 c.val.toNat with long | short
  · have other : c ≠ '\n' := by
      rintro rfl
      exact absurd long (by decide)
    rw [List.count_eq_zero.mpr (newline_not_mem_encoded long), if_neg other]
  · have single : String.utf8EncodeChar c = [UInt8.ofNat c.val.toNat] := by
      unfold String.utf8EncodeChar
      exact if_pos short
    by_cases same : c = '\n'
    · rw [if_pos same, same]
      rfl
    · have other : UInt8.ofNat c.val.toNat ≠ newline := by
        intro equal
        have values := congrArg UInt8.toNat equal
        rw [UInt8.toNat_ofNat_of_lt' (Nat.lt_of_le_of_lt short (by decide))] at values
        exact same (Char.ext (UInt32.toNat_inj.mp values))
      rw [single, if_neg same, List.count_singleton, beq_eq_false_iff_ne.mpr other]
      rfl

theorem lineCount_ofText (text : String) : lineCount (ofText text) = text.toList.count '\n' := by
  unfold lineCount ofText
  induction text.toList with
  | nil => rfl
  | cons c chars ih =>
    rw [List.flatMap_cons, List.count_append, ih, count_newline_encoded, List.count_cons, Nat.add_comm]
    simp only [beq_iff_eq]

theorem newline_not_mem_ofText {text : String} (single : '\n' ∉ text.toList) : newline ∉ ofText text := by
  have none : lineCount (ofText text) = 0 := by rw [lineCount_ofText, List.count_eq_zero.mpr single]
  exact List.count_eq_zero.mp none

-- The rows of an output. What stands behind the last newline is a row as well, unless it is empty.
def rows : Bytes → List Bytes
  | [] => []
  | byte :: bytes =>
    if byte = newline then [] :: rows bytes
    else match rows bytes with
      | [] => [[byte]]
      | row :: more => (byte :: row) :: more

theorem rows_append {row : Bytes} (single : newline ∉ row) (rest : Bytes) :
    rows (row ++ newline :: rest) = row :: rows rest := by
  induction row with
  | nil => exact if_pos rfl
  | cons byte row ih =>
    have other : byte ≠ newline := fun same => single (same ▸ List.mem_cons_self)
    have others : newline ∉ row := fun member => single (List.mem_cons_of_mem byte member)
    rw [List.cons_append, rows, if_neg other, ih others]

-- A row is told by how far it is indented and by what it says.

def leadingSpaces (row : Bytes) : Nat := (row.takeWhile (· == space)).length

def content (row : Bytes) : Bytes := row.dropWhile (· == space)

theorem leadingSpaces_indented (count : Nat) (row : Bytes) :
    leadingSpaces (List.replicate count space ++ row) = count + leadingSpaces row := by
  induction count with
  | zero => simp
  | succ count ih =>
    rw [List.replicate_succ, List.cons_append, leadingSpaces, List.takeWhile_cons_of_pos rfl, List.length_cons,
      Nat.add_right_comm]
    exact congrArg (· + 1) ih

theorem content_indented (count : Nat) (row : Bytes) : content (List.replicate count space ++ row) = content row := by
  induction count with
  | zero => rfl
  | succ count ih =>
    rw [List.replicate_succ, List.cons_append, content, List.dropWhile_cons_of_pos rfl]
    exact ih

end Bytes

-- Every line of a trace ends one row, and every newline in its text another.
theorem Trace.lineCount_bytes (trace : Trace) :
    Bytes.lineCount trace.bytes =
      trace.lines.length + ((trace.lines.map Line.text).flatMap String.toList).count '\n' := by
  have one (line : Line) : (lineChars line.level line.text).count '\n' = 1 + line.text.toList.count '\n' := by
    have spaces : (List.replicate (Line.indentWidth * line.level) ' ').count '\n' = 0 :=
      List.count_eq_zero.mpr fun member => absurd (List.eq_of_mem_replicate member) (by decide)
    rw [lineChars, List.count_append, List.count_append, spaces, Nat.zero_add, Nat.add_comm]
    rfl
  rw [Trace.bytes_eq, Bytes.lineCount_ofText, String.toList_ofList, Trace.chars]
  induction trace.lines with
  | nil => rfl
  | cons line lines ih =>
    rw [List.flatMap_cons, List.count_append, ih, one, List.map_cons, List.flatMap_cons, List.count_append,
      List.length_cons]
    omega

-- The row that a line makes, if nothing in its text breaks it.
def Line.row (line : Line) : Bytes :=
  List.replicate (Line.indentWidth * line.level) Bytes.space ++ Bytes.ofText line.text

namespace Trace

def rows (trace : Trace) : List Bytes := trace.lines.map Line.row

theorem rows_append {first : Trace} (through : first.missing = none) (second : Trace) :
    (first ++ second).rows = first.rows ++ second.rows := by
  rw [rows, lines_append through, List.map_append]
  rfl

-- The text of no line breaks it.
def Unbroken (trace : Trace) : Prop := ∀ line ∈ trace.lines, '\n' ∉ line.text.toList

theorem rows_bytes {trace : Trace} (unbroken : trace.Unbroken) : Bytes.rows trace.bytes = trace.rows := by
  unfold bytes rows
  unfold Unbroken at unbroken
  revert unbroken
  induction trace.lines with
  | nil => exact fun _ => rfl
  | cons line lines ih =>
    intro single
    obtain ⟨first, others⟩ := List.forall_mem_cons.mp single
    have ends : line.bytes = line.row ++ [Bytes.newline] := by
      simp only [Line.bytes, Line.pieces, Line.padded, Line.row, List.flatten_cons, List.flatten_nil, List.append_nil,
        List.append_assoc]
    have unbroken : Bytes.newline ∉ line.row := by
      intro member
      rcases List.mem_append.mp member with indentation | text
      · exact absurd (List.eq_of_mem_replicate indentation) (by decide)
      · exact Bytes.newline_not_mem_ofText first text
    rw [List.flatMap_cons, ends, List.append_assoc, List.singleton_append, Bytes.rows_append unbroken, ih others,
      List.map_cons]

namespace Unbroken

theorem empty : Unbroken .empty := List.forall_mem_nil _

theorem line {level : Nat} {text : String} (single : '\n' ∉ text.toList) : Unbroken (.line level text) :=
  List.forall_mem_singleton.mpr single

theorem append {first second : Trace} (one : first.Unbroken) (two : second.Unbroken) : (first ++ second).Unbroken := by
  obtain ⟨lines, missing⟩ := first
  cases missing with
  | none => exact List.forall_mem_append.mpr ⟨one, two⟩
  | some missing => exact one

theorem optional {level : Nat} {text : Option String} (single : ∀ inner ∈ text, '\n' ∉ inner.toList) :
    Unbroken (optionalTrace (.line level) text) := by
  cases text with
  | none => exact empty
  | some text => exact line (single text rfl)

theorem parameters {level : Nat} {vs : List Variable} (single : ∀ v ∈ vs, '\n' ∉ v.parameterText.toList) :
    Unbroken (parametersTrace level vs) := by
  unfold Unbroken
  rw [lines_parametersTrace]
  split
  · exact List.forall_mem_nil _
  · have header : '\n' ∉ parametersMarker.toList := by decide
    refine List.forall_mem_cons.mpr ⟨header, fun line member => ?_⟩
    obtain ⟨v, declared, rfl⟩ := List.mem_map.mp member
    exact single v declared

end Unbroken

end Trace

namespace Outline

open Trace (Unbroken)

theorem unbroken_traceList {ancestors : List Node} {level : Nat} {children : List Outline}
    (each : ∀ child ∈ children, (child.trace ancestors level).Unbroken) {markers : List (Option String)}
    (single : ∀ text, some text ∈ markers → '\n' ∉ text.toList) :
    (traceList ancestors level markers children).Unbroken := by
  induction children generalizing markers with
  | nil => exact .empty
  | cons child children ih =>
    obtain ⟨first, others⟩ := List.forall_mem_cons.mp each
    have marker : ∀ text ∈ markers.head?.join, '\n' ∉ text.toList := fun text found => single text (mem_of_marker found)
    rw [traceList_cons]
    exact (Unbroken.optional marker).append
      (first.append (ih others fun text member => single text (List.mem_of_mem_tail member)))

theorem unbroken_trace {outline : Outline} (labels : ∀ inner ∈ outline.nodes, '\n' ∉ inner.label.toList)
    (parameters : ∀ inner ∈ outline.nodes, ∀ v ∈ inner.parameters, '\n' ∉ v.parameterText.toList)
    (ancestors : List Node) (level : Nat) : (outline.trace ancestors level).Unbroken := by
  induction outline generalizing ancestors level with
  | hole missing => exact List.forall_mem_nil _
  | node parent children ih =>
    rw [nodes_node] at labels parameters
    obtain ⟨label, labelsBelow⟩ := List.forall_mem_cons.mp labels
    obtain ⟨declared, declaredBelow⟩ := List.forall_mem_cons.mp parameters
    cases parameter : Place.isParameter ⟨parent, ancestors⟩ with
    | true =>
      rw [trace_parameter parameter]
      exact .empty
    | false =>
      have inside := unbroken_traceList (fun child present => ih child present
        (fun inner member => labelsBelow inner (List.mem_flatMap.mpr ⟨child, present, member⟩))
        (fun inner member => declaredBelow inner (List.mem_flatMap.mpr ⟨child, present, member⟩))
        (parent :: ancestors) (Place.inner level ⟨parent, ancestors⟩)) parent.kind.newline_not_mem_markers
      have opening : (Place.opening level ⟨parent, ancestors⟩).Unbroken := by
        unfold Place.opening
        split
        · exact .empty
        · exact .append (.line (newline_not_mem_titled (by decide) label)) (.parameters declared)
      have closing : (Place.closing level ⟨parent, ancestors⟩).Unbroken := by
        unfold Place.closing
        split
        · exact .line (by decide)
        · exact .empty
      rw [trace_node parameter]
      exact opening.append (inside.append closing)

end Outline

-- No line breaks unless a text of the tree does.
theorem Node.unbroken_render {node : Node}
    (oneLine : ∀ inner ∈ node.nodes, ∀ text ∈ inner.texts, '\n' ∉ text.toList) (level : Nat) :
    (node.render level).Unbroken := by
  rw [Node.render_eq_trace]
  refine Outline.unbroken_trace (fun inner member => newline_not_mem_label (oneLine inner member)) ?_ [] level
  intro inner member v declared
  have texts := oneLine _ (node.sound_outline.parameter_mem_nodes member declared)
  obtain ⟨inType, inName⟩ := List.forall_mem_cons.mp texts
  have spaced : '\n' ∉ (v.typeName ++ " ").toList := newline_not_mem_titled inType (by decide)
  exact newline_not_mem_titled spaced (inName _ List.mem_cons_self)

end Treeline
