import Treeline.Proofs.Labels
import Treeline.Proofs.Printing

namespace Treeline

-- Traces as characters, and what it takes to read a list of children off them again.

def lineChars (level : Nat) (text : String) : List Char :=
  List.replicate (Line.indentWidth * level) ' ' ++ (text.toList ++ ['\n'])

def Trace.chars (trace : Trace) : List Char := trace.lines.flatMap fun line => lineChars line.level line.text

theorem Line.bytes_eq (line : Line) : line.bytes = Bytes.ofText (String.ofList (lineChars line.level line.text)) := by
  have spaces (n : Nat) : (List.replicate n ' ').flatMap String.utf8EncodeChar = List.replicate n Bytes.space := by
    induction n with
    | zero => rfl
    | succ n ih =>
      rw [List.replicate_succ, List.flatMap_cons, ih]
      rfl
  simp only [Line.bytes, Line.pieces, Line.padded, Bytes.ofText, lineChars, String.toList_ofList, List.flatMap_append, spaces]
  rfl

theorem Trace.bytes_eq (trace : Trace) : trace.bytes = Bytes.ofText (String.ofList trace.chars) := by
  obtain ⟨lines, missing⟩ := trace
  simp only [Trace.bytes, Trace.chars, Bytes.ofText, String.toList_ofList]
  induction lines with
  | nil => rfl
  | cons line lines ih =>
    rw [List.flatMap_cons, List.flatMap_cons, List.flatMap_append, ← ih, Line.bytes_eq, Bytes.ofText,
      String.toList_ofList]

theorem Trace.chars_eq_of_bytes {first second : Trace} (same : first.bytes = second.bytes) :
    first.chars = second.chars := by
  have texts := congrArg Bytes.toText? same
  rw [Trace.bytes_eq, Trace.bytes_eq, Bytes.toText?_ofText, Bytes.toText?_ofText] at texts
  simpa using congrArg String.toList (Option.some.inj texts)

namespace Trace

theorem chars_append {first : Trace} (through : first.missing = none) (second : Trace) :
    (first ++ second).chars = first.chars ++ second.chars := by
  obtain ⟨lines, missing⟩ := first
  cases through
  exact List.flatMap_append

@[simp] theorem chars_empty : empty.chars = [] := rfl

@[simp] theorem chars_line (level : Nat) (text : String) : (line level text).chars = lineChars level text :=
  List.append_nil _

@[simp] theorem chars_create (level : Nat) (label : String) :
    (create level label).chars = lineChars level (createPrefix ++ label) :=
  chars_line level _

@[simp] theorem chars_close (level : Nat) (label : String) :
    (close level label).chars = lineChars level (endPrefix ++ label) :=
  chars_line level _

theorem chars_traceAll {α : Type} {render : α → Trace} {children : List α}
    (through : ∀ child ∈ children, (render child).missing = none) :
    (traceAll render children).chars = children.flatMap fun child => (render child).chars := by
  induction children with
  | nil => rfl
  | cons child children ih =>
    obtain ⟨first, others⟩ := List.forall_mem_cons.mp through
    rw [traceAll, chars_append first, ih others, List.flatMap_cons]

end Trace

-- How far a text is indented.

def indentation (text : List Char) : Nat := (text.takeWhile (· == ' ')).length

def Within (level : Nat) (text : List Char) : Prop := indentation text ≤ Line.indentWidth * level

theorem indentation_lineChars (level : Nat) (text : String) (rest : List Char) :
    indentation (lineChars level text ++ rest) =
      Line.indentWidth * level + indentation (text.toList ++ '\n' :: rest) := by
  have spaces : ∀ c ∈ List.replicate (Line.indentWidth * level) ' ', (c == ' ') = true := by
    intro c member
    rw [List.eq_of_mem_replicate member]
    rfl
  rw [indentation, lineChars, List.append_assoc, List.takeWhile_append_of_pos spaces, List.length_append,
    List.length_replicate, List.append_assoc]
  rfl

theorem Within.mono {level other : Nat} {text : List Char} (within : Within level text) (le : level ≤ other) :
    Within other text :=
  Nat.le_trans within (Nat.mul_le_mul_left _ le)

theorem not_within_lineChars (level : Nat) (text : String) (rest : List Char) :
    ¬Within level (lineChars (level + 1) text ++ rest) := by
  rw [Within, indentation_lineChars, Line.indentWidth]
  omega

theorem lineChars_inj {level : Nat} {text text' : String} {rest rest' : List Char} (single : '\n' ∉ text.toList)
    (single' : '\n' ∉ text'.toList) (same : lineChars level text ++ rest = lineChars level text' ++ rest') :
    text = text' ∧ rest = rest' := by
  simp only [lineChars, List.append_assoc] at same
  obtain ⟨texts, rests⟩ := append_cons_inj single single' (List.append_cancel_left same)
  exact ⟨String.toList_inj.mp texts, rests⟩

-- A node begins with a line that is indented as far as its level says.

theorem Node.chars_render (level : Nat) (node : Node) :
    ∃ more, (node.render level).chars = lineChars level (Trace.createPrefix ++ node.label) ++ more := by
  obtain ⟨more, lines⟩ := node.lines_render level
  exact ⟨_, by rw [Trace.chars, lines, List.flatMap_cons]⟩

theorem indentation_create (level : Nat) (label : String) (rest : List Char) :
    indentation (lineChars level (Trace.createPrefix ++ label) ++ rest) = Line.indentWidth * level := by
  rw [indentation_lineChars, String.toList_append]
  rfl

theorem Node.indentation_render (level : Nat) (node : Node) (rest : List Char) :
    indentation ((node.render level).chars ++ rest) = Line.indentWidth * level := by
  obtain ⟨more, spelled⟩ := node.chars_render level
  rw [spelled, List.append_assoc, indentation_create]

theorem toList_inj {α : Type} {place place' : Option α} (same : place.toList = place'.toList) : place = place' := by
  simpa using congrArg List.head? same

theorem chars_optionalTrace {α : Type} (render : α → Trace) (place : Option α) :
    (optionalTrace render place).chars = place.toList.flatMap fun child => (render child).chars := by
  cases place <;> simp [optionalTrace]

-- What is printed determines the child `a` and the rest, as long as the rest is something that may follow the child.
def Determined {α : Type} (legible : α → Prop) (text : α → List Char) (follows : List Char → Prop) (a : α) : Prop :=
  ∀ b rest rest', legible b → follows rest → follows rest' → text a ++ rest = text b ++ rest' → a = b ∧ rest = rest'

section Lists

variable {α : Type} {legible : α → Prop} {text : α → List Char}

-- A list of children ends where the text goes on with something that no child begins with.
theorem Determined.sequence {follows ends : List Char → Prop} (opens : ∀ a more, follows (text a ++ more))
    (apart : ∀ a more, ¬ends (text a ++ more)) (after : ∀ rest, ends rest → follows rest) {as bs : List α}
    (each : ∀ a ∈ as, Determined legible text follows a) (legibles : ∀ b ∈ bs, legible b) {rest rest' : List Char}
    (ending : ends rest) (ending' : ends rest') (same : as.flatMap text ++ rest = bs.flatMap text ++ rest') :
    as = bs ∧ rest = rest' := by
  have goesOn : ∀ (as : List α) {rest : List Char}, ends rest → follows (as.flatMap text ++ rest) := by
    intro as rest ending
    cases as with
    | nil => exact after rest ending
    | cons a as =>
      rw [List.flatMap_cons, List.append_assoc]
      exact opens a _
  induction as generalizing bs with
  | nil =>
    cases bs with
    | nil => exact ⟨rfl, same⟩
    | cons b bs =>
      rw [List.flatMap_nil, List.nil_append, List.flatMap_cons, List.append_assoc] at same
      exact absurd (same ▸ ending) (apart b _)
  | cons a as ih =>
    cases bs with
    | nil =>
      rw [List.flatMap_nil, List.nil_append, List.flatMap_cons, List.append_assoc] at same
      exact absurd (same ▸ ending') (apart a _)
    | cons b bs =>
      obtain ⟨first, others⟩ := List.forall_mem_cons.mp each
      obtain ⟨legibleFirst, legibleOthers⟩ := List.forall_mem_cons.mp legibles
      rw [List.flatMap_cons, List.flatMap_cons, List.append_assoc, List.append_assoc] at same
      obtain ⟨rfl, tails⟩ := first b _ _ legibleFirst (goesOn as ending) (goesOn bs ending') same
      obtain ⟨rfl, rests⟩ := ih others legibleOthers tails
      exact ⟨rfl, rests⟩

-- Children are indented further than what follows them.
theorem Determined.list {level : Nat}
    (opens : ∀ a rest, indentation (text a ++ rest) = Line.indentWidth * (level + 1)) {as bs : List α}
    (each : ∀ a ∈ as, Determined legible text (Within (level + 1)) a) (legibles : ∀ b ∈ bs, legible b)
    {rest rest' : List Char} (within : Within level rest) (within' : Within level rest')
    (same : as.flatMap text ++ rest = bs.flatMap text ++ rest') : as = bs ∧ rest = rest' := by
  refine Determined.sequence (fun a more => Nat.le_of_eq (opens a more)) ?_
    (fun _ within => within.mono (Nat.le_succ level)) each legibles within within' same
  intro a more
  rw [Within, opens, Line.indentWidth]
  omega

theorem within_list {level : Nat} (opens : ∀ a rest, indentation (text a ++ rest) = Line.indentWidth * (level + 1))
    (as : List α) {rest : List Char} (within : Within level rest) : Within (level + 1) (as.flatMap text ++ rest) := by
  cases as with
  | nil => exact within.mono (Nat.le_succ level)
  | cons a as =>
    rw [List.flatMap_cons, List.append_assoc]
    exact Nat.le_of_eq (opens a _)

-- A list with a line of its own above it, which is there only if the list has something in it.
def headed (header : List Char) (text : α → List Char) (as : List α) : List Char :=
  (if as.isEmpty then [] else header) ++ as.flatMap text

theorem Determined.headed {header : List Char} {follows ends : List Char → Prop}
    (opens : ∀ a more, follows (text a ++ more)) (apart : ∀ a more, ¬ends (text a ++ more))
    (after : ∀ rest, ends rest → follows rest) (headless : ∀ more, ¬ends (header ++ more)) {as bs : List α}
    (each : ∀ a ∈ as, Determined legible text follows a) (legibles : ∀ b ∈ bs, legible b) {rest rest' : List Char}
    (ending : ends rest) (ending' : ends rest')
    (same : headed header text as ++ rest = headed header text bs ++ rest') : as = bs ∧ rest = rest' := by
  cases as with
  | nil =>
    cases bs with
    | nil => exact ⟨rfl, same⟩
    | cons b bs =>
      have above : rest = header ++ (_ ++ rest') := same.trans (List.append_assoc ..)
      exact absurd (above ▸ ending) (headless _)
  | cons a as =>
    cases bs with
    | nil =>
      have above : rest' = header ++ (_ ++ rest) := same.symm.trans (List.append_assoc ..)
      exact absurd (above ▸ ending') (headless _)
    | cons b bs =>
      simp only [Treeline.headed, List.append_assoc] at same
      exact Determined.sequence opens apart after each legibles ending ending' (List.append_cancel_left same)

end Lists

end Treeline
