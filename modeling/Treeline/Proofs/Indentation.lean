import Mathlib.Data.List.Chain
import Treeline.Proofs.Padding
import Treeline.Proofs.Rows

namespace Treeline

-- Where a tree is printed only shifts its lines, and no line is indented by more than one step against the line before.

-- The same line, some levels deeper.
def Line.indent (levels : Nat) (line : Line) : Line := { line with level := line.level + levels }

namespace Trace

def indent (levels : Nat) (trace : Trace) : Trace := ⟨trace.lines.map (Line.indent levels), trace.missing⟩

theorem indent_append (levels : Nat) (first second : Trace) :
    (first ++ second).indent levels = first.indent levels ++ second.indent levels := by
  obtain ⟨lines, missing⟩ := first
  cases missing with
  | none => exact congrArg (Trace.mk · second.missing) List.map_append
  | some missing => rfl

end Trace

theorem parametersTrace_indent (level levels : Nat) (vs : List Variable) :
    parametersTrace (level + levels) vs = (parametersTrace level vs).indent levels := by
  cases vs with
  | nil => rfl
  | cons v vs =>
    simp only [parametersTrace, Trace.indent, Line.indent, List.map_cons, List.map_map, Function.comp_def,
      Nat.add_right_comm]

namespace Place

variable (place : Place) (level levels : Nat)

theorem opening_indent : place.opening (level + levels) = (place.opening level).indent levels := by
  unfold opening
  split
  · rfl
  · rw [Trace.indent_append, ← parametersTrace_indent, Nat.add_right_comm]
    rfl

theorem closing_indent : place.closing (level + levels) = (place.closing level).indent levels := by
  unfold closing
  split <;> rfl

end Place

-- A trace that may follow a line at `level` or deeper, or one from which at most a step leads down to `first`.
structure Trace.Smooth (first level : Nat) (trace : Trace) : Prop where
  enters : ∀ line ∈ trace.lines.head?, line.level ≤ first
  stays : ∀ line ∈ trace.lines, level ≤ line.level
  gentle : trace.lines.IsChain fun line next => next.level ≤ line.level + 1

namespace Trace.Smooth

variable {first level : Nat} {trace second : Trace}

theorem mono {first' level' : Nat} (smooth : Smooth first level trace) (enter : first ≤ first')
    (stay : level' ≤ level) : Smooth first' level' trace :=
  ⟨fun line head => Nat.le_trans (smooth.enters line head) enter,
    fun line member => Nat.le_trans stay (smooth.stays line member), smooth.gentle⟩

theorem silent {trace : Trace} (none : trace.lines = []) : Smooth first level trace := by
  constructor <;> simp [none]

theorem line (level : Nat) (text : String) : Smooth level level (.line level text) := by
  constructor <;> simp [Trace.line]

theorem append (one : Smooth first level trace) (two : Smooth first level second) (step : first ≤ level + 1) :
    Smooth first level (trace ++ second) := by
  obtain ⟨lines, missing⟩ := trace
  cases missing with
  | some missing => exact one
  | none =>
    refine ⟨?_, ?_, ?_⟩
    · intro line head
      cases lines with
      | nil => exact two.enters line head
      | cons top lines => exact one.enters line head
    · intro line member
      rcases List.mem_append.mp member with before | behind
      · exact one.stays line before
      · exact two.stays line behind
    · refine List.isChain_append.mpr ⟨one.gentle, two.gentle, ?_⟩
      intro line last next head
      have above := one.stays line (List.mem_of_getLast? last)
      have below := two.enters next head
      omega

-- What is printed below the line of a node.
theorem below (smooth : Smooth (level + 1) level trace) (label : String) :
    Smooth level level (.create level label ++ trace) := by
  refine ⟨?_, ?_, ?_⟩
  · intro line head
    cases head
    exact Nat.le_refl level
  · exact List.forall_mem_cons.mpr ⟨Nat.le_refl level, smooth.stays⟩
  · exact List.isChain_cons.mpr ⟨fun next head => smooth.enters next head, smooth.gentle⟩

theorem optional (level : Nat) (text : Option String) : Smooth level level (optionalTrace (.line level) text) := by
  cases text with
  | none => exact silent rfl
  | some text => exact line level text

-- The header of parameters is the only line of theirs that may follow a line above.
theorem parameters (level : Nat) (vs : List Variable) : Smooth level level (parametersTrace level vs) := by
  cases vs with
  | nil => exact silent rfl
  | cons v vs =>
    have below : ∀ line ∈ (v :: vs).map fun v => (⟨level + 1, v.parameterText⟩ : Line), line.level = level + 1 := by
      simp
    refine ⟨?_, ?_, ?_⟩
    · intro line head
      cases head
      exact Nat.le_refl level
    · intro line member
      rcases List.mem_cons.mp member with rfl | listed
      · exact Nat.le_refl level
      · exact Nat.le_of_lt (below line listed ▸ Nat.lt_succ_self level)
    · refine List.isChain_cons.mpr ⟨fun next head => Nat.le_of_eq (below next (List.mem_of_head? head)), ?_⟩
      refine List.Pairwise.isChain (List.pairwise_of_forall_mem_list fun line member next follows => ?_)
      rw [below line member, below next follows]
      exact Nat.le_succ _

end Trace.Smooth

open Trace (Smooth)

namespace Outline

end Outline

-- What a build prints into a sink that takes everything, if it can pad all lines.
theorem Build.print_unlimited {build : Build} {trace : Trace}
    (reaches : ∀ line ∈ trace.lines, build.Reaches line.level) (refusal : Refusal) :
    build.print (Sink.new none refusal) trace =
      (⟨none, refusal, trace.bytes.toArray, 0⟩, .returned trace.outcome) := by
  rw [print_of_reaches reaches, Sink.print_unlimited]

theorem Build.Reaches.mono {build : Build} {level below : Depth} (reaches : build.Reaches below) (above : level ≤ below) :
    build.Reaches level := by
  have less : Line.indentWidth * level ≤ Line.indentWidth * below := Nat.mul_le_mul_left _ above
  exact ⟨Nat.le_trans less reaches.narrow, Nat.lt_of_le_of_lt less reaches.word⟩

end Treeline
