import Treeline.Padding
import Treeline.Proofs.Sink

namespace Treeline

-- As far as a build can pad its lines, it prints what there is to print; the first line beyond that ends the program.

namespace Sink

theorem writeAll_append (sink : Sink) (first second : List Bytes) :
    sink.writeAll (first ++ second) =
      match sink.writeAll first with
      | (after, .ok ()) => after.writeAll second
      | (after, .error fault) => (after, .error fault) := by
  induction first generalizing sink with
  | nil => rfl
  | cons piece pieces ih =>
    rw [List.cons_append, writeAll, writeAll]
    rcases sink.write piece with ⟨after, fault | ⟨⟨⟩⟩⟩
    · rfl
    · exact ih after

end Sink

namespace Build

-- A level at which lines are padded as they are to be.
structure Reaches (build : Build) (level : Depth) : Prop where
  narrow : Line.indentWidth * level ≤ build.widest
  word : Line.indentWidth * level < UInt64.size

variable {build : Build}

theorem padding?_of_reaches {level : Depth} (reaches : build.Reaches level) :
    build.padding? level = some (Line.indentWidth * level) := by
  simp only [padding?, build.overflow.word?_of_lt reaches.word, UInt64.toNat_ofNat_of_lt' reaches.word,
    if_pos reaches.narrow]

theorem writeLines_of_reaches {lines : List Line} (reaches : ∀ line ∈ lines, build.Reaches line.level) (sink : Sink) :
    build.writeLines sink lines =
      match sink.writeAll (lines.flatMap Line.pieces) with
      | (after, .ok ()) => (after, .ok ())
      | (after, .error fault) => (after, .error (.returned (.error (.io fault)))) := by
  induction lines generalizing sink with
  | nil => rfl
  | cons line lines ih =>
    obtain ⟨first, others⟩ := List.forall_mem_cons.mp reaches
    rw [List.flatMap_cons, Sink.writeAll_append, writeLines, padding?_of_reaches first, Line.pieces]
    simp only []
    rcases sink.writeAll (Line.padded (Line.indentWidth * line.level) line.text) with ⟨after, fault | ⟨⟨⟩⟩⟩
    · rfl
    · exact ih others after

theorem print_of_reaches {trace : Trace} (reaches : ∀ line ∈ trace.lines, build.Reaches line.level) (sink : Sink) :
    build.print sink trace = ((sink.print trace).1, .returned (sink.print trace).2) := by
  rw [print, Sink.print, writeLines_of_reaches reaches]
  rcases sink.writeAll (trace.lines.flatMap Line.pieces) with ⟨after, fault | ⟨⟨⟩⟩⟩
  · rfl
  · cases trace.missing <;> rfl

end Build

end Treeline
