import Treeline.Build
import Treeline.Sink

namespace Treeline

-- Printing with the paddings of a build. A line that stands too deep for them ends the program before it is written.

def Build.padding? (build : Build) (level : Depth) : Option Nat :=
  match build.overflow.word? (Line.indentWidth * level) with
  | none => none
  | some width => if width.toNat ≤ build.widest then some width.toNat else none

-- How a program comes back from printing, if it does.
inductive Ending
  | returned (result : Except Error Unit)
  | aborted

def Build.writeLines (build : Build) (sink : Sink) : List Line → Sink × Except Ending Unit
  | [] => (sink, .ok ())
  | line :: lines =>
    match build.padding? line.level with
    | none => (sink, .error .aborted)
    | some width =>
      match sink.writeAll (Line.padded width line.text) with
      | (after, .ok ()) => build.writeLines after lines
      | (after, .error fault) => (after, .error (.returned (.error (.io fault))))

def Build.print (build : Build) (sink : Sink) (trace : Trace) : Sink × Ending :=
  match build.writeLines sink trace.lines with
  | (after, .error ending) => (after, ending)
  | (after, .ok ()) =>
    match trace.missing with
    | none => (after, .returned (.ok ()))
    | some missing => (after, .returned (.error (.structural missing)))

end Treeline
