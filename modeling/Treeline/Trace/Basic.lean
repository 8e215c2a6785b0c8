import Treeline.Trace.Line
import Treeline.Tree.Slot

namespace Treeline

-- What a printing pass puts out: its lines, and the missing child at which it stopped, if it did.
structure Trace where
  lines : List Line
  missing : Option Missing
deriving DecidableEq, Repr

namespace Trace

def empty : Trace := ⟨[], none⟩

def line (level : Nat) (text : String) : Trace := ⟨[⟨level, text⟩], none⟩

def stop (missing : Missing) : Trace := ⟨[], some missing⟩

-- One trace after another; nothing follows a stop.
def append (first second : Trace) : Trace :=
  match first.missing with
  | some _ => first
  | none => ⟨first.lines ++ second.lines, second.missing⟩

instance : Append Trace := ⟨append⟩

theorem append_def (first second : Trace) : first ++ second = first.append second := rfl

theorem empty_append (trace : Trace) : empty ++ trace = trace := rfl

theorem append_empty (trace : Trace) : trace ++ empty = trace := by
  obtain ⟨lines, missing⟩ := trace
  cases missing <;> simp [append_def, append, empty]

theorem append_assoc (first second third : Trace) : first ++ second ++ third = first ++ (second ++ third) := by
  obtain ⟨lines, missing⟩ := first
  obtain ⟨lines', missing'⟩ := second
  cases missing <;> cases missing' <;> simp [append_def, append]

def createPrefix : String := "Create "

def endPrefix : String := "End "

def parametersMarker : String := "Parameters:"

def argumentsMarker : String := "Arguments are:"

def loopBodyMarker : String := "Create Loop Body"

def elseBodyMarker : String := "Create Else Body"

def create (level : Nat) (label : String) : Trace := line level (createPrefix ++ label)

def close (level : Nat) (label : String) : Trace := line level (endPrefix ++ label)

def bytes (trace : Trace) : Bytes := trace.lines.flatMap Line.bytes

end Trace

end Treeline
