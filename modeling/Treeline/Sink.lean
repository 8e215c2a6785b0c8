import Treeline.Error
import Treeline.Trace.Basic

namespace Treeline

inductive Refusal
  | closed
  | interrupted
  | nothingTaken
  | full
  | noSpace
deriving DecidableEq, Repr

def Refusal.fault : Refusal → IoFault
  | .closed | .interrupted => .sinkClosed
  | .nothingTaken => .nothingTaken
  | .full => .diskFull
  | .noSpace => .noSpace

-- Takes bytes up to a limit, if it has one, and remembers how often it refused some.
structure Sink where
  limit : Option Nat
  refusal : Refusal
  held : Array UInt8
  refusals : Nat

namespace Sink

def new (limit : Option Nat) (refusal : Refusal) : Sink := ⟨limit, refusal, #[], 0⟩

def bytes (sink : Sink) : Bytes := sink.held.toList

def room (sink : Sink) (count : Nat) : Nat :=
  match sink.limit with
  | none => count
  | some limit => min count (limit - sink.held.size)

-- One write: what there is room for is taken, and anything more is refused.
def write (sink : Sink) (piece : Bytes) : Sink × Except IoFault Unit :=
  let taken := sink.room piece.length
  let after := { sink with held := sink.held ++ piece.take taken }
  if taken = piece.length then (after, .ok ())
  else ({ after with refusals := after.refusals + 1 }, .error sink.refusal.fault)

theorem room_le (sink : Sink) (count : Nat) : sink.room count ≤ count := by
  unfold room
  split
  · exact Nat.le_refl _
  · exact Nat.min_le_left _ _

def writeAll (sink : Sink) : List Bytes → Sink × Except IoFault Unit
  | [] => (sink, .ok ())
  | piece :: pieces =>
    match sink.write piece with
    | (after, .ok ()) => after.writeAll pieces
    | (after, .error fault) => (after, .error fault)

-- A trace written line by line. A refusal ends the pass; the missing child is met only behind the last line.
def print (sink : Sink) (trace : Trace) : Sink × Except Error Unit :=
  match sink.writeAll (trace.lines.flatMap Line.pieces) with
  | (after, .error fault) => (after, .error (.io fault))
  | (after, .ok ()) =>
    match trace.missing with
    | none => (after, .ok ())
    | some missing => (after, .error (.structural missing))

end Sink

end Treeline
