import Treeline.Command.Host

namespace Treeline.Command

-- The command on a real disk. All decisions are made by the library; here files are opened, bytes are moved and times
-- are taken.

-- Some calls give the code of the system, others its negation as a word.
def osFault : IO.Error → IoFault
  | .noFileOrDirectory .. => .notFound
  | .inappropriateType _ 20 _ | .inappropriateType _ 4294967276 _ => .notADirectory
  | .inappropriateType _ 21 _ | .inappropriateType _ 4294967275 _ => .isADirectory
  | .resourceExhausted _ 28 _ => .noSpace
  | other => .other other.toString

def attempt {α : Type} (action : IO α) : IO (Except IoFault α) := do
  match ← action.toBaseIO with
  | .ok value => return .ok value
  | .error error => return .error (osFault error)

def secondsText (milliseconds : Nat) : String :=
  let places := toString (milliseconds % 1000)
  toString (milliseconds / 1000) ++ "." ++ String.ofList (List.replicate (3 - places.length) '0') ++ places

-- How long each phase took, given when each came to its end.
def elapsed (started : Nat) (ended : Phase → Nat) : Phase → Nat
  | .loading => ended .loading - started
  | .rendering => ended .rendering - ended .loading
  | .counting => ended .counting - ended .rendering
  | .total => ended .counting - started

-- The system that the command runs on. What is written is flushed at once, so that its answer counts for all of it.
def systemHost (started : Nat) (ends : IO.Ref (Phase → Nat)) : Host IO IO.FS.Stream where
  read path := attempt (ByteArray.toList <$> IO.FS.readBinFile path)
  create path := attempt (IO.FS.Stream.ofHandle <$> IO.FS.Handle.mk path .write)
  standardOutput := IO.getStdout
  write out piece := attempt do
    out.write ⟨piece.toArray⟩
    out.flush
    return piece.length
  flush out := do
    match ← attempt out.flush with
    | .ok () => return none
    | .error fault => return some fault
  say notice := do
    let ended ← ends.get
    (← IO.getStderr).putStr (notice.text fun phase => secondsText (elapsed started ended phase))
  mark phase := do
    let now ← IO.monoMsNow
    ends.modify fun ended other => if other = phase then now else ended other

def perform (options : Options) : IO UInt32 := do
  let started ← IO.monoMsNow
  let ends ← IO.mkRef fun _ => started
  execute (systemHost started ends) options

end Treeline.Command

open Treeline.Command in
def main (arguments : List String) : IO UInt32 := do
  match respond perform arguments with
  | .usage error =>
    (← IO.getStderr).putStr (error.message ++ "\n")
    return 2
  | .text text =>
    (← IO.getStdout).putStr text
    return 0
  | .ran exitCode => exitCode
