import Treeline.Command.File
import Treeline.Command.Help
import Treeline.Command.Report
import Treeline.Trace.Render

namespace Treeline.Command

-- A run of the command: load the tree, open the output, print, count if statistics are asked for, report.

-- What a run asks of the system around it. Outputs are held by handles.
structure Host (m : Type → Type) (ω : Type) where
  read : String → m (Except IoFault Bytes)
  create : String → m (Except IoFault ω)
  standardOutput : m ω
  -- Offers some bytes, of which as many are taken as the answer says.
  write : ω → Bytes → m (Except IoFault Nat)
  flush : ω → m (Option IoFault)
  say : Notice → m Unit
  mark : Phase → m Unit

def bufferSize : Nat := 8192

namespace Host

variable {m : Type → Type} {ω : Type} [Monad m] (host : Host m ω)

-- Writes what has been gathered, up to the first refusal, and gives back what is left of it.
def drain (out : ω) : Bytes → m (Bytes × Option IoFault)
  | [] => pure ([], none)
  | byte :: rest => do
    match ← host.write out (byte :: rest) with
    | .error fault => pure (byte :: rest, some fault)
    | .ok 0 => pure (byte :: rest, some .bufferNotTaken)
    | .ok (more + 1) => drain out (rest.drop more)
termination_by held => held.length
decreasing_by
  rw [List.length_drop, List.length_cons]
  omega

-- Takes a piece behind what has been gathered. A piece as long as the buffer is written past it.
def put (out : ω) (held : Array UInt8) (piece : Bytes) : m (Array UInt8 × Option IoFault) := do
  if piece.length < bufferSize ∧ held.size + piece.length ≤ bufferSize then
    pure (held ++ piece, none)
  else
    match ← host.drain out held.toList with
    | (left, some fault) => pure (left.toArray, some fault)
    | (_, none) =>
      if _short : piece.length < bufferSize then pure (piece.toArray, none)
      else
        match ← host.write out piece with
        | .error fault => pure (#[], some fault)
        | .ok 0 => pure (#[], some .nothingTaken)
        | .ok (more + 1) => put out #[] (piece.drop (more + 1))
termination_by piece.length
decreasing_by
  rw [List.length_drop]
  unfold bufferSize at _short
  omega

def putAll (out : ω) (held : Array UInt8) : List Bytes → m (Array UInt8 × Option IoFault)
  | [] => pure (held, none)
  | piece :: pieces => do
    match ← host.put out held piece with
    | (gathered, none) => putAll out gathered pieces
    | (left, some fault) => pure (left, some fault)

-- Writes what has been gathered to its end. What is refused is tried once more when the buffer is given up.
def close (out : ω) (gathered : Bytes) : m (Option IoFault) := do
  let (left, unwritten) ← host.drain out gathered
  let unflushed ← match unwritten with
    | some fault => pure (some fault)
    | none => host.flush out
  let _ ← host.drain out left
  return unflushed

def firstFailure (refused : Option IoFault) (missing : Option Missing) (unflushed : Option IoFault) : Option Error :=
  match refused, missing with
  | some fault, _ => some (.io fault)
  | none, some missing => some (.structural missing)
  | none, none => unflushed.map .io

-- Prints a trace through the buffer. Whatever ends the printing, what has been gathered is written.
def print (out : ω) (trace : Trace) : m Printing := do
  let (gathered, refused) ← host.putAll out #[] (trace.lines.flatMap Line.pieces)
  let unflushed ← host.close out gathered.toList
  return ⟨trace.bytes, firstFailure refused trace.missing unflushed⟩

def sayAll : List Notice → m Unit
  | [] => pure ()
  | notice :: notices => do
    host.say notice
    sayAll notices

def fail (error : Error) : m UInt32 := do
  host.say (.failed error)
  return 1

-- The tree in a file. A file with another extension is not opened.
def load (path : String) : m (Except Error Statement) := do
  let contents ← if isDocumentFile path then host.read path else pure (.ok [])
  return Statement.load path contents

def openOutput (output : Option String) : m (Except IoFault ω) :=
  match output with
  | some path => host.create path
  | none => do return .ok (← host.standardOutput)

end Host

-- A whole run, up to its exit code. The output is opened only once the tree is loaded.
def execute {m : Type → Type} {ω : Type} [Monad m] (host : Host m ω) (options : Options) : m UInt32 := do
  match ← host.load options.path with
  | .error error => host.fail error
  | .ok tree =>
    host.mark .loading
    host.sayAll (Report.notice options.verbose (.loaded options.path))
    match ← host.openOutput options.output with
    | .error fault => host.fail (.io fault)
    | .ok out =>
      let printing ← host.print out (tree.render Depth.root)
      host.mark .rendering
      let report := reportPrinting options tree printing
      host.mark .counting
      host.sayAll report.allNotices
      return report.exitCode

inductive Response (α : Type)
  | usage (error : UsageError)
  | text (text : String)
  | ran (result : α)

def respond {α : Type} (run : Options → α) (arguments : List String) : Response α :=
  match Options.read arguments with
  | .error (.usage error) => .usage error
  | .error (.help long) => .text (helpText long)
  | .error .version => .text versionText
  | .ok options => .ran (run options)

end Treeline.Command
