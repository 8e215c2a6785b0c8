import Treeline.Command.Host

namespace Treeline

-- The files that a run can see, and where what it writes comes to.

inductive Target (ι : Type)
  | file (place : ι)
  | device (place : ι)
  | standardOutput
deriving DecidableEq, Repr

-- What can be seen of a system: its files, and what has come to standard output. Files are told apart by their places.
-- A place may have many names, or none any more.
structure View (ι : Type) where
  files : ι → Option Bytes
  output : Bytes

namespace View

variable {ι : Type} [DecidableEq ι]

def opened (target : Target ι) (view : View ι) : View ι :=
  match target with
  | .file place => { view with files := fun other => if other = place then some [] else view.files other }
  | .device _ | .standardOutput => view

def received (target : Target ι) (bytes : Bytes) (view : View ι) : View ι :=
  match target with
  | .file place =>
    { view with files := fun other =>
        if other = place then (view.files place).map (· ++ bytes) else view.files other }
  | .device _ => view
  | .standardOutput => { view with output := view.output ++ bytes }

theorem received_nil (target : Target ι) (view : View ι) : view.received target [] = view := by
  cases target with
  | file place =>
    refine congrArg (View.mk · view.output) (funext fun other => ?_)
    by_cases same : other = place
    · rw [if_pos same, same]
      simp
    · rw [if_neg same]
  | device place => rfl
  | standardOutput => exact congrArg (View.mk view.files) (List.append_nil _)

theorem received_received (target : Target ι) (first second : Bytes) (view : View ι) :
    (view.received target first).received target second = view.received target (first ++ second) := by
  cases target with
  | file place =>
    refine congrArg (View.mk · view.output) (funext fun other => ?_)
    by_cases same : other = place
    · rw [if_pos same, if_pos same]
      simp [received, Function.comp_def]
    · simp [received, same]
  | device place => rfl
  | standardOutput => exact congrArg (View.mk view.files) (List.append_assoc _ _ _)

theorem received_opened_file (place : ι) (bytes : Bytes) (view : View ι) :
    (view.opened (.file place)).received (.file place) bytes =
      { view with files := fun other => if other = place then some bytes else view.files other } := by
  refine congrArg (View.mk · view.output) (funext fun other => ?_)
  by_cases same : other = place
  · rw [if_pos same, if_pos same]
    simp [opened]
  · rw [if_neg same, if_neg same]
    exact if_neg same

end View

def takenBytes : Except IoFault Nat → Nat
  | .ok count => count
  | .error _ => 0

-- Of what was under way to an output and what has been added, some has arrived, in order, and the rest is under way.
def Moved {σ ι : Type} [DecidableEq ι] (view : σ → View ι) (pending : σ → Target ι → Bytes) (target : Target ι)
    (added : Bytes) (before after : σ) : Prop :=
  ∃ arrived, arrived ++ pending after target = pending before target ++ added ∧
    view after = (view before).received target arrived

-- A file system. What the names lead to, what can be read or made, when a write is refused and how long bytes are under
-- way is all its own affair. An output that cannot be opened leaves everything as it was, a file that is opened becomes
-- empty, and what is written comes to the output that it is written to.
structure FileSystem (σ ι : Type) [DecidableEq ι] where
  view : σ → View ι
  pending : σ → Target ι → Bytes
  read : σ → String → Except IoFault Bytes
  create : σ → String → Except IoFault (Target ι × σ)
  write : σ → Target ι → Bytes → Except IoFault Nat × σ
  flush : σ → Target ι → Option IoFault × σ
  view_create : ∀ {state path target after},
    create state path = .ok (target, after) → view after = (view state).opened target
  pending_create : ∀ {state path target after}, create state path = .ok (target, after) → pending after = pending state
  moved_write : ∀ state target piece,
    Moved view pending target (piece.take (takenBytes (write state target piece).1)) state (write state target piece).2
  moved_flush : ∀ state target, Moved view pending target [] state (flush state target).2
  pending_flush : ∀ {state target after}, flush state target = (none, after) → pending after target = []

namespace Command

structure Outcome (σ : Type) where
  exitCode : UInt32
  notices : List Notice
  state : σ

end Command

namespace FileSystem

variable {σ ι : Type} [DecidableEq ι] (system : FileSystem σ ι)

-- The system as the surroundings of a run, with all that has been said.
def host : Command.Host (StateM (σ × List Command.Notice)) (Target ι) where
  read path := fun (state, said) => (system.read state path, state, said)
  create path := fun (state, said) =>
    match system.create state path with
    | .ok (target, after) => (.ok target, after, said)
    | .error fault => (.error fault, state, said)
  standardOutput := pure .standardOutput
  write target piece := fun (state, said) =>
    let (answer, after) := system.write state target piece
    (answer, after, said)
  flush target := fun (state, said) =>
    let (answer, after) := system.flush state target
    (answer, after, said)
  say notice := fun (state, said) => ((), state, said ++ [notice])
  mark _ := pure ()

def readTree (state : σ) (path : String) : Except Error Statement := Statement.load path (system.read state path)

def openOutput (state : σ) (output : Option String) : Except IoFault (Target ι × σ) :=
  match output with
  | some path => system.create state path
  | none => .ok (.standardOutput, state)

def run (options : Command.Options) (state : σ) : Command.Outcome σ :=
  let (exitCode, after, said) := Command.execute system.host options (state, [])
  ⟨exitCode, said, after⟩

end FileSystem

end Treeline
