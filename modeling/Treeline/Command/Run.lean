import Treeline.Command.FileSystem

namespace Treeline

-- A run on a disk of its own. Regular files take whatever is written to them, and so does standard output.

structure Session where
  disk : Disk
  output : Bytes

namespace Session

def view (session : Session) : View Location := ⟨session.disk.contents?, session.output⟩

def create (session : Session) (path : String) : Except IoFault (Target Location × Session) :=
  match session.disk.create path with
  | .error fault => .error fault
  | .ok (_, .outputDevice) => .ok (.standardOutput, session)
  | .ok (location, .fullDevice) | .ok (location, .nullDevice) => .ok (.device location, session)
  | .ok (location, .file _) | .ok (location, .directory) =>
    .ok (.file location, { session with disk := session.disk.store location [] })

def write (session : Session) (target : Target Location) (piece : Bytes) : Except IoFault Nat × Session :=
  match target with
  | .standardOutput => (.ok piece.length, { session with output := session.output ++ piece })
  | .device location =>
    (if session.disk.lookup? location = some .fullDevice then .error .noSpace else .ok piece.length, session)
  | .file location =>
    match session.disk.contents? location with
    | some contents => (.ok piece.length, { session with disk := session.disk.store location (contents ++ piece) })
    | none => (.ok piece.length, session)

theorem view_create {session after : Session} {path : String} {target : Target Location}
    (created : session.create path = .ok (target, after)) : after.view = session.view.opened target := by
  unfold create at created
  split at created <;> cases created
  all_goals first | rfl | exact congrArg (View.mk · session.output) (Disk.contents?_store _ _ _)

theorem view_write (session : Session) (target : Target Location) (piece : Bytes) :
    (session.write target piece).2.view =
      session.view.received target (piece.take (takenBytes (session.write target piece).1)) := by
  cases target with
  | standardOutput => simp [write, view, View.received, takenBytes]
  | device location => rfl
  | file location =>
    unfold write
    cases found : session.disk.contents? location with
    | some contents => simp [view, View.received, takenBytes, Disk.contents?_store, found]
    | none =>
      simp only [view, View.received, found, Option.map_none]
      congr 1
      funext other
      by_cases same : other = location
      · rw [if_pos same, same, found]
      · rw [if_neg same]

end Session

def Disk.system : FileSystem Session Location where
  view := Session.view
  pending _ _ := []
  read session path := session.disk.read path
  create := Session.create
  write := Session.write
  flush session _ := (none, session)
  view_create := Session.view_create
  pending_create _ := rfl
  moved_write session target piece := ⟨_, List.append_nil _, session.view_write target piece⟩
  moved_flush session target := ⟨[], rfl, (View.received_nil target session.view).symm⟩
  pending_flush _ := rfl

namespace Command

def Outcome.disk (outcome : Outcome Session) : Disk := outcome.state.disk

def Outcome.output (outcome : Outcome Session) : Bytes := outcome.state.output

theorem Outcome.view_eq (outcome : Outcome Session) :
    Disk.system.view outcome.state = ⟨outcome.disk.contents?, outcome.output⟩ := rfl

def run (options : Options) (disk : Disk) : Outcome Session := Disk.system.run options ⟨disk, []⟩

end Command

end Treeline
