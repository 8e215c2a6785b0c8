import Treeline.Command.Run
import Treeline.Proofs.Execution
import Treeline.Proofs.RoundTrip
import Treeline.Proofs.Storage

namespace Treeline

-- Runs on a disk, where regular files and standard output take everything.

-- What a device or a file holds once bytes have been written to it from its beginning.
def DiskEntry.receive (bytes : Bytes) : DiskEntry → DiskEntry
  | .nullDevice => .nullDevice
  | .fullDevice => .fullDevice
  | .outputDevice => .outputDevice
  | .file _ | .directory => .file bytes

def DiskEntry.isDevice : DiskEntry → Bool
  | .nullDevice | .fullDevice | .outputDevice => true
  | .file _ | .directory => false

-- A disk on which `path`, which names `location`, has been written anew and nothing else has changed.
structure Disk.Rewritten (before : Disk) (path : String) (location : Location) (bytes : Bytes) (after : Disk) :
    Prop where
  received : after.lookup? location = some (((before.lookup? location).getD (.file [])).receive bytes)
  untouched : ∀ other, other ≠ location → after.lookup? other = before.lookup? other
  reread : (before.lookup? location).any DiskEntry.isDevice = false → after.read path = .ok bytes

namespace Disk

theorem store_store (disk : Disk) (location : Location) (first second : Bytes) :
    (disk.store location first).store location second = disk.store location second := by
  simp [store]

theorem contents?_store_self (disk : Disk) (location : Location) (contents : Bytes) :
    (disk.store location contents).contents? location = some contents := by
  rw [contents?_store]
  exact if_pos rfl

theorem read_of_lookup {disk : Disk} {path : String} {location : Location} {bytes : Bytes}
    (filled : path.isEmpty = false) (ends : endsInSlash path = false)
    (walked : disk.walk (start path) (names path) = .ok location)
    (found : disk.lookup? location = some (.file bytes)) : disk.read path = .ok bytes := by
  simp only [read, filled, walked, bind, Except.bind, found, ends, Bool.false_eq_true, if_false]

theorem readTree_of_parse {disk : Disk} {path source : String} {tree : Statement}
    (named : isDocumentFile path = true) (held : disk.read path = .ok (Bytes.ofText source))
    (parsed : Statement.parse source = .ok tree) : disk.readTree path = .ok tree := by
  have opened : ∀ read : Bytes → Except Error Statement,
      ((Except.ok (Bytes.ofText source) : Except IoFault Bytes).mapError Error.io >>= read) =
        read (Bytes.ofText source) := fun _ => rfl
  rw [readTree, Statement.load, named, held, if_neg (by decide), opened, Bytes.toText?_ofText]
  exact congrArg (Except.mapError Error.decode) parsed

theorem create_of_lookup {disk : Disk} {path : String} {location : Location} {entry : DiskEntry}
    (filled : path.isEmpty = false) (ends : endsInSlash path = false)
    (walked : disk.walk (start path) (names path) = .ok location) (found : disk.lookup? location = some entry)
    (other : entry ≠ .directory) : disk.create path = .ok (location, entry) := by
  simp only [create, filled, walked, bind, Except.bind, found, ends, Bool.false_eq_true, if_false]
  cases entry with
  | directory => exact absurd rfl other
  | file | fullDevice | nullDevice | outputDevice => rfl

theorem rewritten_store {disk : Disk} {path : String} {location : Location} {contents : Bytes}
    (writable : disk.Writable path location (.file contents)) (bytes : Bytes) :
    disk.Rewritten path location bytes (disk.store location bytes) := by
  refine ⟨?_, fun other distinct => lookup?_store_of_ne writable.reached distinct bytes, fun _ => ?_⟩
  · rw [← writable.entry_eq, lookup?_store_self]
    rfl
  · have walked := walk_store writable.reached writable.noDirectory bytes writable.walked
    exact read_of_lookup writable.named writable.ends walked (disk.lookup?_store_self location bytes)

theorem lookup?_of_writable {disk : Disk} {path : String} {location : Location} {entry : DiskEntry}
    (writable : disk.Writable path location entry) (device : entry.isDevice = true) :
    disk.lookup? location = some entry := by
  have same := writable.entry_eq
  cases held : disk.lookup? location with
  | none =>
    rw [held] at same
    rw [same] at device
    cases device
  | some other => rw [same, held, Option.getD_some]

theorem rewritten_device {disk : Disk} {path : String} {location : Location} {entry : DiskEntry}
    (writable : disk.Writable path location entry) (device : entry.isDevice = true) (bytes : Bytes) :
    disk.Rewritten path location bytes disk := by
  have found := lookup?_of_writable writable device
  refine ⟨?_, fun _ _ => rfl, fun other => ?_⟩
  · rw [found]
    cases entry <;> first | rfl | cases device
  · rw [found, Option.any_some, device] at other
    cases other

-- Where writing to an output leads.

theorem sending_file {disk : Disk} {location : Location} {output sent : Bytes} {state : Session}
    (sending : system.Sending (.file location) ⟨disk.store location [], output⟩ sent state) :
    state = ⟨disk.store location sent, output⟩ := by
  induction sending with
  | start => rfl
  | write piece _ ih =>
    subst ih
    simp [system, Session.write, contents?_store_self, store_store, takenBytes]
  | flush _ ih => exact ih

theorem sending_standardOutput {disk : Disk} {output sent : Bytes} {state : Session}
    (sending : system.Sending .standardOutput ⟨disk, output⟩ sent state) : state = ⟨disk, output ++ sent⟩ := by
  induction sending with
  | start => rw [List.append_nil]
  | write piece _ ih =>
    subst ih
    simp [system, Session.write, takenBytes]
  | flush _ ih => exact ih

theorem sending_device {location : Location} {start state : Session} {sent : Bytes}
    (sending : system.Sending (.device location) start sent state) : state = start := by
  induction sending with
  | start => rfl
  | write piece _ ih => exact ih
  | flush _ ih => exact ih

theorem sending_fullDevice {location : Location} {start state : Session} {sent : Bytes}
    (full : start.disk.lookup? location = some .fullDevice)
    (sending : system.Sending (.device location) start sent state) : sent = [] := by
  induction sending with
  | start => rfl
  | write piece before ih =>
    subst ih
    rw [sending_device before]
    simp [system, Session.write, full, takenBytes]
  | flush _ ih => exact ih

-- Only the full device refuses anything.
theorem takes {target : Target Location} {start : Session}
    (roomy : ∀ location, target = .device location → start.disk.lookup? location ≠ some .fullDevice) (bytes : Bytes) :
    system.Takes target start bytes where
  write {sent state} piece sending filled _ := by
    have all : (system.write state target piece).1 = .ok piece.length := by
      cases target with
      | standardOutput => rfl
      | device location =>
        rw [sending_device sending]
        exact if_neg (roomy location rfl)
      | file location =>
        simp only [system, Session.write]
        split <;> rfl
    cases piece with
    | nil => exact absurd rfl filled
    | cons byte rest => exact ⟨rest.length, all⟩
  flush _ := rfl

-- A disk that holds a document in its working directory.

def isDocumentName (path : String) : Bool :=
  !path.isEmpty && !endsInSlash path && isDocumentFile path && start path == [] && names path == [path] &&
    advance [] path == [path]

section Document

variable {path : String} (named : isDocumentName path = true) {others : Disk}
  (top : ∀ entry ∈ others, entry.1 ≠ [])
include named top

theorem walk_document (entry : DiskEntry) :
    walk (([path], entry) :: others) (start path) (names path) = .ok [path] := by
  simp only [isDocumentName, Bool.and_eq_true, beq_iff_eq] at named
  have looked : lookup? (([path], entry) :: others) [] = some .directory := by
    unfold lookup?
    rw [List.find?_cons_of_neg (by simp), List.find?_eq_none.mpr (by simpa using top)]
    rfl
  rw [named.1.1.2, named.1.2, walk, looked]
  exact congrArg Except.ok named.2

theorem create_document (bytes : Bytes) :
    create (([path], .file bytes) :: others) path = .ok ([path], .file bytes) := by
  have walked := walk_document named top (.file bytes)
  simp only [isDocumentName, Bool.and_eq_true, Bool.not_eq_true'] at named
  exact create_of_lookup named.1.1.1.1.1 named.1.1.1.1.2 walked (by simp [lookup?]) (by simp)

theorem readTree_document {tree : Statement} (bare : tree.doubles = [])
    (shallow : tree.toDocument.nesting ≤ Document.nestingLimit) :
    readTree (([path], .file (Bytes.ofText tree.text)) :: others) path = .ok tree := by
  have walked := walk_document named top (.file (Bytes.ofText tree.text))
  simp only [isDocumentName, Bool.and_eq_true, Bool.not_eq_true'] at named
  have held : read (([path], .file (Bytes.ofText tree.text)) :: others) path = .ok (Bytes.ofText tree.text) :=
    read_of_lookup named.1.1.1.1.1 named.1.1.1.1.2 walked (by simp [lookup?])
  refine readTree_of_parse named.1.1.1.2 held (Statement.parse_text_of_restored (bare ▸ List.forall_mem_nil _) ?_)
  rwa [Statement.text, bracketDepth_text]

end Document

end Disk

theorem Session.create_eq {disk : Disk} {path : String} {location : Location} {entry : DiskEntry} {output : Bytes}
    (created : disk.create path = .ok (location, entry)) :
    Session.create ⟨disk, output⟩ path = .ok (match entry with
      | .outputDevice => (.standardOutput, ⟨disk, output⟩)
      | .fullDevice | .nullDevice => (.device location, ⟨disk, output⟩)
      | .file _ | .directory => (.file location, ⟨disk.store location [], output⟩)) := by
  unfold Session.create
  simp only [created]
  cases entry <;> rfl

namespace Command

variable {options : Options} {disk : Disk} {tree : Statement}

theorem run_opened (loaded : disk.readTree options.path = .ok tree) {target : Target Location} {opened : Session}
    (found : Disk.system.openOutput ⟨disk, []⟩ options.output = .ok (target, opened))
    (roomy : ∀ location, target = .device location → opened.disk.lookup? location ≠ some .fullDevice) :
    Disk.system.Sending target opened (tree.render Depth.root).bytes (run options disk).state ∧
      (run options disk).Answers options.timing tree := by
  have read : Disk.system.readTree ⟨disk, []⟩ options.path = .ok tree := loaded
  obtain ⟨sending, -, answers⟩ := FileSystem.delivered_run read found (.inr (Disk.takes roomy _))
  exact ⟨sending, answers⟩

theorem run_standardOutput (loaded : disk.readTree options.path = .ok tree) (chosen : options.output = none) :
    (run options disk).output = (tree.render Depth.root).bytes ∧ (run options disk).disk = disk ∧
      (run options disk).Answers options.timing tree := by
  have found : Disk.system.openOutput ⟨disk, []⟩ options.output = .ok (.standardOutput, ⟨disk, []⟩) := by
    rw [chosen]
    rfl
  obtain ⟨sending, answers⟩ := run_opened loaded found (by simp)
  have final := Disk.sending_standardOutput sending
  exact ⟨congrArg Session.output final, congrArg Session.disk final, answers⟩

theorem run_outputFile {path : String} {location : Location} {entry : DiskEntry}
    (loaded : disk.readTree options.path = .ok tree) (chosen : options.output = some path)
    (created : disk.create path = .ok (location, entry)) (roomy : entry ≠ .fullDevice) :
    disk.Rewritten path location (tree.render Depth.root).bytes (run options disk).disk ∧
      (run options disk).Answers options.timing tree := by
  have writable := Disk.writable_of_create created
  have opens : Disk.system.openOutput ⟨disk, []⟩ options.output = Session.create ⟨disk, []⟩ path := by
    rw [chosen]
    rfl
  rw [Session.create_eq created] at opens
  cases entry with
  | fullDevice => exact absurd rfl roomy
  | nullDevice =>
    have other : disk.lookup? location ≠ some .fullDevice := by
      rw [Disk.lookup?_of_writable writable rfl]
      simp
    obtain ⟨sending, answers⟩ := run_opened loaded opens (by rintro _ ⟨⟩; exact other)
    refine ⟨?_, answers⟩
    rw [Outcome.disk, Disk.sending_device sending]
    exact Disk.rewritten_device writable rfl _
  | outputDevice =>
    obtain ⟨sending, answers⟩ := run_opened loaded opens (by simp)
    refine ⟨?_, answers⟩
    rw [Outcome.disk, Disk.sending_standardOutput sending]
    exact Disk.rewritten_device writable rfl _
  | file contents =>
    obtain ⟨sending, answers⟩ := run_opened loaded opens (by simp)
    refine ⟨?_, answers⟩
    rw [Outcome.disk, Disk.sending_file sending]
    exact Disk.rewritten_store writable _
  | directory =>
    have entry := writable.entry_eq
    have noDirectory := writable.noDirectory
    cases found : disk.lookup? location <;> simp_all

-- Nothing can be printed to the full device.
theorem exitCode_run_fullDevice {path : String} {location : Location} (loaded : disk.readTree options.path = .ok tree)
    (chosen : options.output = some path) (created : disk.create path = .ok (location, .fullDevice)) :
    (run options disk).exitCode ≠ 0 := by
  intro succeeded
  have writable := Disk.writable_of_create created
  have full : disk.lookup? location = some .fullDevice := Disk.lookup?_of_writable writable rfl
  have read : Disk.system.readTree ⟨disk, []⟩ options.path = .ok tree := loaded
  have found : Disk.system.openOutput ⟨disk, []⟩ options.output = .ok (.device location, ⟨disk, []⟩) := by
    rw [chosen]
    exact Session.create_eq created
  obtain ⟨sending, -⟩ := FileSystem.delivered_run read found (.inl succeeded)
  exact (Node.statement tree).bytes_render_ne_nil Depth.root (Disk.sending_fullDevice full sending)

-- A successful run has found room for its trace.
theorem exists_created {path : String} (loaded : disk.readTree options.path = .ok tree)
    (succeeded : (run options disk).exitCode = 0) (chosen : options.output = some path) :
    ∃ location entry, disk.create path = .ok (location, entry) ∧ entry ≠ .fullDevice := by
  cases created : disk.create path with
  | error fault =>
    have read : Disk.system.readTree ⟨disk, []⟩ options.path = .ok tree := loaded
    have unopened : Disk.system.openOutput ⟨disk, []⟩ options.output = .error fault := by
      rw [chosen]
      simp only [FileSystem.openOutput, Disk.system, Session.create, created]
    have ended : run options disk = _ := FileSystem.run_unopened read unopened
    rw [ended] at succeeded
    cases succeeded
  | ok place =>
    obtain ⟨location, entry⟩ := place
    refine ⟨location, entry, rfl, ?_⟩
    rintro rfl
    exact exitCode_run_fullDevice loaded chosen created succeeded

end Command

end Treeline
