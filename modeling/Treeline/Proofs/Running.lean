import Treeline.Proofs.Session

namespace Treeline.Command

-- What the command does, on whatever system it runs.

-- All that a run says on standard error, given how long each phase took.
def Outcome.errorText {σ : Type} (seconds : Phase → String) (outcome : Outcome σ) : String :=
  String.join (outcome.notices.map (Notice.text seconds))

theorem join_singleton (text : String) : String.join [text] = text := by
  simp [String.join]

-- What comes to an output comes to it alone.
theorem view_of_sending {σ ι : Type} [DecidableEq ι] {system : FileSystem σ ι} {state opened after : σ}
    {target : Target ι} {output : Option String} {sent : Bytes}
    (idle : ∀ target, system.pending state target = [])
    (found : system.openOutput state output = .ok (target, opened))
    (sending : system.Sending target opened sent after) :
    ∃ arrived, arrived ++ system.pending after target = sent ∧
      system.view after = ((system.view state).opened target).received target arrived := by
  have fresh : system.pending opened target = [] ∧ system.view opened = (system.view state).opened target := by
    cases output with
    | none =>
      cases found
      exact ⟨idle _, rfl⟩
    | some path => exact ⟨(congrFun (system.pending_create found) target).trans (idle target), system.view_create found⟩
  obtain ⟨arrived, parts, seen⟩ := sending.moved
  rw [fresh.1, List.nil_append] at parts
  rw [fresh.2] at seen
  exact ⟨arrived, parts, seen⟩

-- A run puts out what printing into an unlimited sink puts out, at one place, and nothing anywhere else. An output that
-- refuses some of it has got what comes before, and the run does not pass for a success. With no tree, or no place to
-- print to, a run leaves everything as it was.
theorem run_refines_printing {σ ι : Type} [DecidableEq ι] (system : FileSystem σ ι) (options : Options) (state : σ)
    (idle : ∀ target, system.pending state target = []) :
    let ended := system.run options state
    (∀ arguments, Options.read arguments = .ok options → respond (system.run · state) arguments = .ran ended) ∧
    (∀ error, system.readTree state options.path = .error error → ended.Refused state ∧
      ∀ seconds, ended.errorText seconds = "Error: Render failed: " ++ error.message ++ "\n") ∧
    (∀ tree, system.readTree state options.path = .ok tree →
      (∀ fault, system.openOutput state options.output = .error fault → ended.Refused state) ∧
      ∀ target opened, system.openOutput state options.output = .ok (target, opened) →
        let printed := ((Sink.new none .closed).print (tree.render Depth.root)).1.bytes
        let before := (system.view state).opened target
        (∃ arrived, arrived <+: printed ∧ system.view ended.state = before.received target arrived) ∧
        (ended.exitCode = 0 ∨ system.Takes target opened printed →
          system.view ended.state = before.received target printed ∧ ended.Answers options.timing tree)) ∧
    (∀ verbose, (system.run { options with verbose := verbose } state).exitCode = ended.exitCode ∧
      (system.run { options with verbose := verbose } state).state = ended.state) ∧
    ∀ timing, (system.run { options with timing := timing } state).state = ended.state := by
  intro ended
  refine ⟨?_, ?_, ?_, ?_, ?_⟩
  · intro arguments read
    simp only [respond, read, ended]
  · intro error unread
    have ends : ended = _ := FileSystem.run_unloaded unread
    rw [ends]
    exact ⟨⟨rfl, rfl⟩, fun seconds => join_singleton (Notice.text seconds (.failed error))⟩
  · intro tree loaded
    constructor
    · intro fault unopened
      have ends : ended = _ := FileSystem.run_unopened loaded unopened
      rw [ends]
      exact ⟨rfl, rfl⟩
    · intro target opened found printed before
      have bytes : printed = (tree.render Depth.root).bytes :=
        congrArg (fun result => result.1.bytes) (Sink.print_unlimited .closed (tree.render Depth.root))
      rw [bytes]
      constructor
      · obtain ⟨sent, sending, inside⟩ := FileSystem.exists_sent_run loaded found
        obtain ⟨arrived, parts, seen⟩ := view_of_sending idle found sending
        exact ⟨arrived, (parts ▸ List.prefix_append _ _).trans inside, seen⟩
      · intro either
        obtain ⟨sending, empty, answers⟩ := FileSystem.delivered_run loaded found either
        obtain ⟨arrived, parts, seen⟩ := view_of_sending idle found sending
        rw [empty, List.append_nil] at parts
        exact ⟨parts ▸ seen, answers⟩
  · intro verbose
    obtain ⟨same, code⟩ := system.run_flags options state verbose options.timing
    exact ⟨code rfl, same⟩
  · intro timing
    exact (system.run_flags options state options.verbose timing).1

-- A block that cannot be printed to its end takes the place of the file it was read from.
theorem run_refines_printing_inPlace :
    let tree : Statement := .block [.returning none, .expression none]
    let start : Session := ⟨[(["t.json"], .file (Bytes.ofText tree.text))], []⟩
    let options : Options := ⟨"t.json", some "t.json", true, true⟩
    (∀ target, Disk.system.pending start target = []) ∧
      (Disk.system.run options start).exitCode = 1 ∧ (Disk.system.run options start).output = [] ∧
      (Disk.system.run options start).disk.contents? ["t.json"] =
        some (Bytes.ofText "Create Block\n  Create Return\n  Create ExpressionStatement\n") := by
  intro tree start options
  have named : Disk.isDocumentName "t.json" = true := by decide +kernel
  have loaded : Disk.system.readTree start "t.json" = .ok tree :=
    Disk.readTree_document named (by simp) (by decide) (by decide)
  have found : Disk.system.openOutput start (some "t.json") =
      .ok (.file ["t.json"], ⟨start.disk.store ["t.json"] [], []⟩) :=
    Session.create_eq (Disk.create_document named (by simp) _)
  have idle : ∀ target, Disk.system.pending start target = [] := fun _ => rfl
  obtain ⟨-, -, succeeds, -⟩ := run_refines_printing Disk.system options start idle
  obtain ⟨seen, answers⟩ := ((succeeds tree loaded).2 _ _ found).2 (.inr (Disk.takes (by simp) _))
  have stops : ((Sink.new none .closed).print (tree.render Depth.root)).2 ≠ .ok () := by
    rw [Sink.print_unlimited]
    intro through
    cases through
  rw [Outcome.view_eq, Sink.print_unlimited, View.received_opened_file] at seen
  injection seen with files output
  refine ⟨idle, ?_, output, ?_⟩
  · exact answers.zero_or_one.resolve_left fun zero => stops (answers.zero_iff.mp zero).1
  · rw [files]
    exact (if_pos rfl).trans (congrArg some (by decide +kernel))

-- An output that cannot take the trace makes a run fail although the tree is printed and counted, whatever the output is
-- called; and one that leads to standard output brings the trace there.
theorem run_fails_on_full_output :
    let tree : Statement := .returning none
    let disk : Disk := (["t.json"], .file (Bytes.ofText tree.text)) :: Disk.devices
    disk.readTree "t.json" = .ok tree ∧ ((Sink.new none .closed).print (tree.render Depth.root)).2 = .ok () ∧
      (run ⟨"t.json", some "/dev/./../dev/full", false, false⟩ disk).exitCode ≠ 0 ∧
      (run ⟨"t.json", some "/dev/stdout", false, false⟩ disk).output = Bytes.ofText "Create Return\n" := by
  intro tree disk
  have named : Disk.isDocumentName "t.json" = true := by decide +kernel
  have loaded : disk.readTree "t.json" = .ok tree := Disk.readTree_document named (by decide) (by decide) (by decide)
  have full : disk.create "/dev/./../dev/full" = .ok ([Disk.rootName, "dev", "full"], .fullDevice) := by
    have path : Disk.start "/dev/./../dev/full" = [Disk.rootName] ∧
        Disk.names "/dev/./../dev/full" = ["dev", ".", "..", "dev", "full"] := by decide +kernel
    refine Disk.create_of_lookup (by decide +kernel) (by decide +kernel) ?_ rfl (by decide)
    rw [path.1, path.2]
    rfl
  have stdout : disk.create "/dev/stdout" = .ok ([Disk.rootName, "dev", "stdout"], .outputDevice) := by
    have path : Disk.start "/dev/stdout" = [Disk.rootName] ∧ Disk.names "/dev/stdout" = ["dev", "stdout"] := by
      decide +kernel
    refine Disk.create_of_lookup (by decide +kernel) (by decide +kernel) ?_ rfl (by decide)
    rw [path.1, path.2]
    rfl
  refine ⟨loaded, (print_eq_ok_iff _).mpr rfl, exitCode_run_fullDevice loaded rfl full, ?_⟩
  obtain ⟨sending, -⟩ := @run_opened ⟨"t.json", some "/dev/stdout", false, false⟩ disk tree loaded _ _
    (Session.create_eq stdout) (by simp)
  exact (congrArg Session.output (Disk.sending_standardOutput sending)).trans (by decide +kernel)

end Treeline.Command
