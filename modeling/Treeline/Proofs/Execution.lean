import Treeline.Proofs.Delivery
import Treeline.Proofs.EmptySlots

namespace Treeline

-- How a run goes on any system, by how far it comes.

namespace Command

theorem counted_iff (tree : Statement) :
    (∃ tally, tree.count Depth.root Tally.empty = .ok tally) ↔ (Node.statement tree).holes = [] := by
  have tallied : (tree.count Depth.root Tally.empty).map (fun _ => ()) = report (Node.statement tree).holes :=
    (Node.statement tree).tally_report
  cases result : tree.count Depth.root Tally.empty <;> cases holes : (Node.statement tree).holes <;>
    simp_all [report, Except.map]

-- A run succeeds if nothing kept it from printing and, should the tree be counted, nothing is missing in it.
theorem exitCode_reportPrinting (options : Options) (tree : Statement) (printing : Printing) :
    (reportPrinting options tree printing).exitCode =
      if printing.failure.isNone ∧ (options.timing → (Node.statement tree).holes = []) then 0 else 1 := by
  have counted := counted_iff tree
  unfold reportPrinting Report.exitCode
  cases printing.failure with
  | some error => simp
  | none =>
    by_cases timing : options.timing = true
    · cases result : tree.count Depth.root Tally.empty <;> simp [timing, ← counted, result]
    · simp [timing]

-- What a run comes to once its tree has been printed.
def finished {σ : Type} (options : Options) (tree : Statement) (printing : Printing) (after : σ) : Outcome σ :=
  let report := reportPrinting options tree printing
  ⟨report.exitCode, Report.notice options.verbose (.loaded options.path) ++ report.allNotices, after⟩

theorem exitCode_finished {σ : Type} (options : Options) (tree : Statement) (printing : Printing) (after : σ) :
    (finished options tree printing after).exitCode =
      if printing.failure.isNone ∧ (options.timing → (Node.statement tree).holes = []) then 0 else 1 :=
  exitCode_reportPrinting options tree printing

theorem failure_eq_none {σ : Type} {options : Options} {tree : Statement} {printing : Printing} {after : σ}
    (succeeded : (finished options tree printing after).exitCode = 0) : printing.failure = none := by
  rw [exitCode_finished] at succeeded
  split at succeeded
  · rename_i both
    exact Option.isNone_iff_eq_none.mp both.1
  · cases succeeded

-- A run that ends before anything is printed.
structure Outcome.Refused {σ : Type} (before : σ) (outcome : Outcome σ) : Prop where
  exitCode : outcome.exitCode = 1
  state : outcome.state = before

-- A run succeeds if the tree can be printed and, should it be counted, can be counted.
structure Outcome.Answers {σ : Type} (timing : Bool) (tree : Statement) (outcome : Outcome σ) : Prop where
  zero_iff : outcome.exitCode = 0 ↔ ((Sink.new none .closed).print (tree.render Depth.root)).2 = .ok () ∧
    (timing = true → ∃ tally, tree.count Depth.root Tally.empty = .ok tally)
  zero_or_one : outcome.exitCode = 0 ∨ outcome.exitCode = 1

theorem print_eq_ok_iff (trace : Trace) :
    ((Sink.new none .closed).print trace).2 = .ok () ↔ trace.missing = none := by
  rw [Sink.print_unlimited]
  refine ⟨Trace.missing_of_outcome, fun through => ?_⟩
  simp only [Trace.outcome, through]

-- If only a missing child has kept the tree from being printed, the exit code tells about the tree alone.
theorem answers_finished {σ : Type} (options : Options) {tree : Statement} {printing : Printing} (after : σ)
    (alone : printing.failure = none ↔ (tree.render Depth.root).missing = none) :
    (finished options tree printing after).Answers options.timing tree := by
  have code := exitCode_finished options tree printing after
  constructor
  · rw [code, counted_iff, print_eq_ok_iff, ← alone, ← Option.isNone_iff_eq_none]
    split
    · rename_i succeeds
      exact iff_of_true rfl succeeds
    · rename_i fails
      exact iff_of_false (by decide) fails
  · rw [code]
    split <;> simp

end Command

theorem Statement.load_of_other {path : String} (other : isDocumentFile path = false)
    (contents : Except IoFault Bytes) : Statement.load path contents = .error .notDocumentFile := by
  rw [Statement.load, other]
  rfl

namespace FileSystem

open Command

variable {σ ι : Type} [DecidableEq ι] {system : FileSystem σ ι} {options : Options} {state : σ}

theorem host_load (system : FileSystem σ ι) (path : String) (state : σ) (said : List Notice) :
    system.host.load path (state, said) = (system.readTree state path, state, said) := by
  unfold Host.load readTree
  cases named : isDocumentFile path with
  | true => rfl
  | false =>
    rw [Statement.load_of_other named]
    exact congrArg (·, state, said) (Statement.load_of_other named _)

theorem host_sayAll (system : FileSystem σ ι) (notices : List Notice) (state : σ) (said : List Notice) :
    system.host.sayAll notices (state, said) = ((), state, said ++ notices) := by
  induction notices generalizing said with
  | nil => exact congrArg (fun said => ((), state, said)) (List.append_nil said).symm
  | cons notice notices ih =>
    rw [Host.sayAll, bind_apply]
    refine (ih _).trans ?_
    rw [List.append_assoc]
    rfl

theorem host_mark (system : FileSystem σ ι) (phase : Phase) (state : σ) (said : List Notice) :
    system.host.mark phase (state, said) = ((), state, said) := rfl

theorem host_openOutput (system : FileSystem σ ι) (output : Option String) (state : σ) (said : List Notice) :
    system.host.openOutput output (state, said) =
      match system.openOutput state output with
      | .ok (target, after) => (.ok target, after, said)
      | .error fault => (.error fault, state, said) := by
  cases output <;> rfl

theorem run_unloaded {error : Error} (unread : system.readTree state options.path = .error error) :
    system.run options state = ⟨1, [.failed error], state⟩ := by
  unfold FileSystem.run execute
  rw [bind_apply, host_load, unread]
  rfl

theorem run_unopened {tree : Statement} {fault : IoFault}
    (loaded : system.readTree state options.path = .ok tree)
    (unopened : system.openOutput state options.output = .error fault) :
    system.run options state =
      ⟨1, Report.notice options.verbose (.loaded options.path) ++ [.failed (.io fault)], state⟩ := by
  unfold FileSystem.run execute
  rw [bind_apply, host_load, loaded]
  simp only
  rw [bind_apply, host_mark, bind_apply, host_sayAll, bind_apply, host_openOutput, unopened]
  rfl

theorem run_printed {tree : Statement} {target : Target ι} {opened after : σ} {printing : Printing}
    (loaded : system.readTree state options.path = .ok tree)
    (found : system.openOutput state options.output = .ok (target, opened))
    (printed : ∀ said, system.host.print target (tree.render Depth.root) (opened, said) = (printing, after, said)) :
    system.run options state = finished options tree printing after := by
  unfold FileSystem.run execute
  rw [bind_apply, host_load, loaded]
  simp only
  rw [bind_apply, host_mark, bind_apply, host_sayAll, bind_apply, host_openOutput, found]
  simp only
  rw [bind_apply, printed, bind_apply, host_mark, bind_apply, host_mark, bind_apply, host_sayAll]
  rfl

-- A run ends with no tree, with no output, or with what came of printing. The printing takes no notice of the flags.
theorem run_cases (system : FileSystem σ ι) (options : Options) (state : σ) :
    (∃ error, system.readTree state options.path = .error error) ∨
    (∃ tree fault, system.readTree state options.path = .ok tree ∧
      system.openOutput state options.output = .error fault) ∨
    ∃ tree target opened failure after, system.readTree state options.path = .ok tree ∧
      system.openOutput state options.output = .ok (target, opened) ∧
      (∀ said, system.host.print target (tree.render Depth.root) (opened, said) =
        (⟨(tree.render Depth.root).bytes, failure⟩, after, said)) ∧
      (failure = none → (tree.render Depth.root).missing = none) := by
  cases loaded : system.readTree state options.path with
  | error error => exact .inl ⟨error, rfl⟩
  | ok tree =>
    cases found : system.openOutput state options.output with
    | error fault => exact .inr (.inl ⟨tree, fault, rfl, rfl⟩)
    | ok place =>
      obtain ⟨sent, failure, after, printed, -, -, through, -⟩ :=
        system.print_spec place.1 (tree.render Depth.root) place.2
      exact .inr (.inr ⟨tree, place.1, place.2, failure, after, rfl, rfl, printed, fun done => (through done).1⟩)

-- Some of the trace comes to the output in any case, and all of it if the run succeeds or nothing is refused.

theorem exists_sent_run {tree : Statement} {target : Target ι} {opened : σ}
    (loaded : system.readTree state options.path = .ok tree)
    (found : system.openOutput state options.output = .ok (target, opened)) :
    ∃ sent, system.Sending target opened sent (system.run options state).state ∧
      sent <+: (tree.render Depth.root).bytes := by
  obtain ⟨sent, failure, after, printed, sending, inside, -⟩ :=
    system.print_spec target (tree.render Depth.root) opened
  rw [run_printed loaded found printed]
  exact ⟨sent, sending, inside⟩

theorem delivered_run {tree : Statement} {target : Target ι} {opened : σ}
    (loaded : system.readTree state options.path = .ok tree)
    (found : system.openOutput state options.output = .ok (target, opened))
    (either : (system.run options state).exitCode = 0 ∨ system.Takes target opened (tree.render Depth.root).bytes) :
    system.Sending target opened (tree.render Depth.root).bytes (system.run options state).state ∧
      system.pending (system.run options state).state target = [] ∧
      (system.run options state).Answers options.timing tree := by
  obtain ⟨sent, failure, after, printed, sending, -, through, taken⟩ :=
    system.print_spec target (tree.render Depth.root) opened
  rw [run_printed loaded found printed] at either ⊢
  rcases either with succeeded | takes
  · have unhindered : failure = none := failure_eq_none succeeded
    obtain ⟨whole, all, empty⟩ := through unhindered
    exact ⟨all ▸ sending, empty, answers_finished options after (iff_of_true unhindered whole)⟩
  · obtain ⟨same, all, empty⟩ := taken takes
    refine ⟨all ▸ sending, empty, answers_finished options after ?_⟩
    rw [same, Option.map_eq_none_iff]

-- What is said on standard error has no bearing on anything else.
theorem run_flags (system : FileSystem σ ι) (options : Options) (state : σ) (verbose timing : Bool) :
    (system.run { options with verbose := verbose, timing := timing } state).state = (system.run options state).state ∧
      (timing = options.timing → (system.run { options with verbose := verbose, timing := timing } state).exitCode =
        (system.run options state).exitCode) := by
  rcases system.run_cases options state with ⟨error, unread⟩ | ⟨tree, fault, loaded, unopened⟩ |
    ⟨tree, target, opened, failure, after, loaded, found, printed, -⟩
  · have other : system.run { options with verbose := verbose, timing := timing } state = _ := run_unloaded unread
    rw [run_unloaded unread, other]
    exact ⟨rfl, fun _ => rfl⟩
  · have other : system.run { options with verbose := verbose, timing := timing } state = _ :=
      run_unopened loaded unopened
    rw [run_unopened loaded unopened, other]
    exact ⟨rfl, fun _ => rfl⟩
  · have other : system.run { options with verbose := verbose, timing := timing } state = _ :=
      run_printed loaded found printed
    rw [run_printed loaded found printed, other]
    refine ⟨rfl, ?_⟩
    rintro rfl
    rw [exitCode_finished, exitCode_finished]

end FileSystem

end Treeline
