import Treeline.Proofs.Session

namespace Treeline

-- The two passes over one tree, compared. They differ in one thing: the counting pass goes into the initial values of
-- parameters and the printing pass does not.

-- Whether anything is missing in the initial value of a parameter.
def Node.hasParameterHole (node : Node) : Bool := node.holes.any Hole.inParameter

theorem Outline.Sound.holes_ne_nil {outline : Outline} (sound : outline.Sound) {before : Bool} (after : Bool)
    (found : outline.holes before ≠ []) : outline.holes after ≠ [] := by
  obtain ⟨hole, member⟩ := List.exists_mem_of_ne_nil _ found
  have cause := (sound.mem_holes_iff hole.missing before).mp ⟨hole, member, rfl⟩
  obtain ⟨other, inside, -⟩ := (sound.mem_holes_iff hole.missing after).mpr cause
  exact List.ne_nil_of_mem inside

-- A hole is marked where a function has a parameter with a hole, and nowhere else.
theorem Outline.Sound.exists_inParameter_iff {outline : Outline} (sound : outline.Sound) :
    (∃ hole ∈ outline.holes false, hole.inParameter = true) ↔
      ∃ inner ∈ outline.nodes, ∃ v ∈ inner.parameters, (Node.variableDecl v).holes ≠ [] := by
  induction sound with
  | hole missing => simp
  | @node parent children own parameters below ih =>
    rw [holes_node, nodes_node]
    constructor
    · rintro ⟨hole, member, marked⟩
      obtain ⟨child, present, inside⟩ := List.mem_flatMap.mp member
      rw [Bool.false_or] at inside
      by_cases parameter : child.isParameterOf parent = true
      · have listed : child ∈ parent.parameters.map Variable.outline := by
          rw [← parameters]
          exact List.mem_filter.mpr ⟨present, parameter⟩
        obtain ⟨v, declared, rfl⟩ := List.mem_map.mp listed
        have found := (below _ present).holes_ne_nil false (List.ne_nil_of_mem inside)
        exact ⟨parent, List.mem_cons_self, v, declared, found⟩
      · rw [Bool.eq_false_iff.mpr parameter] at inside
        obtain ⟨inner, deeper, rest⟩ := (ih child present).mp ⟨hole, inside, marked⟩
        exact ⟨inner, List.mem_cons_of_mem _ (List.mem_flatMap.mpr ⟨child, present, deeper⟩), rest⟩
    · rintro ⟨inner, member, v, declared, found⟩
      rcases List.mem_cons.mp member with rfl | later
      · have listed : v.outline ∈ children.filter (isParameterOf inner) := by
          rw [parameters]
          exact List.mem_map.mpr ⟨v, declared, rfl⟩
        obtain ⟨present, parameter⟩ := List.mem_filter.mp listed
        obtain ⟨hole, inside⟩ := List.exists_mem_of_ne_nil _ ((below _ present).holes_ne_nil true found)
        refine ⟨hole, List.mem_flatMap.mpr ⟨v.outline, present, ?_⟩, inParameter_of_mem_holes _ hole inside⟩
        rwa [parameter]
      · obtain ⟨child, present, deeper⟩ := List.mem_flatMap.mp later
        obtain ⟨hole, inside, marked⟩ := (ih child present).mpr ⟨inner, deeper, v, declared, found⟩
        by_cases parameter : child.isParameterOf parent = true
        · obtain ⟨other, also⟩ :=
            List.exists_mem_of_ne_nil _ ((below child present).holes_ne_nil true (List.ne_nil_of_mem inside))
          refine ⟨other, List.mem_flatMap.mpr ⟨child, present, ?_⟩, inParameter_of_mem_holes _ other also⟩
          rwa [parameter]
        · refine ⟨hole, List.mem_flatMap.mpr ⟨child, present, ?_⟩, marked⟩
          rwa [Bool.eq_false_iff.mpr parameter]

theorem Node.hasParameterHole_iff (node : Node) :
    node.hasParameterHole = true ↔
      ∃ inner ∈ node.nodes, ∃ v ∈ inner.parameters, (Node.variableDecl v).holes ≠ [] := by
  rw [Node.hasParameterHole, List.any_eq_true]
  exact node.sound_outline.exists_inParameter_iff

theorem mapError_report_nil : (report []).mapError Error.structural = .ok () := rfl

theorem mapError_report_cons (hole : Hole) (holes : List Hole) :
    (report (hole :: holes)).mapError Error.structural = .error (.structural hole.missing) := rfl

theorem mapError_report_eq_ok_iff (holes : List Hole) :
    (report holes).mapError Error.structural = .ok () ↔ holes = [] := by
  cases holes with
  | nil => simp [mapError_report_nil]
  | cons hole holes => simp [mapError_report_cons]

-- Where printing goes through, all holes are in parameters.
theorem Node.holes_eq_nil_iff {node : Node} (through : node.printedHoles = []) :
    node.holes = [] ↔ node.hasParameterHole = false := by
  rw [Node.hasParameterHole, List.any_eq_false]
  constructor
  · intro full
    simp [full]
  · intro unmarked
    rw [Node.printedHoles, List.filter_eq_nil_iff] at through
    refine List.eq_nil_iff_forall_not_mem.mpr fun hole member => ?_
    exact through hole member (by simpa using unmarked hole member)

theorem mapError_report_inj {first second : List Hole} :
    (report first).mapError Error.structural = (report second).mapError Error.structural ↔
      firstMissing first = firstMissing second := by
  cases first <;> cases second <;> simp [mapError_report_nil, mapError_report_cons, firstMissing]

theorem firstMissing_printed_iff (holes : List Hole) :
    firstMissing (holes.filter fun hole => !hole.inParameter) = firstMissing holes ↔
      ∀ hole, holes.head? = some hole → hole.inParameter = true →
        firstMissing (holes.filter fun hole => !hole.inParameter) = some hole.missing := by
  cases holes with
  | nil => simp
  | cons first rest =>
    cases marked : first.inParameter <;> simp [marked, firstMissing]

-- Statistics turn a success into a failure exactly where a parameter has a hole.
theorem FileSystem.exitCode_run_timing {σ ι : Type} [DecidableEq ι] {system : FileSystem σ ι}
    {options : Command.Options} {state : σ} {tree : Statement}
    (loaded : system.readTree state options.path = .ok tree) :
    (system.run { options with timing := true } state).exitCode =
      if (system.run { options with timing := false } state).exitCode = 0 ∧
          (Node.statement tree).hasParameterHole = true then 1
      else (system.run { options with timing := false } state).exitCode := by
  rcases system.run_cases options state with ⟨error, unread⟩ | ⟨other, fault, -, unopened⟩ |
    ⟨other, target, opened, failure, after, same, found, printed, through⟩
  · rw [unread] at loaded
    cases loaded
  · have timed : system.run { options with timing := true } state = _ := run_unopened loaded unopened
    have untimed : system.run { options with timing := false } state = _ := run_unopened loaded unopened
    rw [timed, untimed]
    rfl
  · obtain rfl : other = tree := Except.ok.inj (same.symm.trans loaded)
    have timed : system.run { options with timing := true } state = _ := run_printed loaded found printed
    have untimed : system.run { options with timing := false } state = _ := run_printed loaded found printed
    rw [timed, untimed]
    simp only [Command.exitCode_finished]
    by_cases failed : failure = none
    · have answered := (Node.statement other).print_report Depth.root .closed
      have visible := (mapError_report_eq_ok_iff _).mp
        (answered.symm.trans ((Command.print_eq_ok_iff _).mpr (through failed)))
      simp only [Node.holes_eq_nil_iff visible, failed]
      cases (Node.statement other).hasParameterHole <;> rfl
    · simp [failed]

-- The passes answer alike unless the first hole lies in a parameter and the printing pass comes to no hole, or first to
-- a hole that is reported in another way. So asking for statistics can turn a success into a failure.
theorem passes_agree_outside_parameters (tree : Statement) (level : Nat) (refusal : Refusal) :
    let node := Node.statement tree
    let printed := ((Sink.new none refusal).print (tree.render level)).2
    let counted := ((tree.count Depth.root Tally.empty).map fun _ => ()).mapError Error.structural
    (printed = counted ↔ ∀ hole, node.holes.head? = some hole → hole.inParameter = true →
      firstMissing node.printedHoles = some hole.missing) ∧
    (printed = .ok () → (counted = .ok () ↔ node.hasParameterHole = false)) ∧
    (node.hasParameterHole = true ↔
      ∃ inner ∈ node.nodes, ∃ v ∈ inner.parameters, (Node.variableDecl v).holes ≠ []) ∧
    ∀ {σ ι : Type} [DecidableEq ι] (system : FileSystem σ ι) (options : Command.Options) (state : σ),
      system.readTree state options.path = .ok tree →
        (system.run { options with timing := true } state).exitCode =
          if (system.run { options with timing := false } state).exitCode = 0 ∧ node.hasParameterHole = true then 1
          else (system.run { options with timing := false } state).exitCode := by
  intro node printed counted
  have answered : printed = (report node.printedHoles).mapError .structural := node.print_report level refusal
  have tallied : counted = (report node.holes).mapError .structural :=
    congrArg (Except.mapError Error.structural) node.tally_report
  rw [answered, tallied]
  refine ⟨?_, ?_, node.hasParameterHole_iff, ?_⟩
  · rw [mapError_report_inj]
    exact firstMissing_printed_iff node.holes
  · intro through
    have visible := (mapError_report_eq_ok_iff _).mp through
    rw [mapError_report_eq_ok_iff, node.holes_eq_nil_iff visible]
  · intro σ ι _ system options state loaded
    exact FileSystem.exitCode_run_timing loaded

-- A function without statements whose only parameter is initialized with nothing is printed and not counted.
theorem passes_agree_outside_parameters_uninitialized :
    let tree : Statement := .functionDecl "int" "f" [⟨"int", "x", some ⟨"x", none⟩⟩] (some [])
    let disk : Disk := [(["t.json"], .file (Bytes.ofText tree.text))]
    let options : Command.Options := ⟨"t.json", none, false, false⟩
    ((Sink.new none .closed).print (tree.render Depth.root)).2 = .ok () ∧
      ((tree.count Depth.root Tally.empty).map fun _ => ()).mapError Error.structural ≠ .ok () ∧
      (Command.run { options with timing := false } disk).exitCode = 0 ∧
      (Command.run { options with timing := true } disk).exitCode = 1 := by
  intro tree disk options
  obtain ⟨-, succeeds, -, timed⟩ := passes_agree_outside_parameters tree Depth.root .closed
  have printed : ((Sink.new none .closed).print (tree.render Depth.root)).2 = .ok () := by
    have visible : (Node.statement tree).printedHoles = [] := by decide
    exact ((Node.statement tree).print_report Depth.root .closed).trans (by rw [visible]; rfl)
  have hollow : (Node.statement tree).hasParameterHole = true := by decide
  have loaded : disk.readTree "t.json" = .ok tree :=
    Disk.readTree_document (by decide +kernel) (by simp) (by decide) (by decide)
  have plain : (Command.run { options with timing := false } disk).exitCode = 0 := by
    obtain ⟨-, -, answers⟩ := @Command.run_standardOutput { options with timing := false } disk tree loaded rfl
    exact answers.zero_iff.mpr ⟨printed, by simp⟩
  refine ⟨printed, ?_, plain, ?_⟩
  · intro counted
    rw [(succeeds printed).mp counted] at hollow
    cases hollow
  · have code := timed Disk.system options ⟨disk, []⟩ loaded
    rwa [if_pos ⟨plain, hollow⟩] at code

end Treeline
