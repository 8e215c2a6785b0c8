import Treeline.Command.FileSystem
import Treeline.Proofs.Sink

namespace Treeline

-- What a run prints comes to its output in order: always some of it from the beginning, and all of it if nothing is
-- refused.

namespace FileSystem

variable {σ ι : Type} [DecidableEq ι] {system : FileSystem σ ι} {target : Target ι} {start : σ}

-- The states to which writing to an output leads, with the bytes that it has taken so far.
inductive Sending (system : FileSystem σ ι) (target : Target ι) (start : σ) : Bytes → σ → Prop
  | start : Sending system target start [] start
  | write {sent : Bytes} {state : σ} (piece : Bytes) : Sending system target start sent state →
    Sending system target start (sent ++ piece.take (takenBytes (system.write state target piece).1))
      (system.write state target piece).2
  | flush {sent : Bytes} {state : σ} : Sending system target start sent state →
    Sending system target start sent (system.flush state target).2

-- The output refuses nothing until it has got all of `bytes`. It may still take them piece by piece.
structure Takes (system : FileSystem σ ι) (target : Target ι) (start : σ) (bytes : Bytes) : Prop where
  write : ∀ {sent state} piece, system.Sending target start sent state → piece ≠ [] → sent ++ piece <+: bytes →
    ∃ more, (system.write state target piece).1 = .ok (more + 1)
  flush : ∀ {state}, system.Sending target start bytes state → (system.flush state target).1 = none

-- What has been taken is there or under way.
theorem Sending.moved {sent : Bytes} {state : σ} (sending : system.Sending target start sent state) :
    Moved system.view system.pending target sent start state := by
  induction sending with
  | start => exact ⟨[], by simp, (View.received_nil target _).symm⟩
  | @write sent state piece _ ih =>
    obtain ⟨first, parts, seen⟩ := ih
    obtain ⟨second, rest, now⟩ := system.moved_write state target piece
    refine ⟨first ++ second, ?_, ?_⟩
    · rw [List.append_assoc, rest, ← List.append_assoc, parts, List.append_assoc]
    · rw [now, seen, View.received_received]
  | @flush sent state _ ih =>
    obtain ⟨first, parts, seen⟩ := ih
    obtain ⟨second, rest, now⟩ := system.moved_flush state target
    refine ⟨first ++ second, ?_, ?_⟩
    · rw [List.append_assoc, rest, List.append_nil, parts]
    · rw [now, seen, View.received_received]

-- What has become of some bytes that were offered when others had been sent: `more` of them have been sent as well and
-- `kept` is held back. None is lost unless some are refused.
structure Passed (system : FileSystem σ ι) (target : Target ι) (start : σ)
    (sent offered more kept : Bytes) (fault : Option IoFault) (after : σ) : Prop where
  sending : system.Sending target start (sent ++ more) after
  inOrder : more ++ kept <+: offered
  complete : fault = none → more ++ kept = offered
  taken : ∀ bytes, system.Takes target start bytes → sent ++ offered <+: bytes → fault = none

namespace Passed

variable {sent offered more kept : Bytes} {fault : IoFault} {state after : σ}

theorem keep (sending : system.Sending target start sent state) (offered : Bytes) :
    system.Passed target start sent offered [] offered none state where
  sending := by rwa [List.append_nil]
  inOrder := List.prefix_rfl
  complete _ := rfl
  taken _ _ _ := rfl

theorem extend (passed : system.Passed target start sent offered more kept none after) (next : Bytes) :
    system.Passed target start sent (offered ++ next) more (kept ++ next) none after := by
  have whole : more ++ (kept ++ next) = offered ++ next := by rw [← List.append_assoc, passed.complete rfl]
  exact ⟨passed.sending, whole ▸ List.prefix_rfl, fun _ => whole, fun _ _ _ => rfl⟩

theorem stop (passed : system.Passed target start sent offered more kept (some fault) after) (next : Bytes) :
    system.Passed target start sent (offered ++ next) more kept (some fault) after where
  sending := passed.sending
  inOrder := passed.inOrder.trans (List.prefix_append _ _)
  complete absent := by cases absent
  taken bytes takes inside := by
    rw [← List.append_assoc] at inside
    exact passed.taken bytes takes ((List.prefix_append _ _).trans inside)

theorem andThen {further left : Bytes} {last : Option IoFault} {final : σ}
    (passed : system.Passed target start sent offered more kept none after)
    (next : system.Passed target start (sent ++ more) kept further left last final) :
    system.Passed target start sent offered (more ++ further) left last final where
  sending := by
    rw [← List.append_assoc]
    exact next.sending
  inOrder := by
    rw [List.append_assoc, ← passed.complete rfl]
    exact (List.prefix_append_right_inj _).mpr next.inOrder
  complete none := by rw [List.append_assoc, next.complete none, passed.complete rfl]
  taken bytes takes inside := by
    rw [← passed.complete rfl, ← List.append_assoc] at inside
    exact next.taken bytes takes inside

-- A write that is answered with nothing taken, or with a fault.
theorem refused (sending : system.Sending target start sent state) (filled : offered ≠ [])
    (refused : ∀ count, (system.write state target offered).1 ≠ .ok (count + 1)) (inside : kept <+: offered)
    (fault : IoFault) :
    system.Passed target start sent offered [] kept (some fault) (system.write state target offered).2 where
  sending := by
    have none : takenBytes (system.write state target offered).1 = 0 := by
      rcases answer : (system.write state target offered).1 with other | _ | count
      · rfl
      · rfl
      · exact absurd answer (refused count)
    simpa only [none, List.take_zero] using sending.write offered
  inOrder := inside
  complete absent := by cases absent
  taken bytes takes within := by
    obtain ⟨count, taken⟩ := takes.write offered sending filled within
    exact absurd taken (refused count)

theorem wrote (sending : system.Sending target start sent state) {count : Nat}
    (taken : (system.write state target offered).1 = .ok count) :
    system.Passed target start sent offered (offered.take count) (offered.drop count) none
      (system.write state target offered).2 where
  sending := by
    have step := sending.write offered
    rwa [taken] at step
  inOrder := ⟨[], by rw [List.append_nil, List.take_append_drop]⟩
  complete _ := List.take_append_drop count offered
  taken _ _ _ := rfl

end Passed

theorem bind_apply {α β τ : Type} (first : StateM τ α) (next : α → StateM τ β) (state : τ) :
    (first >>= next) state = next (first state).1 (first state).2 := rfl

theorem host_write (piece : Bytes) (state : σ) (said : List Command.Notice) :
    system.host.write target piece (state, said) =
      ((system.write state target piece).1, (system.write state target piece).2, said) := rfl

theorem drain_nil (state : σ) (said : List Command.Notice) :
    system.host.drain target [] (state, said) = (([], none), state, said) := by
  rw [Command.Host.drain]
  rfl

-- What is gathered goes out from its beginning, and none of it is left unless some of it is refused. Nothing is said,
-- here or in what follows.
theorem drain_spec (held : Bytes) {sent : Bytes} {state : σ}
    (sending : system.Sending target start sent state) :
    ∃ more left fault after,
      (∀ said, system.host.drain target held (state, said) = ((left, fault), after, said)) ∧
      system.Passed target start sent held more left fault after ∧ (fault = none → left = []) := by
  induction held using (measure List.length).wf.induction generalizing sent state with
  | h held ih =>
    cases held with
    | nil => exact ⟨[], [], none, state, drain_nil state, .keep sending [], fun _ => rfl⟩
    | cons byte rest =>
      have filled : byte :: rest ≠ [] := List.cons_ne_nil _ _
      rcases answer : (system.write state target (byte :: rest)).1 with fault | _ | count
      · refine ⟨[], byte :: rest, some fault, (system.write state target (byte :: rest)).2, fun said => ?_, ?_, by simp⟩
        · rw [Command.Host.drain, bind_apply, host_write, answer]
          rfl
        · exact .refused sending filled (by simp [answer]) List.prefix_rfl fault
      · refine ⟨[], byte :: rest, some .bufferNotTaken, (system.write state target (byte :: rest)).2, fun said => ?_, ?_,
          by simp⟩
        · rw [Command.Host.drain, bind_apply, host_write, answer]
          rfl
        · exact .refused sending filled (by simp [answer]) List.prefix_rfl .bufferNotTaken
      · have first := Passed.wrote sending answer
        have shorter : (rest.drop count).length < (byte :: rest).length := by
          rw [List.length_drop, List.length_cons]
          omega
        obtain ⟨more, left, fault, after, drained, next, complete⟩ := ih _ shorter first.sending
        refine ⟨_, left, fault, after, fun said => ?_, first.andThen next, complete⟩
        rw [Command.Host.drain, bind_apply, host_write, answer]
        exact drained said

-- Where a piece finds no room, what has been gathered goes out first.

theorem put_of_refused {held : Array UInt8} {piece left : Bytes} {fault : IoFault} {state after : σ}
    {said : List Command.Notice}
    (full : ¬ (piece.length < Command.bufferSize ∧ held.size + piece.length ≤ Command.bufferSize))
    (drained : system.host.drain target held.toList (state, said) = ((left, some fault), after, said)) :
    system.host.put target held piece (state, said) = ((left.toArray, some fault), after, said) := by
  rw [Command.Host.put, if_neg full, bind_apply, drained]
  rfl

theorem put_of_drained {held : Array UInt8} {piece left : Bytes} {state after : σ} {said : List Command.Notice}
    (full : ¬ (piece.length < Command.bufferSize ∧ held.size + piece.length ≤ Command.bufferSize))
    (drained : system.host.drain target held.toList (state, said) = ((left, none), after, said)) :
    system.host.put target held piece (state, said) =
      if piece.length < Command.bufferSize then ((piece.toArray, none), after, said)
      else
        match system.write after target piece with
        | (.error fault, last) => ((#[], some fault), last, said)
        | (.ok 0, last) => ((#[], some .nothingTaken), last, said)
        | (.ok (count + 1), last) => system.host.put target #[] (piece.drop (count + 1)) (last, said) := by
  rw [Command.Host.put, if_neg full, bind_apply, drained]
  by_cases short : piece.length < Command.bufferSize
  · simp only [dif_pos short, if_pos short]
    rfl
  · simp only [dif_neg short, if_neg short]
    rw [bind_apply, host_write]
    rcases system.write after target piece with ⟨_ | _ | _, _⟩ <;> rfl

-- A piece is taken behind what is gathered, and what is gathered goes out before it.
theorem put_spec (held : Array UInt8) (piece : Bytes) {sent : Bytes}
    {state : σ} (sending : system.Sending target start sent state) :
    ∃ more kept fault after,
      (∀ said, system.host.put target held piece (state, said) = ((kept, fault), after, said)) ∧
      system.Passed target start sent (held.toList ++ piece) more kept.toList fault after := by
  induction piece using (measure List.length).wf.induction generalizing held sent state with
  | h piece ih =>
    by_cases fits : piece.length < Command.bufferSize ∧ held.size + piece.length ≤ Command.bufferSize
    · refine ⟨[], held ++ piece, none, state, fun said => ?_, ?_⟩
      · rw [Command.Host.put, if_pos fits]
        rfl
      · rw [Array.toList_appendList]
        exact .keep sending _
    · obtain ⟨out, left, fault, after, drained, first, complete⟩ := drain_spec held.toList sending
      cases fault with
      | some fault =>
        exact ⟨out, left.toArray, some fault, after, fun said => put_of_refused fits (drained said), first.stop piece⟩
      | none =>
        rw [complete rfl] at first
        replace first : system.Passed target start sent (held.toList ++ piece) out piece none after := first.extend piece
        by_cases short : piece.length < Command.bufferSize
        · refine ⟨out, piece.toArray, none, after, fun said => ?_, first⟩
          exact (put_of_drained fits (drained said)).trans (if_pos short)
        · have filled : piece ≠ [] := by
            rintro rfl
            exact short (by decide)
          have reduced := fun said => (put_of_drained fits (drained said)).trans (if_neg short)
          rcases written : system.write after target piece with ⟨fault | _ | count, last⟩
          · refine ⟨out ++ [], #[], some fault, last, fun said => ?_, first.andThen ?_⟩
            · rw [reduced, written]
            · have second := Passed.refused first.sending filled (by simp [written]) List.nil_prefix fault
              rwa [written] at second
          · refine ⟨out ++ [], #[], some .nothingTaken, last, fun said => ?_, first.andThen ?_⟩
            · rw [reduced, written]
            · have second := Passed.refused first.sending filled (by simp [written]) List.nil_prefix .nothingTaken
              rwa [written] at second
          · have second := Passed.wrote first.sending (congrArg Prod.fst written)
            rw [written] at second
            have shorter : (piece.drop (count + 1)).length < piece.length := by
              have := List.length_pos_iff.mpr filled
              rw [List.length_drop]
              omega
            obtain ⟨more, kept, fault, final, put, third⟩ := ih _ shorter #[] second.sending
            refine ⟨_, kept, fault, final, fun said => ?_, first.andThen (second.andThen third)⟩
            rw [reduced, written]
            exact put said

theorem putAll_spec (held : Array UInt8) (pieces : List Bytes)
    {sent : Bytes} {state : σ} (sending : system.Sending target start sent state) :
    ∃ more kept fault after,
      (∀ said, system.host.putAll target held pieces (state, said) = ((kept, fault), after, said)) ∧
      system.Passed target start sent (held.toList ++ pieces.flatten) more kept.toList fault after := by
  induction pieces generalizing held sent state with
  | nil =>
    refine ⟨[], held, none, state, fun _ => rfl, ?_⟩
    rw [List.flatten_nil, List.append_nil]
    exact .keep sending _
  | cons piece pieces ih =>
    obtain ⟨more, kept, fault, after, put, first⟩ := put_spec held piece sending
    rw [List.flatten_cons, ← List.append_assoc]
    cases fault with
    | some fault =>
      refine ⟨more, kept, some fault, after, fun said => ?_, first.stop _⟩
      rw [Command.Host.putAll, bind_apply, put]
      rfl
    | none =>
      obtain ⟨further, left, fault, final, rest, next⟩ := ih kept first.sending
      refine ⟨more ++ further, left, fault, final, fun said => ?_, (first.extend _).andThen next⟩
      rw [Command.Host.putAll, bind_apply, put]
      exact rest said

-- In the end all that was gathered is there, unless some of it is refused.
theorem close_spec (gathered : Bytes) {sent : Bytes} {state : σ} (sending : system.Sending target start sent state) :
    ∃ more fault after, (∀ said, system.host.close target gathered (state, said) = (fault, after, said)) ∧
      system.Sending target start (sent ++ more) after ∧ more <+: gathered ∧
      (fault = none → more = gathered ∧ system.pending after target = []) ∧
      (system.Takes target start (sent ++ gathered) → fault = none) := by
  obtain ⟨out, left, fault, after, drained, first, complete⟩ := drain_spec gathered sending
  cases fault with
  | some fault =>
    obtain ⟨again, rest, last, final, retried, second, -⟩ := drain_spec left first.sending
    refine ⟨out ++ again, some fault, final, fun said => ?_, ?_, ?_, by simp, fun takes => ?_⟩
    · rw [Command.Host.close, bind_apply, drained]
      exact congrArg (fun result => (some fault, result.2)) (retried said)
    · rw [← List.append_assoc]
      exact second.sending
    · refine List.IsPrefix.trans ?_ first.inOrder
      exact (List.prefix_append_right_inj _).mpr ((List.prefix_append _ _).trans second.inOrder)
    · exact first.taken _ takes List.prefix_rfl
  | none =>
    have all : out = gathered := by
      rw [← first.complete rfl, complete rfl, List.append_nil]
    have there : system.Sending target start (sent ++ gathered) after := all ▸ first.sending
    refine ⟨gathered, (system.flush after target).1, (system.flush after target).2, fun said => ?_, there.flush,
      List.prefix_rfl, fun flushed => ⟨rfl, system.pending_flush (Prod.ext flushed rfl)⟩, fun takes => takes.flush there⟩
    have rested : system.host.drain target [] ((system.flush after target).2, said) = _ := drain_nil _ said
    rw [Command.Host.close, bind_apply, drained, complete rfl]
    exact congrArg (fun result => ((system.flush after target).1, result.2)) rested

-- What comes of printing, whatever the output does with it. Only what cannot be printed to its end and an output that
-- refuses something make it fail.
theorem print_spec (system : FileSystem σ ι) (target : Target ι) (trace : Trace) (state : σ) :
    ∃ sent failure after,
      (∀ said, system.host.print target trace (state, said) = (⟨trace.bytes, failure⟩, after, said)) ∧
      system.Sending target state sent after ∧ sent <+: trace.bytes ∧
      (failure = none → trace.missing = none ∧ sent = trace.bytes ∧ system.pending after target = []) ∧
      (system.Takes target state trace.bytes → failure = trace.missing.map Error.structural ∧
        sent = trace.bytes ∧ system.pending after target = []) := by
  have begun : system.Sending target state [] state := .start
  obtain ⟨more, kept, refused, after, put, first⟩ := putAll_spec #[] (trace.lines.flatMap Line.pieces) begun
  obtain ⟨further, unflushed, final, closed, there, second, all, taken⟩ := close_spec kept.toList first.sending
  have offered : #[].toList ++ (trace.lines.flatMap Line.pieces).flatten = trace.bytes :=
    Sink.flatten_cut (fun _ => rfl) trace.lines
  rw [offered] at first
  rw [List.nil_append] at there taken
  have complete : refused = none → unflushed = none →
      more ++ further = trace.bytes ∧ system.pending final target = [] := by
    intro unrefused flushed
    obtain ⟨same, empty⟩ := all flushed
    exact ⟨same ▸ first.complete unrefused, empty⟩
  refine ⟨more ++ further, Command.Host.firstFailure refused trace.missing unflushed, final, fun said => ?_, there, ?_,
    ?_, ?_⟩
  · rw [Command.Host.print, bind_apply, put]
    simp only
    rw [bind_apply, closed]
    rfl
  · exact ((List.prefix_append_right_inj _).mpr second).trans first.inOrder
  · intro through
    cases refused with
    | some fault => cases through
    | none =>
      cases missing : trace.missing with
      | some missing => simp [Command.Host.firstFailure, missing] at through
      | none => exact ⟨rfl, complete rfl (by simpa [Command.Host.firstFailure, missing] using through)⟩
  · intro takes
    obtain rfl := first.taken trace.bytes takes List.prefix_rfl
    rw [first.complete rfl] at taken
    obtain rfl := taken takes
    refine ⟨?_, complete rfl rfl⟩
    cases trace.missing <;> rfl

end FileSystem

end Treeline
