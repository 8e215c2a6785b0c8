import Treeline.Proofs.Printing
import Treeline.Sink

namespace Treeline

-- What a trace is answered with when all of it has been taken.
def Trace.outcome (trace : Trace) : Except Error Unit :=
  match trace.missing with
  | none => .ok ()
  | some missing => .error (.structural missing)

theorem Trace.missing_of_outcome {trace : Trace} (through : trace.outcome = .ok ()) : trace.missing = none := by
  unfold Trace.outcome at through
  cases found : trace.missing with
  | none => rfl
  | some missing =>
    rw [found] at through
    cases through

namespace Sink

-- Where a text is cut into writes does not matter: the sink sees the bytes.

theorem write_nil (sink : Sink) : sink.write [] = (sink, .ok ()) := by
  have nothing : sink.room 0 = 0 := Nat.le_zero.mp (sink.room_le 0)
  simp [write, nothing]

theorem write_fits {sink : Sink} {piece : Bytes} (fits : sink.room piece.length = piece.length) :
    sink.write piece = ({ sink with held := sink.held ++ piece }, .ok ()) := by
  simp [write, fits]

theorem write_exceeds {sink : Sink} {piece : Bytes} (exceeds : sink.room piece.length ≠ piece.length) :
    sink.write piece =
      ({ sink with held := sink.held ++ piece.take (sink.room piece.length), refusals := sink.refusals + 1 },
        .error sink.refusal.fault) := by
  simp [write, exceeds]

theorem size_held (held : Array UInt8) (piece : Bytes) : (held ++ piece).size = held.size + piece.length := by
  rw [← Array.length_toList, Array.toList_appendList, List.length_append, Array.length_toList]

theorem held_append (held : Array UInt8) (first second : Bytes) : held ++ (first ++ second) = held ++ first ++ second :=
  Array.ext' (by simp)

theorem room_append_of_fits {sink : Sink} {first : Bytes} (fits : sink.room first.length = first.length)
    (second : Bytes) :
    sink.room (first ++ second).length =
      first.length + { sink with held := sink.held ++ first }.room second.length := by
  cases bounded : sink.limit with
  | none => simp [room, bounded]
  | some limit =>
    simp only [room, bounded, size_held, List.length_append] at fits ⊢
    omega

theorem room_append_of_exceeds {sink : Sink} {first : Bytes} (exceeds : sink.room first.length ≠ first.length)
    (second : Bytes) : sink.room (first ++ second).length = sink.room first.length := by
  cases bounded : sink.limit with
  | none => simp [room, bounded] at exceeds
  | some limit =>
    simp only [room, bounded, List.length_append] at exceeds ⊢
    omega

theorem write_append_of_fits {sink : Sink} {first : Bytes} (fits : sink.room first.length = first.length)
    (second : Bytes) :
    sink.write (first ++ second) = { sink with held := sink.held ++ first }.write second := by
  have split := room_append_of_fits fits second
  by_cases more : { sink with held := sink.held ++ first }.room second.length = second.length
  · rw [write_fits more, write_fits (by rw [split, more, List.length_append]), held_append]
  · rw [write_exceeds more, write_exceeds (by rw [split, List.length_append]; omega), split,
      List.take_length_add_append, held_append]

theorem write_append_of_exceeds {sink : Sink} {first : Bytes} (exceeds : sink.room first.length ≠ first.length)
    (second : Bytes) : sink.write (first ++ second) = sink.write first := by
  have same := room_append_of_exceeds exceeds second
  have bound := sink.room_le first.length
  rw [write_exceeds exceeds, write_exceeds (by rw [same, List.length_append]; omega), same,
    List.take_append_of_le_length bound]

theorem writeAll_eq_write (sink : Sink) (pieces : List Bytes) : sink.writeAll pieces = sink.write pieces.flatten := by
  induction pieces generalizing sink with
  | nil => exact (write_nil sink).symm
  | cons piece pieces ih =>
    rw [List.flatten_cons]
    by_cases fits : sink.room piece.length = piece.length
    · rw [write_append_of_fits fits, writeAll, write_fits fits]
      exact ih _
    · rw [write_append_of_exceeds fits, writeAll, write_exceeds fits]

-- What printing comes to once the bytes have been written: a refusal, or else the outcome of the pass.
def conclude (outcome : Except Error Unit) : Sink × Except IoFault Unit → Sink × Except Error Unit
  | (after, .error fault) => (after, .error (.io fault))
  | (after, .ok ()) => (after, outcome)

-- Printing with each line cut into writes in some way.
def printBy (cut : Line → List Bytes) (sink : Sink) (trace : Trace) : Sink × Except Error Unit :=
  conclude trace.outcome (sink.writeAll (trace.lines.flatMap cut))

theorem print_eq_printBy (sink : Sink) (trace : Trace) : sink.print trace = sink.printBy Line.pieces trace := by
  unfold print printBy Trace.outcome
  rcases sink.writeAll (trace.lines.flatMap Line.pieces) with ⟨after, fault | ⟨⟨⟩⟩⟩
  · rfl
  · cases trace.missing <;> rfl

theorem flatten_cut {cut : Line → List Bytes} (whole : ∀ line, (cut line).flatten = line.bytes) (lines : List Line) :
    (lines.flatMap cut).flatten = lines.flatMap Line.bytes := by
  induction lines with
  | nil => rfl
  | cons line lines ih => rw [List.flatMap_cons, List.flatten_append, whole, ih, List.flatMap_cons]

theorem printBy_eq {cut : Line → List Bytes} (whole : ∀ line, (cut line).flatten = line.bytes) (sink : Sink)
    (trace : Trace) : sink.printBy cut trace = conclude trace.outcome (sink.write trace.bytes) := by
  rw [printBy, writeAll_eq_write, flatten_cut whole, Trace.bytes]

theorem printBy_eq_print {cut : Line → List Bytes} (whole : ∀ line, (cut line).flatten = line.bytes) :
    printBy cut = print := by
  funext sink trace
  rw [printBy_eq whole, print_eq_printBy, printBy_eq fun _ => rfl]

theorem print_eq (sink : Sink) (trace : Trace) :
    sink.print trace = conclude trace.outcome (sink.write trace.bytes) := by
  rw [print_eq_printBy, printBy_eq fun _ => rfl]

theorem print_unlimited (refusal : Refusal) (trace : Trace) :
    (new none refusal).print trace = (⟨none, refusal, trace.bytes.toArray, 0⟩, trace.outcome) := by
  rw [print_eq, write_fits rfl]
  simp [conclude, new]

-- A sink with a limit, after `sent` has been sent to it and some of that perhaps refused.
def sent (limit : Nat) (refusal : Refusal) (sent : Bytes) (refusals : Nat) : Sink :=
  ⟨some limit, refusal, (sent.take limit).toArray, refusals⟩

theorem room_sent (limit : Nat) (refusal : Refusal) (before : Bytes) (refusals count : Nat) :
    (sent limit refusal before refusals).room count = min count (limit - before.length) := by
  simp only [sent, room, List.size_toArray, List.length_take]
  omega

-- One print: all of it fits, or there is exactly one refusal, also when the sink was full before.
theorem print_sent (limit : Nat) (refusal : Refusal) (before : Bytes) (refusals : Nat) {trace : Trace}
    (prints : trace.bytes ≠ []) :
    (sent limit refusal before refusals).print trace =
      if (before ++ trace.bytes).length ≤ limit then
        (sent limit refusal (before ++ trace.bytes) refusals, trace.outcome)
      else (sent limit refusal (before ++ trace.bytes) (refusals + 1), .error (.io refusal.fault)) := by
  have positive : 0 < trace.bytes.length := List.length_pos_iff.mpr prints
  have room := room_sent limit refusal before refusals trace.bytes.length
  have held : (before.take limit).toArray ++ trace.bytes.take ((sent limit refusal before refusals).room
      trace.bytes.length) = ((before ++ trace.bytes).take limit).toArray := by
    apply Array.ext'
    rw [room, Nat.min_comm]
    simp [List.take_append]
  rw [print_eq, List.length_append]
  split
  · have fits : (sent limit refusal before refusals).room trace.bytes.length = trace.bytes.length := by
      rw [room]
      omega
    rw [fits, List.take_length] at held
    rw [write_fits fits]
    simp only [conclude, sent, held]
  · have exceeds : (sent limit refusal before refusals).room trace.bytes.length ≠ trace.bytes.length := by
      rw [room]
      omega
    rw [write_exceeds exceeds]
    simp only [conclude, sent] at held ⊢
    rw [held]

-- Nodes printed one after another into one sink, by some way of printing a trace.
def printRun (print : Sink → Trace → Sink × Except Error Unit) (sink : Sink) :
    List Node → Sink × List (Except Error Unit)
  | [] => (sink, [])
  | node :: nodes =>
    let (after, result) := print sink (node.render Depth.root)
    let (last, results) := printRun print after nodes
    (last, result :: results)

def printNodes : Sink → List Node → Sink × List (Except Error Unit) := printRun print

def printed (nodes : List Node) : Bytes := nodes.flatMap fun node => (node.render Depth.root).bytes

theorem printed_cons (node : Node) (nodes : List Node) :
    printed (node :: nodes) = (node.render Depth.root).bytes ++ printed nodes := rfl

theorem printNodes_cons (sink : Sink) (node : Node) (nodes : List Node) :
    sink.printNodes (node :: nodes) =
      (((sink.print (node.render Depth.root)).1.printNodes nodes).1,
        (sink.print (node.render Depth.root)).2 :: ((sink.print (node.render Depth.root)).1.printNodes nodes).2) := rfl

-- How many of the prints go beyond the limit, when `before` has been sent already.
def overruns (limit : Nat) (before : Bytes) (nodes : List Node) : Nat :=
  (List.range nodes.length).countP fun i => limit < (before ++ printed (nodes.take (i + 1))).length

theorem overruns_cons (limit : Nat) (before : Bytes) (node : Node) (nodes : List Node) :
    overruns limit before (node :: nodes) =
      overruns limit (before ++ (node.render Depth.root).bytes) nodes +
        if (before ++ (node.render Depth.root).bytes).length ≤ limit then 0 else 1 := by
  have alone : printed [node] = (node.render Depth.root).bytes := by simp [printed]
  rw [overruns, List.length_cons, List.range_succ_eq_map, List.countP_cons, List.countP_map, overruns]
  simp only [Function.comp_def, List.take_succ_cons, List.take_zero, alone, printed_cons node (List.take _ _),
    ← List.append_assoc, decide_eq_true_eq]
  by_cases within : (before ++ (node.render Depth.root).bytes).length ≤ limit
  · rw [if_pos within, if_neg (Nat.not_lt.mpr within)]
  · rw [if_neg within, if_pos (Nat.lt_of_not_le within)]

theorem printNodes_sent (limit : Nat) (refusal : Refusal) (before : Bytes) (refusals : Nat) (nodes : List Node) :
    ((sent limit refusal before refusals).printNodes nodes).1 =
      sent limit refusal (before ++ printed nodes) (refusals + overruns limit before nodes) := by
  induction nodes generalizing before refusals with
  | nil => simp [printNodes, printRun, printed, overruns]
  | cons node nodes ih =>
    have step := print_sent limit refusal before refusals (node.bytes_render_ne_nil Depth.root)
    rw [printNodes_cons, step, overruns_cons, printed_cons, ← List.append_assoc]
    split
    · exact ih _ _
    · rw [ih, Nat.add_right_comm, Nat.add_assoc]

theorem printNodes_sent_answer (limit : Nat) (refusal : Refusal) (before : Bytes) (refusals : Nat) (nodes : List Node)
    (i : Nat) :
    ((sent limit refusal before refusals).printNodes nodes).2[i]? = nodes[i]?.map fun node =>
      if (before ++ printed (nodes.take (i + 1))).length ≤ limit then (node.render Depth.root).outcome
      else .error (.io refusal.fault) := by
  induction nodes generalizing before refusals i with
  | nil => simp [printNodes, printRun]
  | cons node nodes ih =>
    have step := print_sent limit refusal before refusals (node.bytes_render_ne_nil Depth.root)
    have alone : printed [node] = (node.render Depth.root).bytes := by simp [printed]
    rw [printNodes_cons, step]
    cases i with
    | zero =>
      rw [List.getElem?_cons_zero, List.getElem?_cons_zero, List.take_succ_cons, List.take_zero, alone]
      split <;> rfl
    | succ i =>
      rw [List.getElem?_cons_succ, List.getElem?_cons_succ, List.take_succ_cons, printed_cons, ← List.append_assoc]
      split <;> exact ih _ _ _

-- A run of prints into a sink with a limit. What each node prints alone decides everything: the sink holds the first
-- `limit` bytes of it all, a print is answered as if it stood alone as long as all up to it fits, and every print
-- beyond is refused once. Where lines are cut into writes never shows.
theorem bounded_print_run (limit : Nat) (refusal any : Refusal) (nodes : List Node) :
    let alone (node : Node) := (new none any).print (node.render Depth.root)
    let texts (nodes : List Node) : Bytes := nodes.flatMap fun node => (alone node).1.bytes
    let run := (new (some limit) refusal).printNodes nodes
    run.1.bytes = (texts nodes).take limit ∧
    (∀ i : Nat, run.2[i]? = nodes[i]?.map fun node =>
      if (texts (nodes.take (i + 1))).length ≤ limit then (alone node).2 else .error (.io refusal.fault)) ∧
    run.1.refusals = (List.range nodes.length).countP (fun i => limit < (texts (nodes.take (i + 1))).length) ∧
    ∀ cut : Line → List Bytes, (∀ line, (cut line).flatten = line.bytes) →
      printRun (printBy cut) (new (some limit) refusal) nodes = run := by
  intro alone texts run
  have aloneBytes (node : Node) : (alone node).1.bytes = (node.render Depth.root).bytes := by
    simp only [alone, print_unlimited, bytes]
  have aloneResult (node : Node) : (alone node).2 = (node.render Depth.root).outcome := by
    simp only [alone, print_unlimited]
  have same : texts = printed := by
    funext nodes
    simp only [texts, printed, aloneBytes]
  have start : new (some limit) refusal = sent limit refusal [] 0 := by simp [new, sent]
  have final : run.1 = sent limit refusal (printed nodes) (overruns limit [] nodes) := by
    have all := printNodes_sent limit refusal [] 0 nodes
    rwa [← start, List.nil_append, Nat.zero_add] at all
  refine ⟨?_, ?_, ?_, ?_⟩
  · rw [final, same]
    rfl
  · intro i
    have answer := printNodes_sent_answer limit refusal [] 0 nodes i
    rw [← start] at answer
    simp only [same, aloneResult]
    exact answer
  · rw [final, same]
    rfl
  · intro cut whole
    rw [printBy_eq_print whole]
    rfl

-- The first print just fits and stops at a missing child, the second finds the sink full, also when bytes are written
-- one at a time.
theorem bounded_print_run_bytewise :
    (∀ line : Line, (line.bytes.map fun byte => [byte]).flatten = line.bytes) ∧
      printRun (printBy fun line => line.bytes.map fun byte => [byte]) (new (some 21) .full)
        [.assignment ⟨"x", none⟩, .statement (.returning none)] =
      (sent 21 .full (Bytes.ofText "Create Assignment: x\n") 1,
        [.error (.structural ⟨"Assignment: x", .expression⟩), .error (.io .diskFull)]) := by
  have whole : ∀ line : Line, (line.bytes.map fun byte => [byte]).flatten = line.bytes := by
    intro line
    rw [← List.flatMap_def, List.flatMap_singleton']
  refine ⟨whole, ?_⟩
  rw [(bounded_print_run 21 .full .closed [.assignment ⟨"x", none⟩, .statement (.returning none)]).2.2.2 _ whole]
  rfl

end Sink

end Treeline
