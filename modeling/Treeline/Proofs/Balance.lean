import Treeline.Proofs.Session
import Treeline.Proofs.Shares

namespace Treeline

-- Lines and nodes are in balance: a tree has as many lines as its nodes stand for.

-- Nodes that stand to their parents in some way are counted at their parents.

def Node.childNodes (node : Node) : List Node := node.outline.children.filterMap Outline.root?

-- Whether the node stands to its parent as `p` says.
def Place.isChildBy (p : Node → Node → Bool) (place : Place) : Bool := place.ancestors.head?.any (p · place.node)

namespace Outline

theorem countP_places_children {p : Node → Node → Bool} {parent : Node} {ancestors : List Node}
    {children : List Outline}
    (each : ∀ child ∈ children, (child.places (parent :: ancestors)).countP (Place.isChildBy p) =
      (child.root?.toList.filter (p parent)).length +
        (child.nodes.flatMap fun inner => inner.childNodes.filter (p inner)).length) :
    (children.flatMap (places (parent :: ancestors))).countP (Place.isChildBy p) =
      ((children.filterMap root?).filter (p parent)).length +
        ((children.flatMap nodes).flatMap fun inner => inner.childNodes.filter (p inner)).length := by
  induction children with
  | nil => rfl
  | cons child children ih =>
    obtain ⟨first, others⟩ := List.forall_mem_cons.mp each
    have roots : (child :: children).filterMap root? = child.root?.toList ++ children.filterMap root? := by
      rw [List.filterMap_cons]
      cases child.root? <;> rfl
    rw [List.flatMap_cons, List.countP_append, first, ih others, roots, List.filter_append, List.flatMap_cons,
      List.flatMap_append, List.length_append, List.length_append]
    omega

theorem Proper.countP_isChildBy (p : Node → Node → Bool) {outline : Outline} (proper : outline.Proper)
    (ancestors : List Node) :
    (outline.places ancestors).countP (Place.isChildBy p) =
      (outline.root?.toList.filter fun root => ancestors.head?.any (p · root)).length +
        (outline.nodes.flatMap fun inner => inner.childNodes.filter (p inner)).length := by
  induction proper generalizing ancestors with
  | hole missing => rfl
  | @node parent children own below ih =>
    have listed : parent.childNodes = children.filterMap root? := by
      rw [Node.childNodes, own]
      rfl
    have inside := countP_places_children fun child present => ih child present (parent :: ancestors)
    rw [places_node, nodes_node, List.countP_cons, List.flatMap_cons, List.length_append, listed, inside, Nat.add_comm]
    refine congrArg (· + _) ?_
    unfold Place.isChildBy root?
    rw [Option.toList_some, List.filter_singleton]
    cases ancestors.head?.any (p · parent) <;> rfl

end Outline

namespace Node

theorem childNodes_function (returnType name : String) (parameters : List Variable) (body : Option Block) :
    (Node.statement (.functionDecl returnType name parameters body)).childNodes =
      parameters.map .variableDecl ++ body.toList.map .block := by
  have inside : (parameters.map Variable.outline).filterMap Outline.root? = parameters.map .variableDecl := by
    rw [List.filterMap_map, ← List.filterMap_eq_map]
    rfl
  unfold childNodes Node.outline Statement.outline
  rw [Outline.children, List.filterMap_append, inside]
  cases body <;> rfl

-- Only a function has parameters and a body below it.

theorem exists_function {node : Node} (function : node.kind = .statement .functionDecl) :
    ∃ returnType name parameters body, node = .statement (.functionDecl returnType name parameters body) := by
  cases node with
  | statement s =>
    cases s with
    | functionDecl returnType name parameters body => exact ⟨returnType, name, parameters, body, rfl⟩
    | _ => cases function
  | _ => cases function

theorem isBodyOf_of_ne {parent : Node} (other : parent.kind ≠ .statement .functionDecl) (child : Node) :
    parent.isBodyOf child = false := by
  cases child with
  | block => exact decide_eq_false other
  | _ => rfl

theorem length_filter_isParameterOf (parent : Node) :
    (parent.childNodes.filter parent.isParameterOf).length = parent.parameters.length := by
  by_cases function : parent.kind = .statement .functionDecl
  · obtain ⟨returnType, name, parameters, body, rfl⟩ := exists_function function
    rw [childNodes_function, List.filter_append]
    cases body <;> simp [List.filter_map, Function.comp_def, isParameterOf, kind, Statement.kind, Node.parameters]
  · have none : parent.childNodes.filter parent.isParameterOf = [] :=
      List.filter_eq_nil_iff.mpr fun child _ => by simp [isParameterOf_of_ne function child]
    rw [none, parameters_eq_nil function]
    rfl

theorem length_filter_isBodyOf {parent : Node} (filled : parent.emptySlots = []) :
    (parent.childNodes.filter parent.isBodyOf).length = (parent.isOf .functionDecl).toNat := by
  by_cases function : parent.kind = .statement .functionDecl
  · obtain ⟨returnType, name, parameters, body, rfl⟩ := exists_function function
    cases body with
    | none => cases filled
    | some b => simp [childNodes_function, List.filter_map, Function.comp_def, isBodyOf, isOf, kind, Statement.kind]
  · have none : parent.childNodes.filter parent.isBodyOf = [] :=
      List.filter_eq_nil_iff.mpr fun child _ => by simp [isBodyOf_of_ne function child]
    rw [none, isOf, decide_eq_false function]
    rfl

-- The root is nobody's child.
theorem countP_isChildBy (p : Node → Node → Bool) (node : Node) :
    node.places.countP (Place.isChildBy p) =
      (node.nodes.flatMap fun inner => inner.childNodes.filter (p inner)).length := by
  have atRoot : node.outline.root?.toList.filter (fun root => ([] : List Node).head?.any (p · root)) = [] :=
    List.filter_eq_nil_iff.mpr fun _ _ => Bool.false_ne_true
  have counted := node.proper_outline.countP_isChildBy p []
  rw [atRoot, List.length_nil, Nat.zero_add] at counted
  exact counted

theorem countP_isParameter (node : Node) :
    node.places.countP Place.isParameter = (node.nodes.flatMap Node.parameters).length := by
  refine (node.countP_isChildBy isParameterOf).trans ?_
  induction node.nodes with
  | nil => rfl
  | cons inner nodes ih =>
    rw [List.flatMap_cons, List.flatMap_cons, List.length_append, List.length_append, ih, length_filter_isParameterOf]

theorem countP_isBody {node : Node} (filled : ∀ inner ∈ node.nodes, inner.emptySlots = []) :
    node.places.countP Place.isBody = node.nodes.countP (isOf .functionDecl) := by
  refine (node.countP_isChildBy isBodyOf).trans ?_
  revert filled
  induction node.nodes with
  | nil => exact fun _ => rfl
  | cons inner nodes ih =>
    intro filled
    obtain ⟨first, others⟩ := List.forall_mem_cons.mp filled
    rw [List.flatMap_cons, List.length_append, ih others, length_filter_isBodyOf first, List.countP_cons, Nat.add_comm]
    cases inner.isOf .functionDecl <;> rfl

end Node

-- Printing that goes through, in numbers.
theorem Node.length_lines {node : Node} (filled : ∀ inner ∈ node.nodes, inner.emptySlots = []) (level : Nat) :
    (node.render level).lines.length + node.nodes.countP (isOf .functionDecl) + node.places.countP Place.inInitializer =
      node.nodes.length + node.places.countP Place.isBlock + node.places.countP Place.listsArguments +
        node.nodes.countP (isOf .forLoop) + node.nodes.countP (isOf .whileLoop) + node.nodes.countP hasElse +
        node.nodes.countP hasParameters := by
  have whole : node.holes = [] := node.sound_outline.holes_eq_nil node.outline_ne_hole filled false
  have through : (node.render level).missing = none := Node.missing_render_of_whole whole level
  have lines : (node.render level).lines.length = (node.places.flatMap Place.texts).length := by
    rw [← (node.texts_render level through).length_eq, Trace.texts, List.length_map]
  have each : ∀ place ∈ node.places, place.Balanced := fun place member =>
    Place.balanced (node.proper_outline.isSimple_of_inParameter Outside.root place member)
  have balanced := Place.balanced_all each
  have listed : node.places.flatMap (·.node.parameters) = node.nodes.flatMap Node.parameters := by
    rw [Node.nodes, ← node.outline.map_node_places [], List.flatMap_map]
    rfl
  rw [node.countP_places (isOf .forLoop), node.countP_places (isOf .whileLoop), node.countP_places hasElse,
    node.countP_places hasParameters, node.countP_isParameter, Node.countP_isBody filled, node.length_places, listed,
    ← lines] at balanced
  omega

-- The newlines in some texts.
def newlines (texts : List String) : Nat := (texts.flatMap String.toList).count '\n'

theorem newlines_cons (text : String) (texts : List String) :
    newlines (text :: texts) = text.toList.count '\n' + newlines texts := by
  rw [newlines, List.flatMap_cons, List.count_append]
  rfl

theorem newlines_append (first second : List String) :
    newlines (first ++ second) = newlines first + newlines second := by
  rw [newlines, List.flatMap_append, List.count_append]
  rfl

theorem newlines_eq_zero {texts : List String} (single : ∀ text ∈ texts, '\n' ∉ text.toList) : newlines texts = 0 := by
  refine List.count_eq_zero.mpr fun found => ?_
  obtain ⟨text, member, inside⟩ := List.mem_flatMap.mp found
  exact single text member inside

-- The texts that the lines of a node repeat.
def Node.repeated (node : Node) : List String := node.label :: node.parameters.map Variable.parameterText

theorem Place.newlines_markers (place : Place) : newlines place.markers = 0 := by
  refine newlines_eq_zero fun text member => ?_
  obtain ⟨⟨marker, child⟩, zipped, rfl⟩ := List.mem_filterMap.mp member
  exact place.node.kind.newline_not_mem_markers text (List.of_mem_zip zipped).1

theorem newlines_parametersTrace (level : Nat) (vs : List Variable) :
    newlines ((parametersTrace level vs).lines.map Line.text) = newlines (vs.map Variable.parameterText) := by
  rw [lines_parametersTrace]
  cases vs with
  | nil => rfl
  | cons v vs =>
    have header : Trace.parametersMarker.toList.count '\n' = 0 := by decide
    rw [if_neg (by simp), List.map_cons, newlines_cons, header, Nat.zero_add, List.map_map]
    rfl

-- Only what a line repeats of the tree can hold a newline.
theorem Place.newlines_texts (place : Place) :
    newlines place.texts = if place.isPrinted then newlines place.node.repeated else 0 := by
  unfold isPrinted
  cases inside : place.inParameter with
  | true =>
    rw [texts, inside]
    rfl
  | false =>
    cases body : place.isBody with
    | true =>
      rw [texts_of_isBody body]
      rfl
    | false =>
      have opened : newlines (place.opening 0).texts = newlines place.node.repeated := by
        have created : Trace.createPrefix.toList.count '\n' = 0 := by decide
        rw [opening_of_ne body, Trace.texts, Trace.lines_create_append, List.map_cons, newlines_cons,
          newlines_parametersTrace, String.toList_append, List.count_append, created, Nat.zero_add, Node.repeated,
          newlines_cons]
      have closed : newlines (place.closing 0).texts = 0 := by
        unfold closing
        cases place.isBlock <;> decide
      rw [texts_of_outside inside, newlines_append, newlines_append, opened, place.newlines_markers, closed]
      rfl

theorem Place.newlines_flatMap (places : List Place) :
    newlines (places.flatMap texts) = newlines ((places.filter isPrinted).flatMap (·.node.repeated)) := by
  induction places with
  | nil => rfl
  | cons place places ih =>
    rw [List.flatMap_cons, newlines_append, ih, newlines_texts, List.filter_cons]
    split
    · rw [List.flatMap_cons, newlines_append]
    · rw [Nat.zero_add]

-- The texts of a tree that its lines repeat.
def Node.printedTexts (node : Node) : List String :=
  (node.places.filter Place.isPrinted).flatMap fun place => place.node.repeated

theorem Node.lineCount_render (node : Node) {level : Nat} (through : (node.render level).missing = none) :
    Bytes.lineCount (node.render level).bytes = (node.render level).lines.length + newlines node.printedTexts := by
  have same : newlines (node.render level).texts = newlines node.printedTexts := by
    rw [printedTexts, ← Place.newlines_flatMap]
    exact ((node.texts_render level through).flatMap_right String.toList).count_eq '\n'
  rw [Trace.lineCount_bytes, ← same]
  rfl

namespace Command

-- The number of lines that a notice tells.
def Notice.lines? : Notice → Option Nat
  | .rendered lines => some lines
  | .statistics _ lines => some lines
  | _ => none

-- A successful run tells the same number wherever it tells one.
theorem lines_reportPrinting {options : Options} {tree : Statement} {printing : Printing}
    (succeeded : (reportPrinting options tree printing).exitCode = 0) :
    (reportPrinting options tree printing).allNotices.filterMap Notice.lines? =
      List.replicate (options.verbose.toNat + options.timing.toNat) (Bytes.lineCount printing.printed) := by
  obtain ⟨path, output, verbose, timing⟩ := options
  obtain ⟨printed, failure⟩ := printing
  cases failure with
  | some error => cases succeeded
  | none =>
    cases timing with
    | false => cases output <;> cases verbose <;> rfl
    | true =>
      unfold reportPrinting at succeeded ⊢
      cases counted : tree.count Depth.root Tally.empty with
      | error missing =>
        simp only [counted] at succeeded
        cases succeeded
      | ok tally => cases output <;> cases verbose <;> rfl

theorem lines_run {σ ι : Type} [DecidableEq ι] {system : FileSystem σ ι} {options : Options} {state : σ}
    {tree : Statement} (loaded : system.readTree state options.path = .ok tree)
    (succeeded : (system.run options state).exitCode = 0) :
    (tree.render Depth.root).missing = none ∧
      (system.run options state).notices.filterMap Notice.lines? =
        List.replicate (options.verbose.toNat + options.timing.toNat)
          (Bytes.lineCount (tree.render Depth.root).bytes) := by
  rcases system.run_cases options state with ⟨error, unread⟩ | ⟨other, fault, -, unopened⟩ |
    ⟨other, target, opened, failure, after, same, found, printed, through⟩
  · rw [unread] at loaded
    cases loaded
  · rw [FileSystem.run_unopened loaded unopened] at succeeded
    cases succeeded
  · obtain rfl : other = tree := Except.ok.inj (same.symm.trans loaded)
    rw [FileSystem.run_printed loaded found printed] at succeeded ⊢
    have quiet : (Report.notice options.verbose (.loaded options.path)).filterMap Notice.lines? = [] := by
      cases options.verbose <;> rfl
    refine ⟨through (failure_eq_none succeeded), ?_⟩
    rw [finished, List.filterMap_append, quiet, lines_reportPrinting succeeded]
    rfl

end Command

open Command in
-- What can be counted is printed in as many lines as its nodes stand for: one for each that is printed, one more for
-- the end of a block, for a header of arguments or parameters and for the marker of a body, and one for each parameter.
-- A successful run tells how many rows it has delivered, which are more by the newlines in what the lines repeat.
theorem lines_in_balance :
    (∀ (node : Node) (totals : Tally), node.tally = .ok totals → ∀ (level : Nat) (refusal : Refusal),
      ((Sink.new none refusal).print (node.render level)).2 = .ok () ∧
      ((node.render level).lines.length : Int) = totals.total + node.places.countP Place.isBlock
        - node.nodes.countP (Node.isOf .functionDecl) + node.places.countP Place.listsArguments
        + node.nodes.countP (Node.isOf .forLoop) + node.nodes.countP (Node.isOf .whileLoop)
        + node.nodes.countP Node.hasElse + node.nodes.countP Node.hasParameters
        - node.places.countP Place.inInitializer) ∧
    ∀ (options : Options) (disk : Disk) (tree : Statement), disk.readTree options.path = .ok tree →
      (run options disk).exitCode = 0 →
        let trace := tree.render Depth.root
        let delivered := ((Sink.new none .closed).print trace).1.bytes
        let figure := trace.lines.length + newlines (Node.statement tree).printedTexts
        (run options disk).notices.filterMap Notice.lines? =
          List.replicate (options.verbose.toNat + options.timing.toNat) figure ∧
        Bytes.lineCount delivered = figure ∧
        (options.output = none → (run options disk).output = delivered) ∧
        ∀ path ∈ options.output, ∃ location, disk.Rewritten path location delivered (run options disk).disk := by
  constructor
  · intro node totals counted level refusal
    have whole := Node.holes_eq_nil_of_tally counted
    have lines := Node.length_lines (node.sound_outline.emptySlots_eq_nil whole) level
    have total := Node.total_of_tally counted
    constructor
    · rw [Sink.print_unlimited, Trace.outcome, Node.missing_render_of_whole whole]
    · omega
  · intro options disk tree loaded succeeded trace delivered figure
    have read : Disk.system.readTree ⟨disk, []⟩ options.path = .ok tree := loaded
    obtain ⟨through, told⟩ := lines_run read succeeded
    have bytes : delivered = trace.bytes :=
      congrArg (fun result => result.1.bytes) (Sink.print_unlimited .closed trace)
    have rows : Bytes.lineCount trace.bytes = figure := (Node.statement tree).lineCount_render through
    rw [bytes]
    refine ⟨rows ▸ told, rows, fun chosen => (run_standardOutput loaded chosen).1, ?_⟩
    intro path chosen
    obtain ⟨location, entry, created, roomy⟩ := exists_created loaded succeeded chosen
    exact ⟨location, (run_outputFile loaded chosen created roomy).1⟩

open Command in
-- A call in the initial value of a parameter leaves no line, and the name of the parameter breaks its line.
theorem lines_in_balance_function :
    let tree : Statement := .functionDecl "int" "f" [⟨"int", "a\nb", some ⟨"a", some (.call "g" [.integer 1])⟩⟩]
      (some [.whileLoop (some (.boolean true)) (some [.expression (some (.call "h" [.identifier "y"]))]) (some [])])
    let disk : Disk := [(["t.json"], .file (Bytes.ofText tree.text))]
    let options : Options := ⟨"t.json", none, true, true⟩
    (Node.statement tree).tally = .ok ⟨5, 6, 2, 6⟩ ∧ ((tree.render Depth.root).lines.length : Int) = 15 ∧
      disk.readTree options.path = .ok tree ∧ (run options disk).exitCode = 0 ∧
      (run options disk).notices.filterMap Notice.lines? = [16, 16] := by
  intro tree disk options
  have whole : (Node.statement tree).holes = [] := by decide +kernel
  have tallied : (Node.statement tree).tally = .ok ⟨5, 6, 2, 6⟩ :=
    (Node.tally_eq_gain whole).trans (congrArg Except.ok (by decide +kernel))
  have loaded : disk.readTree options.path = .ok tree :=
    Disk.readTree_document (by decide +kernel) (by simp) (by decide) (by decide)
  have answers : (run options disk).Answers options.timing tree := (run_standardOutput loaded rfl).2.2
  obtain ⟨balance, figures⟩ := lines_in_balance
  obtain ⟨printed, lines⟩ := balance (.statement tree) _ tallied Depth.root .closed
  have succeeded : (run options disk).exitCode = 0 := answers.zero_iff.mpr ⟨printed, fun _ => ⟨_, tallied⟩⟩
  refine ⟨tallied, lines.trans (by decide +kernel), loaded, succeeded, ?_⟩
  exact (figures options disk tree loaded succeeded).1.trans (by decide +kernel)

end Treeline
