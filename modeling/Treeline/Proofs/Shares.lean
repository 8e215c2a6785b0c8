import Treeline.Proofs.Indentation
import Treeline.Proofs.Rows
import Treeline.Proofs.Totals

namespace Treeline

-- Every line of a trace belongs to one node of the tree, and how many lines a node has follows from its kind and its
-- place.

def Trace.texts (trace : Trace) : List String := trace.lines.map Line.text

namespace Trace

theorem texts_append {first : Trace} (through : first.missing = none) (second : Trace) :
    (first ++ second).texts = first.texts ++ second.texts := by
  rw [texts, lines_append through, List.map_append]
  rfl

theorem texts_indent (levels : Nat) (trace : Trace) : (trace.indent levels).texts = trace.texts := by
  rw [texts, texts, indent, List.map_map]
  rfl

theorem texts_optional (level : Nat) (text : Option String) :
    (optionalTrace (line level) text).texts = text.toList := by
  cases text <;> rfl

end Trace

namespace Place

-- The markers between the children of the node.
def markers (place : Place) : List String :=
  (place.node.kind.markers.zip place.node.outline.children).filterMap Prod.fst

-- All lines of the node, up to their levels. In a parameter there are none.
def texts (place : Place) : List String :=
  if place.inParameter then [] else (place.opening 0).texts ++ (place.markers ++ (place.closing 0).texts)

theorem texts_of_outside {place : Place} (outside : place.inParameter = false) :
    place.texts = (place.opening 0).texts ++ (place.markers ++ (place.closing 0).texts) := by
  rw [texts, outside]
  rfl

theorem texts_opening (level : Nat) (place : Place) : (place.opening level).texts = (place.opening 0).texts := by
  have shifted := place.opening_indent 0 level
  rw [Nat.zero_add] at shifted
  rw [shifted, Trace.texts_indent]

theorem texts_closing (level : Nat) (place : Place) : (place.closing level).texts = (place.closing 0).texts := by
  have shifted := place.closing_indent 0 level
  rw [Nat.zero_add] at shifted
  rw [shifted, Trace.texts_indent]

theorem missing_opening (level : Nat) (place : Place) : (place.opening level).missing = none := by
  unfold opening
  split
  · rfl
  · rw [Trace.missing_append, missing_parametersTrace]
    rfl

theorem missing_closing (level : Nat) (place : Place) : (place.closing level).missing = none := by
  unfold closing
  split <;> rfl

theorem inParameter_child (parent child : Node) (ancestors : List Node) :
    inParameter ⟨child, parent :: ancestors⟩ = (parent.isParameterOf child || inParameter ⟨parent, ancestors⟩) := rfl

end Place

-- None of the nodes above is a parameter.
def Outside (ancestors : List Node) : Prop :=
  ∀ node, Place.inParameter ⟨node, ancestors⟩ = Place.isParameter ⟨node, ancestors⟩

theorem Outside.root : Outside [] := fun _ => rfl

theorem Outside.child {ancestors : List Node} (outside : Outside ancestors) {parent : Node}
    (noParameter : Place.isParameter ⟨parent, ancestors⟩ = false) : Outside (parent :: ancestors) := by
  intro node
  rw [Place.inParameter_child, outside parent, noParameter, Bool.or_false]
  rfl

namespace Outline

open List (Perm)

-- Where printing goes through, the lines below a node are its markers and the lines of its children.
theorem texts_traceList {ancestors : List Node} {level : Nat} {children : List Outline}
    (each : ∀ child ∈ children, (child.trace ancestors level).missing = none →
      (child.trace ancestors level).texts.Perm ((child.places ancestors).flatMap Place.texts))
    (markers : List (Option String)) (through : (traceList ancestors level markers children).missing = none) :
    (traceList ancestors level markers children).texts.Perm
      ((markers.zip children).filterMap Prod.fst ++ (children.flatMap (places ancestors)).flatMap Place.texts) := by
  induction children generalizing markers with
  | nil =>
    rw [List.zip_nil_right]
    exact Perm.refl _
  | cons child children ih =>
    obtain ⟨first, others⟩ := List.forall_mem_cons.mp each
    rw [traceList_cons, Trace.missing_append, Trace.missing_append, Option.or_eq_none_iff,
      Option.or_eq_none_iff] at through
    obtain ⟨marked, throughFirst, throughOthers⟩ := through
    have marker : (markers.zip (child :: children)).filterMap Prod.fst =
        markers.head?.join.toList ++ (markers.tail.zip children).filterMap Prod.fst := by
      cases markers with
      | nil => rfl
      | cons marker markers => cases marker <;> rfl
    rw [traceList_cons, Trace.texts_append marked, Trace.texts_append throughFirst, Trace.texts_optional,
      marker, List.flatMap_cons, List.flatMap_append, List.append_assoc]
    have below := (first throughFirst).append (ih others _ throughOthers)
    exact (below.trans (List.perm_append_comm_assoc ..)).append_left _

-- Where printing goes through, the lines of a tree are those of its nodes.
theorem texts_trace {outline : Outline} (proper : outline.Proper) {ancestors : List Node} (outside : Outside ancestors)
    (level : Nat) (through : (outline.trace ancestors level).missing = none) :
    (outline.trace ancestors level).texts.Perm ((outline.places ancestors).flatMap Place.texts) := by
  induction proper generalizing ancestors level with
  | hole missing => cases through
  | @node parent children own below ih =>
    cases parameter : Place.isParameter ⟨parent, ancestors⟩ with
    | true =>
      have inside := inParameter_of_mem_places (.node parent children) ancestors fun node children same => by
        cases same
        exact (outside parent).trans parameter
      have silent : ((Outline.node parent children).places ancestors).flatMap Place.texts = [] :=
        List.flatMap_eq_nil_iff.mpr fun place member => if_pos (inside place member)
      rw [trace_parameter parameter, silent]
      exact Perm.refl _
    | false =>
      have visible : Place.inParameter ⟨parent, ancestors⟩ = false := (outside parent).trans parameter
      rw [trace_node parameter, Trace.missing_append, Trace.missing_append, Place.missing_opening,
        Place.missing_closing, Option.none_or, Option.or_none] at through
      have listed : Place.markers ⟨parent, ancestors⟩ = (parent.kind.markers.zip children).filterMap Prod.fst := by
        rw [Place.markers, own]
        rfl
      have inside := texts_traceList (fun child present => ih child present (outside.child parameter) _) _ through
      rw [trace_node parameter, Trace.texts_append (Place.missing_opening ..), Trace.texts_append through,
        Place.texts_opening, Place.texts_closing, places_node, List.flatMap_cons, Place.texts_of_outside visible,
        List.append_assoc, List.append_assoc, listed]
      refine Perm.append_left _ ?_
      refine (inside.append_right _).trans ?_
      rw [List.append_assoc]
      exact List.perm_append_comm.append_left _

end Outline

-- The lines of a printed tree, up to their order and their levels.
theorem Node.texts_render (node : Node) (level : Nat) (through : (node.render level).missing = none) :
    (node.render level).texts.Perm (node.places.flatMap Place.texts) := by
  rw [Node.render_eq_trace] at through ⊢
  exact Outline.texts_trace node.proper_outline Outside.root level through

-- How many lines a node has.

namespace Node

def hasArguments : Node → Bool
  | .expression (.call _ arguments) => !arguments.isEmpty
  | _ => false

def hasElse : Node → Bool
  | .statement (.whileLoop _ _ elseBlock) => elseBlock.isSome
  | _ => false

def hasParameters (node : Node) : Bool := !node.parameters.isEmpty

def isOf (kind : StatementKind) (node : Node) : Bool := node.kind = .statement kind

end Node

theorem Place.length_markers (place : Place) :
    place.markers.length = place.node.hasArguments.toNat + (place.node.isOf .forLoop).toNat +
      (place.node.isOf .whileLoop).toNat + place.node.hasElse.toNat := by
  obtain ⟨node, ancestors⟩ := place
  unfold markers
  cases node with
  | comparison | assignment | variableDecl | block => rfl
  | expression e =>
    cases e with
    | call callee arguments => cases arguments <;> rfl
    | _ => rfl
  | statement s =>
    cases s with
    | whileLoop condition body elseBlock => cases body <;> cases elseBlock <;> rfl
    | forLoop init condition body update => cases body <;> rfl
    | _ => rfl

theorem length_parametersTrace (level : Nat) (vs : List Variable) :
    (parametersTrace level vs).lines.length = (!vs.isEmpty).toNat + vs.length := by
  rw [lines_parametersTrace]
  cases vs with
  | nil => rfl
  | cons v vs => simp [Nat.add_comm]

-- The nodes that may stand in a parameter: it holds no statements but itself and its initial value.
def Node.isSimple (node : Node) : Bool :=
  match node.kind with
  | .expression _ | .statement .assignment | .statement .variableDecl => true
  | .statement _ => false

def Outline.root? : Outline → Option Node
  | .hole _ => none
  | .node root _ => some root

namespace Expression

theorem root_outline (e : Expression) : e.outline.root? = some (.expression e) := by
  unfold outline
  rfl

theorem isSimple_outline (e : Expression) : ∀ root ∈ e.outline.root?, root.isSimple = true := by
  intro root found
  cases e.root_outline.symm.trans found
  rfl

theorem isSimple_slot (missing : Missing) (slot : Option Expression) :
    ∀ root ∈ (outlineSlot missing slot).root?, root.isSimple = true := by
  cases slot with
  | none => exact fun _ found => by cases found
  | some e => exact e.isSimple_outline

theorem isSimple_children (e : Expression) :
    ∀ child ∈ e.outline.children, ∀ root ∈ child.root?, root.isSimple = true := by
  unfold outline
  cases e with
  | integer | double | string | boolean | identifier => exact List.forall_mem_nil _
  | unary => exact List.forall_mem_singleton.mpr (isSimple_slot _ _)
  | binary | comparison =>
    exact List.forall_mem_cons.mpr ⟨isSimple_slot _ _, List.forall_mem_singleton.mpr (isSimple_slot _ _)⟩
  | call callee arguments =>
    intro child present
    have listed : child ∈ outlines arguments := present
    rw [outlines_eq_map] at listed
    obtain ⟨e, -, rfl⟩ := List.mem_map.mp listed
    exact e.isSimple_outline

end Expression

theorem Assignment.isSimple_below (a : Assignment) : ∀ child ∈ a.below, ∀ root ∈ child.root?, root.isSimple = true :=
  List.forall_mem_singleton.mpr (Expression.isSimple_slot _ _)

theorem Variable.isSimple_below (v : Variable) : ∀ child ∈ v.below, ∀ root ∈ child.root?, root.isSimple = true := by
  intro child present root found
  obtain ⟨a, -, rfl⟩ := List.mem_map.mp present
  cases found
  rfl

theorem Node.isSimple_children {parent : Node} (simple : parent.isSimple = true) :
    ∀ child ∈ parent.outline.children, ∀ root ∈ child.root?, root.isSimple = true := by
  cases parent with
  | expression e => exact e.isSimple_children
  | comparison c => exact c.toExpression.isSimple_children
  | assignment a => exact a.isSimple_below
  | variableDecl v => exact v.isSimple_below
  | block b => cases simple
  | statement s =>
    cases s with
    | assignment a => exact a.isSimple_below
    | variableDecl v => exact v.isSimple_below
    | _ => cases simple

theorem Place.isSimple_of_isParameter {place : Place} (parameter : place.isParameter = true) :
    place.node.isSimple = true := by
  obtain ⟨node, ancestors⟩ := place
  cases node with
  | variableDecl v => rfl
  | expression | comparison | assignment | block | statement =>
    rw [Outline.isParameter_eq_false fun _ => rfl] at parameter
    cases parameter

namespace Outline.Proper

variable {outline : Outline}

theorem isSimple_nodes (proper : outline.Proper) (simple : ∀ root ∈ outline.root?, root.isSimple = true) :
    ∀ inner ∈ outline.nodes, inner.isSimple = true := by
  induction proper with
  | hole missing => exact List.forall_mem_nil _
  | @node parent children own below ih =>
    have atRoot := simple parent rfl
    have each := Node.isSimple_children atRoot
    rw [own] at each
    intro inner member
    rw [nodes_node] at member
    rcases List.mem_cons.mp member with rfl | later
    · exact atRoot
    · obtain ⟨child, present, inside⟩ := List.mem_flatMap.mp later
      exact ih child present (each child present) inner inside

theorem isSimple_of_inParameter (proper : outline.Proper) {ancestors : List Node} (outside : Outside ancestors) :
    ∀ place ∈ outline.places ancestors, place.inParameter = true → place.node.isSimple = true := by
  induction proper generalizing ancestors with
  | hole missing => exact List.forall_mem_nil _
  | @node parent children own below ih =>
    intro place member inParameter
    cases parameter : Place.isParameter ⟨parent, ancestors⟩ with
    | true =>
      -- The root is a variable, and so all that is below it is simple.
      have simple : ∀ root ∈ (Outline.node parent children).root?, root.isSimple = true := by
        intro root found
        cases found
        exact Place.isSimple_of_isParameter parameter
      have listed := List.mem_map_of_mem (f := Place.node) member
      rw [map_node_places] at listed
      exact (Proper.node own below).isSimple_nodes simple _ listed
    | false =>
      rw [places_node] at member
      rcases List.mem_cons.mp member with rfl | later
      · rw [outside parent, parameter] at inParameter
        cases inParameter
      · obtain ⟨child, present, inside⟩ := List.mem_flatMap.mp later
        exact ih child present (outside.child parameter) place inside inParameter

end Outline.Proper

-- Whether the node belongs to the initial value of a parameter.
def Place.inInitializer (place : Place) : Bool := place.inParameter && !place.isParameter

-- Whether the node is a call whose arguments are printed.
def Place.listsArguments (place : Place) : Bool := place.node.hasArguments && !place.inParameter

-- What a node has in lines against what it counts for.
def Place.Balanced (place : Place) : Prop :=
  place.texts.length + place.isBody.toNat + place.inInitializer.toNat + place.isParameter.toNat =
    1 + place.isBlock.toNat + place.listsArguments.toNat + (place.node.isOf .forLoop).toNat +
      (place.node.isOf .whileLoop).toNat + place.node.hasElse.toNat + place.node.hasParameters.toNat +
      place.node.parameters.length

namespace Place

theorem isParameter_of_outside {place : Place} (outside : place.inParameter = false) : place.isParameter = false := by
  obtain ⟨node, ancestors⟩ := place
  cases ancestors with
  | nil => rfl
  | cons parent ancestors =>
    rw [inParameter_child, Bool.or_eq_false_iff] at outside
    exact outside.1

-- In a parameter there is nothing for which lines would be added.
theorem balanced_of_inParameter {place : Place} (inside : place.inParameter = true)
    (simple : place.node.isSimple = true) : place.Balanced := by
  obtain ⟨node, ancestors⟩ := place
  have silent : texts ⟨node, ancestors⟩ = [] := if_pos inside
  have unlisted : listsArguments ⟨node, ancestors⟩ = false := by
    rw [listsArguments, inside]
    exact Bool.and_false _
  have noBody : isBody ⟨node, ancestors⟩ = false := by
    cases node with
    | block b => cases simple
    | _ => exact isBody_eq_false (fun _ => rfl) _
  have plain : isBlock ⟨node, ancestors⟩ = false ∧ node.isOf .forLoop = false ∧ node.isOf .whileLoop = false ∧
      node.hasElse = false ∧ node.parameters = [] := by
    cases node with
    | block b => cases simple
    | statement s => cases s <;> first | exact ⟨rfl, rfl, rfl, rfl, rfl⟩ | cases simple
    | _ => exact ⟨rfl, rfl, rfl, rfl, rfl⟩
  obtain ⟨noBlock, noFor, noWhile, noElse, alone⟩ := plain
  rw [Balanced, silent, noBody, unlisted, noBlock, noFor, noWhile, noElse, Node.hasParameters, alone, inInitializer,
    inside]
  cases isParameter ⟨node, ancestors⟩ <;> rfl

theorem isBlock_of_isBody {place : Place} (body : place.isBody = true) : place.isBlock = false := by
  rw [isBlock, body]
  exact Bool.and_false _

theorem texts_of_isBody {place : Place} (body : place.isBody = true) : place.texts = [] := by
  obtain ⟨b, block⟩ := exists_body body
  have unmarked : place.markers = [] := by
    rw [markers, block]
    rfl
  rw [texts, opening, body, closing, isBlock_of_isBody body, unmarked]
  cases place.inParameter <;> rfl

theorem balanced_of_isBody {place : Place} (body : place.isBody = true) (outside : place.inParameter = false) :
    place.Balanced := by
  obtain ⟨b, block⟩ := exists_body body
  rw [Balanced, texts_of_isBody body, body, isBlock_of_isBody body, isParameter_of_outside outside, inInitializer,
    outside, listsArguments, block]
  rfl

theorem balanced_of_printed {place : Place} (noBody : place.isBody = false) (outside : place.inParameter = false) :
    place.Balanced := by
  have opened : (place.opening 0).texts.length = 1 + place.node.hasParameters.toNat + place.node.parameters.length := by
    rw [opening_of_ne noBody, Trace.texts, Trace.lines_create_append, List.length_map, List.length_cons,
      length_parametersTrace, Node.hasParameters]
    omega
  have closed : (place.closing 0).texts.length = place.isBlock.toNat := by
    unfold closing
    cases place.isBlock <;> rfl
  have listed : place.listsArguments = place.node.hasArguments := by
    rw [listsArguments, outside]
    exact Bool.and_true _
  rw [Balanced, texts_of_outside outside, List.length_append, List.length_append, opened, closed, length_markers,
    noBody, listed, isParameter_of_outside outside, inInitializer, outside]
  simp only [Bool.false_and, Bool.toNat_false]
  omega

theorem balanced {place : Place} (simple : place.inParameter = true → place.node.isSimple = true) : place.Balanced := by
  cases inside : place.inParameter with
  | true => exact balanced_of_inParameter inside (simple inside)
  | false =>
    cases body : place.isBody with
    | true => exact balanced_of_isBody body inside
    | false => exact balanced_of_printed body inside

end Place

-- Balanced nodes are balanced together.
theorem Place.balanced_all {places : List Place} (each : ∀ place ∈ places, place.Balanced) :
    (places.flatMap texts).length + places.countP isBody + places.countP inInitializer + places.countP isParameter =
      places.length + places.countP isBlock + places.countP listsArguments +
        places.countP (·.node.isOf .forLoop) + places.countP (·.node.isOf .whileLoop) +
        places.countP (·.node.hasElse) + places.countP (·.node.hasParameters) +
        (places.flatMap (·.node.parameters)).length := by
  have entered (p : Place → Bool) (place : Place) (places : List Place) :
      (place :: places).countP p = (p place).toNat + places.countP p := by
    rw [List.countP_cons, Nat.add_comm]
    cases p place <;> rfl
  induction places with
  | nil => rfl
  | cons place places ih =>
    obtain ⟨first, others⟩ := List.forall_mem_cons.mp each
    have below := ih others
    unfold Balanced at first
    simp only [entered, List.flatMap_cons, List.length_append, List.length_cons]
    omega

end Treeline
