import Treeline.Proofs.Outline
import Treeline.Tally.Count

namespace Treeline

-- The counting pass treats all kinds of nodes alike: it is one traversal of the outline.

variable {ε σ : Type}

theorem Surveying.andThen_skipNode (surveying : Surveying ε σ) : surveying.andThen skipNode = surveying := by
  funext gathered
  cases result : surveying gathered <;> simp [andThen, skipNode, result, bind, Except.bind]

def countAll {α : Type} (survey : α → Surveying ε σ) : List α → Surveying ε σ
  | [] => skipNode
  | child :: children => (survey child).andThen (countAll survey children)

theorem countAll_singleton {α : Type} (survey : α → Surveying ε σ) (child : α) :
    countAll survey [child] = survey child :=
  Surveying.andThen_skipNode _

theorem Surveying.andThen_assoc (first second third : Surveying ε σ) :
    (first.andThen second).andThen third = first.andThen (second.andThen third) := by
  funext gathered
  cases result : first gathered <;> simp [andThen, result, bind, Except.bind]

theorem countAll_append {α : Type} (survey : α → Surveying ε σ) (first second : List α) :
    countAll survey (first ++ second) = (countAll survey first).andThen (countAll survey second) := by
  induction first with
  | nil => rfl
  | cons child children ih => rw [List.cons_append, countAll, ih, countAll, Surveying.andThen_assoc]

theorem countAll_map {α β : Type} (survey : β → Surveying ε σ) (f : α → β) (children : List α) :
    countAll survey (children.map f) = countAll (fun child => survey (f child)) children := by
  induction children with
  | nil => rfl
  | cons child children ih => rw [List.map_cons, countAll, ih, countAll]

theorem countAll_congr {α : Type} {survey survey' : α → Surveying ε σ} {children : List α}
    (same : ∀ child ∈ children, survey child = survey' child) :
    countAll survey children = countAll survey' children := by
  induction children with
  | nil => rfl
  | cons child children ih =>
    obtain ⟨first, others⟩ := List.forall_mem_cons.mp same
    rw [countAll, first, ih others, countAll]

variable (surveyor : Surveyor ε σ)

mutual

-- The pass without regard to kinds: a node, then its children, all one level deeper.
def Outline.survey (depth : Depth) : Outline → Surveying ε σ
  | .hole missing => surveyor.stop missing
  | .node parent children => (surveyor.enter parent.kind depth).andThen (Outline.surveyList (depth + 1) children)
termination_by structural outline => outline

def Outline.surveyList (depth : Depth) : List Outline → Surveying ε σ
  | [] => skipNode
  | child :: children => (child.survey depth).andThen (Outline.surveyList depth children)
termination_by structural children => children

end

variable {surveyor} {depth : Depth}

theorem Outline.surveyList_eq (children : List Outline) :
    Outline.surveyList surveyor depth children = countAll (Outline.survey surveyor depth) children := by
  induction children with
  | nil => rfl
  | cons child children ih => rw [Outline.surveyList, ih, countAll]

theorem Outline.survey_node (parent : Node) (children : List Outline) :
    (Outline.node parent children).survey surveyor depth =
      (surveyor.enter parent.kind depth).andThen (countAll (Outline.survey surveyor (depth + 1)) children) := by
  rw [Outline.survey, Outline.surveyList_eq]

theorem Expression.surveySlot_eq (missing : Missing) (slot : Option Expression) :
    Expression.surveySlot surveyor depth missing slot =
      surveyRequired (surveyor.stop missing) (Expression.survey surveyor depth) slot := by
  cases slot <;> rfl

theorem Expression.surveyList_eq (es : List Expression) :
    Expression.surveyList surveyor depth es = countAll (Expression.survey surveyor depth) es := by
  induction es with
  | nil => rfl
  | cons e es ih => rw [Expression.surveyList, ih, countAll]

theorem surveyParameters_eq (vs : List Variable) :
    surveyParameters surveyor depth vs = countAll (Variable.survey surveyor depth) vs := by
  induction vs with
  | nil => rfl
  | cons v vs ih => rw [surveyParameters, ih, countAll]

theorem Statement.surveyList_eq (ss : List Statement) :
    Statement.surveyList surveyor depth ss = countAll (Statement.survey surveyor depth) ss := by
  induction ss with
  | nil => rfl
  | cons s ss ih => rw [Statement.surveyList, ih, countAll]

-- A place that must be filled is met as what stands for it in the outline.
theorem surveyRequired_eq {α : Type} {missing : Missing} {survey : α → Surveying ε σ} {outline : α → Outline}
    {place : Option α} (same : ∀ child ∈ place, survey child = (outline child).survey surveyor depth) :
    surveyRequired (surveyor.stop missing) survey place =
      (requiredOutline missing outline place).survey surveyor depth := by
  cases place with
  | none => rfl
  | some child => exact same child rfl

theorem surveyOptional_eq {α : Type} {survey : α → Surveying ε σ} {outline : α → Outline} {place : Option α}
    (same : ∀ child ∈ place, survey child = (outline child).survey surveyor depth) :
    surveyOptional survey place = countAll (Outline.survey surveyor depth) (place.toList.map outline) := by
  cases place with
  | none => rfl
  | some child => exact (same child rfl).trans (countAll_singleton _ _).symm

theorem Expression.survey_eq (e : Expression) : e.survey surveyor depth = e.outline.survey surveyor depth := by
  induction e generalizing depth with
  | integer | double | string | boolean | identifier => rfl
  | unary operator operand ih =>
    rw [Expression.survey, Expression.outline, Outline.survey_node, countAll_singleton, Expression.surveySlot_eq,
      Expression.outlineSlot_eq, surveyRequired_eq fun child present => ih child present]
    rfl
  | binary operator left right ihLeft ihRight | comparison operator left right ihLeft ihRight =>
    rw [Expression.survey, Expression.outline, Outline.survey_node, countAll, countAll_singleton]
    simp only [Expression.surveySlot_eq, Expression.outlineSlot_eq]
    rw [surveyRequired_eq fun child present => ihLeft child present,
      surveyRequired_eq fun child present => ihRight child present]
    rfl
  | call callee arguments ih =>
    rw [Expression.survey, Expression.outline, Outline.survey_node, Expression.surveyList_eq,
      Expression.outlines_eq_map, countAll_map, countAll_congr fun child present => ih child present]
    rfl

theorem Comparison.survey_eq (c : Comparison) : c.survey surveyor depth = c.outline.survey surveyor depth := by
  rw [Comparison.survey, Expression.survey_eq]
  rfl

theorem Assignment.surveyBelow_eq (a : Assignment) :
    a.surveyBelow surveyor depth = countAll (Outline.survey surveyor (depth + 1)) a.below := by
  rw [Assignment.surveyBelow, Assignment.below, countAll_singleton, Expression.surveySlot_eq,
    Expression.outlineSlot_eq, surveyRequired_eq fun child _ => child.survey_eq]

theorem Assignment.survey_eq (a : Assignment) : a.survey surveyor depth = a.outline.survey surveyor depth := by
  rw [Assignment.survey, Assignment.outline, Outline.survey_node, Assignment.surveyBelow_eq]
  rfl

theorem Variable.surveyBelow_eq (v : Variable) :
    v.surveyBelow surveyor depth = countAll (Outline.survey surveyor (depth + 1)) v.below :=
  surveyOptional_eq fun a _ => a.survey_eq

theorem Variable.survey_eq (v : Variable) : v.survey surveyor depth = v.outline.survey surveyor depth := by
  rw [Variable.survey, Variable.outline, Outline.survey_node, Variable.surveyBelow_eq]
  rfl

theorem Statement.surveyList_eq_outlines {ss : List Statement}
    (same : ∀ s ∈ ss, s.survey surveyor depth = s.outline.survey surveyor depth) :
    Statement.surveyList surveyor depth ss = countAll (Outline.survey surveyor depth) (Statement.outlines ss) := by
  rw [Statement.surveyList_eq, Statement.outlines_eq_map, countAll_map, countAll_congr same]

theorem Statement.surveyBlock_eq {absent : Surveying ε σ} {outlines : List Outline} {block : Option Block}
    (empty : absent = countAll (Outline.survey surveyor depth) outlines)
    (same : ∀ b ∈ block, ∀ s ∈ b, ∀ {depth}, s.survey surveyor depth = s.outline.survey surveyor depth) :
    Statement.surveyBlock surveyor depth absent block =
      countAll (Outline.survey surveyor depth) (Statement.outlineBlock outlines block) := by
  cases block with
  | none => exact empty
  | some statements =>
    rw [Statement.surveyBlock, Statement.outlineBlock, countAll_singleton, Outline.survey_node,
      Statement.surveyList_eq_outlines fun s present => same statements rfl s present]
    rfl

-- What stands for an empty place of a block, where a block may be left out and where it may not.
theorem skipNode_eq_countAll : skipNode = countAll (Outline.survey surveyor depth) [] := rfl

theorem stop_eq_countAll (missing : Missing) :
    surveyor.stop missing = countAll (Outline.survey surveyor depth) [.hole missing] :=
  (countAll_singleton _ _).symm

theorem Statement.survey_eq (s : Statement) : s.survey surveyor depth = s.outline.survey surveyor depth := by
  induction s generalizing depth with
  | expression e =>
    rw [Statement.survey, Statement.outline, Outline.survey_node, countAll_singleton, Expression.surveySlot_eq,
      Expression.outlineSlot_eq, surveyRequired_eq fun child _ => child.survey_eq]
    rfl
  | assignment a =>
    rw [Statement.survey, Statement.outline, Outline.survey_node, Assignment.surveyBelow_eq]
    rfl
  | variableDecl v =>
    rw [Statement.survey, Statement.outline, Outline.survey_node, Variable.surveyBelow_eq]
    rfl
  | returning e =>
    rw [Statement.survey, Statement.outline, Outline.survey_node, surveyOptional_eq fun child _ => child.survey_eq]
    rfl
  | block statements ih =>
    rw [Statement.survey, Statement.outline, Outline.survey_node,
      Statement.surveyList_eq_outlines fun s present => ih s present]
    rfl
  | conditional condition thenBlock elseBlock ihThen ihElse =>
    rw [Statement.survey, Statement.outline, Outline.survey_node, countAll, countAll_append,
      surveyRequired_eq fun c _ => c.survey_eq, Statement.surveyBlock_eq skipNode_eq_countAll ihThen,
      Statement.surveyBlock_eq skipNode_eq_countAll ihElse]
    rfl
  | whileLoop condition body elseBlock ihBody ihElse =>
    rw [Statement.survey, Statement.outline, Outline.survey_node, countAll, countAll_append, Expression.surveySlot_eq,
      Expression.outlineSlot_eq, surveyRequired_eq fun e _ => e.survey_eq,
      Statement.surveyBlock_eq (stop_eq_countAll _) ihBody, Statement.surveyBlock_eq skipNode_eq_countAll ihElse]
    rfl
  | forLoop init condition body update ihBody =>
    rw [Statement.survey, Statement.outline, Outline.survey_node, countAll, countAll, countAll_append,
      countAll_singleton, Expression.surveySlot_eq, Expression.outlineSlot_eq,
      surveyRequired_eq fun a _ => a.survey_eq, surveyRequired_eq fun e _ => e.survey_eq,
      Statement.surveyBlock_eq (stop_eq_countAll _) ihBody, surveyRequired_eq fun a _ => a.survey_eq]
    rfl
  | functionDecl returnType name parameters body ihBody =>
    rw [Statement.survey, Statement.outline, Outline.survey_node, countAll_append, surveyParameters_eq, countAll_map,
      countAll_congr fun v _ => v.survey_eq, Statement.surveyBlock_eq (stop_eq_countAll _) ihBody]
    rfl
  | classDecl name body ihBody =>
    rw [Statement.survey, Statement.outline, Outline.survey_node, Statement.surveyBlock_eq skipNode_eq_countAll ihBody]
    rfl

theorem Node.survey_eq (node : Node) : node.survey surveyor depth = node.outline.survey surveyor depth := by
  cases node with
  | expression e => exact e.survey_eq
  | comparison c => exact c.survey_eq
  | assignment a => exact a.survey_eq
  | variableDecl v => exact v.survey_eq
  | block b =>
    have same : (Statement.block b).survey surveyor depth = _ := (Statement.block b).survey_eq
    rw [Statement.outline, Outline.survey_node] at same
    rw [Node.survey, Block.survey, same, Node.outline, Block.outline, Outline.survey_node]
    rfl
  | statement s => exact s.survey_eq

-- The pass that counts with numbers of any size.
def Outline.count (depth : Depth) (outline : Outline) : Counting := outline.survey Tally.surveyor depth

theorem Outline.count_node (depth : Depth) (parent : Node) (children : List Outline) :
    (Outline.node parent children).count depth =
      (enterNode parent.kind depth).andThen (countAll (Outline.count (depth + 1)) children) :=
  Outline.survey_node parent children

theorem Node.count_eq (depth : Depth) (node : Node) : node.count depth = node.outline.count depth := node.survey_eq

end Treeline
