import Treeline.Assembly.Step
import Treeline.Assembly.Value
import Treeline.Sink
import Treeline.Tally.Count
import Treeline.Trace.Render
import Treeline.Tree.Parse

namespace Treeline.Assembly

def operator (κ : Type) [Vocabulary κ] (symbol : String) : Except Error κ :=
  (Document.readWordOf κ symbol).mapError fun fault => .decode (.ofFault fault)

-- The stack after a step, or nothing if the operands do not fit.
abbrev Effect := Except Error (Option (List Value))

-- Takes the topmost `count` values, in the order in which they were pushed.
def popMany {α : Type} (read : Value → Option α) (count : Nat) (stack : List Value) : Option (List α × List Value) :=
  if stack.length < count then none
  else ((stack.take count).reverse.mapM read).map fun values => (values, stack.drop count)

-- Nodes made of the topmost values, the first one being the one pushed first.

def withOne (make : Value → Option Node) : List Value → Option (List Value)
  | a :: rest => (make a).map (some · :: rest)
  | _ => none

def withTwo (make : Value → Value → Option Node) : List Value → Option (List Value)
  | b :: a :: rest => (make a b).map (some · :: rest)
  | _ => none

def withThree (make : Value → Value → Value → Option Node) : List Value → Option (List Value)
  | c :: b :: a :: rest => (make a b c).map (some · :: rest)
  | _ => none

def withFour (make : Value → Value → Value → Value → Option Node) : List Value → Option (List Value)
  | d :: c :: b :: a :: rest => (make a b c d).map (some · :: rest)
  | _ => none

def withMany {α : Type} (read : Value → Option α) (count : Nat) (make : List α → Node) (stack : List Value) :
    Option (List Value) :=
  (popMany read count stack).map fun (values, rest) => some (make values) :: rest

def withOperands (make : Option Expression → Option Expression → Node) : List Value → Option (List Value) :=
  withTwo fun left right => do
    let left ← left.expressionPlace?
    let right ← right.expressionPlace?
    return make left right

def Build.run (stack : List Value) : Build → Effect
  | .empty => .ok (some (none :: stack))
  | .literal e => .ok (some (some (.expression e) :: stack))
  | .parse source => do
    let statement ← (Statement.parse source).mapError .decode
    return some (some (.statement statement) :: stack)
  | .unary symbol => do
    let op ← operator UnaryOp symbol
    return withOne (fun e => e.expressionPlace?.map fun e => .expression (.unary op e)) stack
  | .binary symbol => do
    let op ← operator BinaryOp symbol
    return withOperands (fun left right => .expression (.binary op left right)) stack
  | .compare symbol => do
    let op ← operator CompareOp symbol
    return withOperands (fun left right => .expression (.comparison op left right)) stack
  | .comparison symbol => do
    let op ← operator CompareOp symbol
    return withOperands (fun left right => .comparison ⟨op, left, right⟩) stack
  | .call callee count =>
    .ok (withMany Value.expression? count (fun arguments => .expression (.call callee arguments)) stack)
  | .expressionStatement => .ok (withOne (fun e => e.expressionPlace?.map fun e => .statement (.expression e)) stack)
  | .assign target => .ok (withOne (fun e => e.expressionPlace?.map fun e => .assignment ⟨target, e⟩) stack)
  | .toStatement => .ok (withOne (fun value => value.statement?.map .statement) stack)
  | .variableDecl typeName name =>
    .ok (withOne (fun a => a.assignmentPlace?.map fun a => .variableDecl ⟨typeName, name, a⟩) stack)
  | .returning => .ok (withOne (fun e => e.expressionPlace?.map fun e => .statement (.returning e)) stack)
  | .block count => .ok (withMany Value.statement? count .block stack)
  | .conditional => .ok (stack |> withThree fun condition thenBlock elseBlock => do
      return .statement (.conditional (← condition.comparisonPlace?) (← thenBlock.blockPlace?)
        (← elseBlock.blockPlace?)))
  | .whileLoop => .ok (stack |> withThree fun condition body elseBlock => do
      return .statement (.whileLoop (← condition.expressionPlace?) (← body.blockPlace?) (← elseBlock.blockPlace?)))
  | .forLoop => .ok (stack |> withFour fun init condition body update => do
      return .statement (.forLoop (← init.assignmentPlace?) (← condition.expressionPlace?) (← body.blockPlace?)
        (← update.assignmentPlace?)))
  | .functionDecl returnType name count =>
    match stack with
    | [] => .ok none
    | body :: rest => .ok (do
        let body ← body.blockPlace?
        withMany Value.variable? count (fun parameters => .statement (.functionDecl returnType name parameters body))
          rest)
  | .classDecl name =>
    .ok (withOne (fun body => body.blockPlace?.map fun body => .statement (.classDecl name body)) stack)
  | .duplicate =>
    match stack with
    | value :: rest => .ok (some (value :: value :: rest))
    | [] => .ok none
  | .swap =>
    match stack with
    | first :: second :: rest => .ok (some (second :: first :: rest))
    | _ => .ok none
  | .drop =>
    match stack with
    | _ :: rest => .ok (some rest)
    | [] => .ok none

structure Machine where
  stack : List Value
  sink : Sink

def Machine.state (machine : Machine) : Answer :=
  .stack machine.stack.length (machine.stack.head?.map fun top => (top.typeName, top.label))

def reparse (statement : Statement) : Answer :=
  match Statement.parse statement.text with
  | .ok again => .equal (again.equal statement)
  | .error error => .failure (.decode error)

def lookAt (node : Node) : Look → Answer
  | .label => .label node.label
  | .display => .display node.label
  | .render level => .trace (node.render level)
  | .count =>
    match node.tally with
    | .ok tally => .tally tally
    | .error missing => .failure (.structural missing)
  | .dispatch scope => node.dispatch Answer.dispatched scope
  | .document => .document node.toDocument.text
  | .reparse =>
    match node with
    | .statement statement => reparse statement
    | _ => .malformed
  | _ => .malformed

def Look.run (machine : Machine) (look : Look) : Machine × Answer :=
  match look, machine.stack with
  | .output, _ => (machine, .output machine.sink.bytes)
  | .equal, first :: second :: _ => (machine, .equal (second.equal first))
  | .label, value :: _ => (machine, .label value.label)
  | .display, value :: _ => (machine, .display value.label)
  | .print, some node :: _ =>
    let (sink, result) := machine.sink.print (node.render Depth.root)
    let failure := match result with
      | .ok () => none
      | .error error => some error
    ({ machine with sink }, .printed failure sink.held.size sink.refusals)
  | look, some node :: _ => (machine, lookAt node look)
  | _, _ => (machine, .malformed)

-- A body run a number of times. The first change in it that fails ends all, and its answer is the answer.
def Machine.iterate (body : Machine → Machine × Option Answer) : Nat → Machine → Machine × Answer
  | 0, machine => (machine, machine.state)
  | times + 1, machine =>
    match body machine with
    | (after, some failure) => (after, failure)
    | (after, none) => after.iterate body times

mutual

-- One step. A step that fails leaves the machine as it was, save that a repetition keeps what was done before the
-- failure, and the sink what was printed.
def Step.run (machine : Machine) : Step → Machine × Answer
  | .build b =>
    match b.run machine.stack with
    | .ok (some stack) =>
      let after := { machine with stack }
      (after, after.state)
    | .ok none => (machine, .malformed)
    | .error error => (machine, .failure error)
  | .look l => l.run machine
  | .iterate times body => machine.iterate (Step.runBody · body) times
termination_by structural step => step

-- Steps in a row up to the first change of the stack that fails, with its answer. A look ends nothing, whatever it
-- finds.
def Step.runBody (machine : Machine) : List Step → Machine × Option Answer
  | [] => (machine, none)
  | step :: steps =>
    let (after, answer) := step.run machine
    if step.isChange && answer.isFailure then (after, some answer) else Step.runBody after steps
termination_by structural steps => steps

end

-- Steps in a row, with one answer each; those behind a failing one are run too.
def Step.runAll (machine : Machine) : List Step → Machine × List Answer
  | [] => (machine, [])
  | step :: steps =>
    let (after, answer) := step.run machine
    let (last, answers) := Step.runAll after steps
    (last, answer :: answers)

end Treeline.Assembly
