import Treeline.Error
import Treeline.Tally.Basic
import Treeline.Trace.Basic
import Treeline.Tree.Kind

namespace Treeline.Assembly

-- A stack machine puts trees together by hand, empty places included, and looks at them.

inductive Build
  | empty
  | literal (expression : Expression)
  | parse (source : String)
  | unary (symbol : String)
  | binary (symbol : String)
  | compare (symbol : String)
  | comparison (symbol : String)
  | call (callee : String) (count : Nat)
  | expressionStatement
  | assign (target : String)
  | toStatement
  | variableDecl (typeName name : String)
  | returning
  | block (count : Nat)
  | conditional
  | whileLoop
  | forLoop
  | functionDecl (returnType name : String) (count : Nat)
  | classDecl (name : String)
  | duplicate
  | swap
  | drop

inductive Look
  | label
  | display
  | render (level : Nat)
  | count
  | dispatch (scope : Nat)
  | document
  | reparse
  | equal
  | print
  | output

inductive Step
  | build (build : Build)
  | look (look : Look)
  | iterate (times : Nat) (body : List Step)

-- Whether a step is there to change the stack; a repetition is, whatever its body holds.
def Step.isChange : Step → Bool
  | .build _ | .iterate _ _ => true
  | .look _ => false

inductive Answer
  | stack (size : Nat) (top : Option (String × String))
  | label (label : String)
  | display (label : String)
  | trace (trace : Trace)
  | tally (tally : Tally)
  | dispatched (kind : Kind) (scope : Nat)
  | document (text : String)
  | equal (equal : Bool)
  | printed (failure : Option Error) (written refusals : Nat)
  | output (bytes : Bytes)
  | failure (error : Error)
  | malformed

def Answer.isFailure : Answer → Bool
  | .failure _ | .malformed => true
  | _ => false

end Treeline.Assembly
