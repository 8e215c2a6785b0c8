import Treeline.Command.Options
import Treeline.Error
import Treeline.Tally.Count
import Treeline.Text.Bytes

namespace Treeline.Command

-- What a run has to say.

inductive Phase
  | loading
  | counting
  | rendering
  | total
deriving DecidableEq, Repr

inductive Notice
  | loaded (path : String)
  | rendered (lines : Nat)
  | written (path : String)
  | counted (nodes : Nat)
  | statistics (tally : Tally) (lines : Nat)
  | successful
  | failed (error : Error)

def padLeft (width : Nat) (text : String) : String :=
  String.ofList (List.replicate (width - text.length) ' ') ++ text

def statisticsText (seconds : Phase → String) (tally : Tally) (lines : Nat) : String :=
  let rule := "+---------------------+-----------+\n"
  let row (name : String) (phase : Phase) := name ++ padLeft 9 (seconds phase) ++ " |\n"
  "\n Render Statistics:\n" ++ rule ++ "| Phase               | Time (s)  |\n" ++ rule ++
    row "| Loading             | " .loading ++
    row "| Counting            | " .counting ++
    row "| Rendering           | " .rendering ++ rule ++
    row "| Total Time          | " .total ++ rule ++
    "\n Tree Metrics:\n" ++
    "  - Expressions:        " ++ toString tally.expressions ++ "\n" ++
    "  - Statements:         " ++ toString tally.statements ++ "\n" ++
    "  - Declarations:       " ++ toString tally.declarations ++ "\n" ++
    "  - Max Depth:          " ++ toString tally.maxDepth ++ "\n" ++
    "  - Output Lines:       " ++ toString lines ++ "\n"

-- The text of a notice, given how long each phase took.
def Notice.text (seconds : Phase → String) : Notice → String
  | .loaded path => "Loaded tree from " ++ path ++ " in " ++ seconds .loading ++ "s\n"
  | .rendered lines => "Rendered " ++ toString lines ++ " lines in " ++ seconds .rendering ++ "s\n"
  | .written path => "Trace written to: " ++ path ++ "\n"
  | .counted nodes => "Counted " ++ toString nodes ++ " nodes in " ++ seconds .counting ++ "s\n"
  | .statistics tally lines => statisticsText seconds tally lines
  | .successful => "Render successful!\n"
  | .failed error => "Error: Render failed: " ++ error.message ++ "\n"

structure Report where
  notices : List Notice
  failure : Option Error

namespace Report

def notice (condition : Bool) (notice : Notice) : List Notice := if condition then [notice] else []

def allNotices (report : Report) : List Notice :=
  report.notices ++ (report.failure.map Notice.failed).toList

def exitCode (report : Report) : UInt32 := if report.failure.isSome then 1 else 0

end Report

-- What came of printing: the bytes that were printed, and what kept others from it.
structure Printing where
  printed : Bytes
  failure : Option Error

-- All that is said once printing has ended.
def reportPrinting (options : Options) (tree : Statement) (printing : Printing) : Report :=
  match printing.failure with
  | some error => ⟨[], some error⟩
  | none =>
    let lines := Bytes.lineCount printing.printed
    let printed := Report.notice options.verbose (.rendered lines) ++
      match options.output with
      | some path => Report.notice options.verbose (.written path)
      | none => []
    if options.timing then
      match tree.count Depth.root Tally.empty with
      | .error missing => ⟨printed, some (.structural missing)⟩
      | .ok tally =>
        ⟨printed ++ Report.notice options.verbose (.counted tally.total) ++ [.statistics tally lines] ++
          Report.notice options.verbose .successful, none⟩
    else ⟨printed ++ Report.notice options.verbose .successful, none⟩

end Treeline.Command
