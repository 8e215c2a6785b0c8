import Treeline.Text.Plain

namespace Treeline.Command

-- The command line. Arguments are read from left to right. The latest value stays pending: it is checked when the next
-- option is met or the arguments end, but an unknown argument is reported before that.

structure Options where
  path : String
  output : Option String
  verbose : Bool
  timing : Bool
deriving DecidableEq, Repr

inductive UsageError
  | missingPath
  | unexpectedArgument (argument : String)
  | missingValue (option : String)
  | repeated (option : String)
  | unexpectedValue (value option : String)
deriving DecidableEq, Repr

-- What the user wrote is repeated without terminal controls.
def UsageError.message : UsageError → String
  | .missingPath => "error: the following required arguments were not provided:"
  | .unexpectedArgument argument => "error: unexpected argument '" ++ Text.plain argument ++ "' found"
  | .missingValue option => "error: a value is required for '" ++ option ++ "' but none was supplied"
  | .repeated option => "error: the argument '" ++ option ++ "' cannot be used multiple times"
  | .unexpectedValue value option =>
    "error: unexpected value '" ++ Text.plain value ++ "' for '" ++ option ++ "' found; no more were expected"

inductive Halt
  | usage (error : UsageError)
  | help (long : Bool)
  | version
deriving DecidableEq, Repr

def pathName : String := "<PATH>"

def outputName : String := "--output <OUTPUT>"

def verboseName : String := "--verbose"

def timingName : String := "--timing"

def helpName : String := "--help"

def versionName : String := "--version"

-- A value that has not been checked yet; an output option may still wait for its value.
inductive Pending
  | path (value : String)
  | output (value : Option String)
deriving DecidableEq, Repr

structure Progress where
  path : Option String := none
  output : Option String := none
  verbose : Bool := false
  timing : Bool := false
  pending : Option Pending := none
  -- Whether the one positional argument has been met.
  placed : Bool := false
deriving DecidableEq, Repr

namespace Progress

def setOutput (p : Progress) (value : String) : Except Halt Progress :=
  if p.output.isSome then .error (.usage (.repeated outputName))
  else if value.isEmpty then .error (.usage (.missingValue outputName))
  else .ok { p with output := some value }

def settle (p : Progress) : Except Halt Progress :=
  let settled := { p with pending := none }
  match p.pending with
  | none => .ok p
  | some (.path value) =>
    if value.isEmpty then .error (.usage (.missingValue pathName)) else .ok { settled with path := some value }
  | some (.output none) => .error (.usage (.missingValue outputName))
  | some (.output (some value)) => settled.setOutput value

def setVerbose (p : Progress) : Except Halt Progress := do
  let p ← p.settle
  if p.verbose then .error (.usage (.repeated verboseName)) else .ok { p with verbose := true }

def setTiming (p : Progress) : Except Halt Progress := do
  let p ← p.settle
  if p.timing then .error (.usage (.repeated timingName)) else .ok { p with timing := true }

def startOutput (p : Progress) (attached : Option String) : Except Halt Progress := do
  let p ← p.settle
  match attached with
  | some value => p.setOutput value
  | none => .ok { p with pending := some (.output none) }

def stopWith {α : Type} (p : Progress) (halt : Halt) : Except Halt α := do
  let _ ← p.settle
  .error halt

-- The value of an option in a group of letters; an equals sign before it is dropped.
def attachedValue : List Char → Option String
  | [] => none
  | '=' :: value => some (String.ofList value)
  | value => some (String.ofList value)

def readLetters (p : Progress) : List Char → Except Halt Progress
  | [] => .ok p
  | c :: letters =>
    if c = 'v' then do (← p.setVerbose).readLetters letters
    else if c = 't' then do (← p.setTiming).readLetters letters
    else if c = 'h' then p.stopWith (.help false)
    else if c = 'V' then p.stopWith .version
    else if c = 'o' then p.startOutput (attachedValue letters)
    else .error (.usage (.unexpectedArgument (String.ofList ['-', c])))

def readFlag (option : String) (value : Option String) (flag : Except Halt Progress) : Except Halt Progress :=
  match value with
  | some value => .error (.usage (.unexpectedValue value option))
  | none => flag

def readLong (p : Progress) (name : String) (value : Option String) : Except Halt Progress :=
  if name = "output" then p.startOutput value
  else if name = "verbose" then readFlag verboseName value p.setVerbose
  else if name = "timing" then readFlag timingName value p.setTiming
  else if name = "help" then readFlag helpName value (p.stopWith (.help true))
  else if name = "version" then readFlag versionName value (p.stopWith .version)
  else .error (.usage (.unexpectedArgument ("--" ++ name)))

def readPositional (p : Progress) (argument : String) : Except Halt Progress := do
  if p.placed then .error (.usage (.unexpectedArgument argument))
  else
    let p ← p.settle
    return { p with pending := some (.path argument), placed := true }

def splitValue (option : List Char) : String × Option String :=
  match option.dropWhile (· != '=') with
  | [] => (String.ofList option, none)
  | _ :: value => (String.ofList (option.takeWhile (· != '=')), some (String.ofList value))

def readArgument (p : Progress) (argument : String) : Except Halt Progress :=
  match argument.toList with
  | '-' :: '-' :: option => let (name, value) := splitValue option; p.readLong name value
  | '-' :: c :: letters => p.readLetters (c :: letters)
  | _ =>
    match p.pending with
    | some (.output none) => .ok { p with pending := some (.output (some argument)) }
    | _ => p.readPositional argument

-- All arguments; behind `--` every one is positional.
def readAll (p : Progress) (positional : Bool) : List String → Except Halt Progress
  | [] => p.settle
  | argument :: arguments =>
    if positional then do (← p.readPositional argument).readAll true arguments
    else if argument = "--" then p.readAll true arguments
    else do (← p.readArgument argument).readAll false arguments

end Progress

def Options.read (arguments : List String) : Except Halt Options := do
  let p ← Progress.readAll {} false arguments
  match p.path with
  | none => .error (.usage .missingPath)
  | some path => .ok ⟨path, p.output, p.verbose, p.timing⟩

end Treeline.Command
