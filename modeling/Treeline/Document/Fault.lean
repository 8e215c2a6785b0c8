import Treeline.Document.Basic
import Treeline.Number.Numeral
import Treeline.Text.Bytes
import Treeline.Text.Quoted

namespace Treeline

-- Everything that can be wrong with a document, as causes. The wording is in the `message` functions alone.

-- What a document turned out to be at a place where something else was expected.
inductive Found
  | null
  | boolean (value : Bool)
  | integer (value : Int)
  | double (value : Binary64)
  | string (value : String)
  | sequence
  | map

def Document.found : Document → Found
  | .null => .null
  | .boolean value => .boolean value
  | .integer value => .integer value
  | .double value => .double value
  | .string value => .string value
  | .array _ => .sequence
  | .object _ => .map

def Found.message : Found → String
  | .null => "null"
  | .boolean value => "boolean `" ++ (if value then "true" else "false") ++ "`"
  | .integer value => "integer `" ++ toString value ++ "`"
  | .double value => "floating point `" ++ String.ofList (NumeralStyle.document.write value) ++ "`"
  | .string value => "string " ++ Text.quoted value
  | .sequence => "sequence"
  | .map => "map"

def elementCount (count : Nat) : String :=
  toString count ++ (if count = 1 then " element" else " elements")

-- What was expected instead.
inductive Expectation
  | text
  | boolean
  | integer
  | double
  | sequence
  | unit
  | symbol
  | singleKey
  | tag
  | tagIndex (count : Nat)
  | tagged (title : String)
  | record (title : String)
  | recordOf (title : String) (size : Nat)
  | sequenceOf (size : Nat)

def Expectation.message : Expectation → String
  | .text => "a string"
  | .boolean => "a boolean"
  | .integer => "i64"
  | .double => "f64"
  | .sequence => "a sequence"
  | .unit => "unit"
  | .symbol => "string or map"
  | .singleKey => "map with a single key"
  | .tag => "variant identifier"
  | .tagIndex count => "variant index 0 <= i < " ++ toString count
  | .tagged title => "internally tagged enum " ++ title
  | .record title => "struct " ++ title
  | .recordOf title size => "struct " ++ title ++ " with " ++ elementCount size
  | .sequenceOf size => elementCount size ++ " in sequence"

-- A well-formed document that spells no node.
inductive Fault
  | invalidType (found : Found) (expected : Expectation)
  | invalidValue (found : Found) (expected : Expectation)
  | invalidLength (length : Nat) (expected : Expectation)
  | unknownVariant (name : String) (known : List String)
  | missingField (name : String)
  | duplicateField (name : String)

def alternatives : List String → String
  | [only] => "`" ++ only ++ "`"
  | [first, second] => "`" ++ first ++ "` or `" ++ second ++ "`"
  | names => "one of " ++ String.intercalate ", " (names.map fun name => "`" ++ name ++ "`")

def Fault.message : Fault → String
  | .invalidType found expected => "invalid type: " ++ found.message ++ ", expected " ++ expected.message
  | .invalidValue found expected => "invalid value: " ++ found.message ++ ", expected " ++ expected.message
  | .invalidLength length expected => "invalid length " ++ toString length ++ ", expected " ++ expected.message
  | .unknownVariant name known => "unknown variant `" ++ name ++ "`, expected " ++ alternatives known
  | .missingField name => "missing field `" ++ name ++ "`"
  | .duplicateField name => "duplicate field `" ++ name ++ "`"

-- A text that is no document.
inductive Flaw
  | endOfValue
  | endOfList
  | endOfObject
  | endOfString
  | expectedValue
  | expectedWord
  | expectedColon
  | expectedListEnd
  | expectedObjectEnd
  | trailingComma
  | trailingCharacters
  | keyNotString
  | controlCharacter
  | invalidEscape
  | loneSurrogate
  | brokenSurrogate
  | invalidNumber
  | numberOutOfRange
  | nestingLimit
deriving DecidableEq, Repr

def Flaw.message : Flaw → String
  | .endOfValue => "EOF while parsing a value"
  | .endOfList => "EOF while parsing a list"
  | .endOfObject => "EOF while parsing an object"
  | .endOfString => "EOF while parsing a string"
  | .expectedValue => "expected value"
  | .expectedWord => "expected ident"
  | .expectedColon => "expected `:`"
  | .expectedListEnd => "expected `,` or `]`"
  | .expectedObjectEnd => "expected `,` or `\x7d`"
  | .trailingComma => "trailing comma"
  | .trailingCharacters => "trailing characters"
  | .keyNotString => "key must be a string"
  | .controlCharacter => "control character (\\u0000-\\u001F) found while parsing a string"
  | .invalidEscape => "invalid escape"
  | .loneSurrogate => "lone leading surrogate in hex escape"
  | .brokenSurrogate => "unexpected end of hex escape"
  | .invalidNumber => "invalid number"
  | .numberOutOfRange => "number out of range"
  | .nestingLimit => "recursion limit exceeded"

-- Why a text could not be read as a node.
inductive Cause
  | flaw (flaw : Flaw)
  | fault (fault : Fault)

def Cause.message : Cause → String
  | .flaw f => f.message
  | .fault f => f.message

structure Position where
  line : Nat
  column : Nat
deriving DecidableEq, Repr

namespace Position

-- The position behind the first `offset` bytes: lines count from 1, columns count bytes since the last newline.
def behind (bytes : Bytes) (offset : Nat) : Position :=
  let before := bytes.take offset
  ⟨1 + Bytes.lineCount before, (before.reverse.takeWhile (· != Bytes.newline)).length⟩

def message (position : Position) : String :=
  " at line " ++ toString position.line ++ " column " ++ toString position.column

end Position

-- What is reported of a text that spells no node. Causes found after the text was read have no position.
structure DecodeError where
  cause : Cause
  position : Option Position

namespace DecodeError

def message (error : DecodeError) : String :=
  error.cause.message ++ (error.position.map Position.message).getD ""

def ofFault (fault : Fault) : DecodeError := ⟨.fault fault, none⟩

end DecodeError

end Treeline
