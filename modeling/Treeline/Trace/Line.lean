import Treeline.Text.Bytes

namespace Treeline

-- One line of a trace: a text at a nesting level. The text may itself hold newlines; they are not indented.
structure Line where
  level : Nat
  text : String
deriving DecidableEq, Repr

namespace Line

def indentWidth : Nat := 2

def padded (width : Nat) (text : String) : List Bytes :=
  [List.replicate width Bytes.space, Bytes.ofText text, [Bytes.newline]]

def pieces (line : Line) : List Bytes := padded (indentWidth * line.level) line.text

def bytes (line : Line) : Bytes := line.pieces.flatten

end Line

end Treeline
