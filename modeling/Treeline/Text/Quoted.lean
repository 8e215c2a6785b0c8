import Treeline.Text.Printable

namespace Treeline.Text

-- Texts quoted for messages: quotes and backslashes are escaped, line ends and tabs have short forms, and what cannot
-- be seen is written by its number.

def hexadecimal (c : Char) : List Char := Nat.toDigits 16 c.toNat

def quotedChar (c : Char) : List Char :=
  if c = '"' then ['\\', '"']
  else if c = '\\' then ['\\', '\\']
  else if c = '\n' then ['\\', 'n']
  else if c = '\r' then ['\\', 'r']
  else if c = '\t' then ['\\', 't']
  else if c = '\x00' then ['\\', '0']
  else if isVisible c then [c]
  else ['\\', 'u', '\x7b'] ++ hexadecimal c ++ ['\x7d']

def quoted (text : String) : String :=
  String.ofList ('"' :: (text.toList.flatMap quotedChar ++ ['"']))

end Treeline.Text
