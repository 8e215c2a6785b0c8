import Treeline.Document.Basic
import Treeline.Number.Numeral

namespace Treeline.Document

-- The compact text of a document: no blanks, entries in their order.

def hexDigit (n : Nat) : Char := Nat.digitChar n

-- A character inside a string: quotes, backslashes and control characters are escaped, all else stands for itself.
def escaped (c : Char) : List Char :=
  if c = '"' then ['\\', '"']
  else if c = '\\' then ['\\', '\\']
  else if c = '\x08' then ['\\', 'b']
  else if c = '\x0c' then ['\\', 'f']
  else if c = '\n' then ['\\', 'n']
  else if c = '\r' then ['\\', 'r']
  else if c = '\t' then ['\\', 't']
  else if c.toNat < 0x20 then ['\\', 'u', '0', '0', hexDigit (c.toNat / 16), hexDigit (c.toNat % 16)]
  else [c]

def stringChars (text : String) : List Char := '"' :: (text.toList.flatMap escaped ++ ['"'])

def integerChars : Int → List Char
  | .ofNat n => Nat.toDigits 10 n
  | .negSucc n => '-' :: Nat.toDigits 10 (n + 1)

mutual

def chars : Document → List Char
  | .null => "null".toList
  | .boolean true => "true".toList
  | .boolean false => "false".toList
  | .integer value => integerChars value
  | .double value => NumeralStyle.document.write value
  | .string value => stringChars value
  | .array [] => ['[', ']']
  | .array (item :: items) => '[' :: (item.chars ++ itemsChars items)
  | .object [] => ['\x7b', '\x7d']
  | .object ((key, value) :: entries) =>
    '\x7b' :: (stringChars key ++ ':' :: (value.chars ++ entriesChars entries))

def itemsChars : List Document → List Char
  | [] => [']']
  | item :: items => ',' :: (item.chars ++ itemsChars items)

def entriesChars : List (String × Document) → List Char
  | [] => ['\x7d']
  | (key, value) :: entries => ',' :: (stringChars key ++ ':' :: (value.chars ++ entriesChars entries))

end

-- The text of each kind of document, and of members one by one.

theorem chars_integer (value : Int) : (integer value).chars = integerChars value := rfl

theorem chars_double (value : Binary64) : (double value).chars = NumeralStyle.document.write value := rfl

theorem chars_string (value : String) : (string value).chars = stringChars value := rfl

theorem chars_array_cons (item : Document) (items : List Document) :
    (array (item :: items)).chars = '[' :: (item.chars ++ itemsChars items) := rfl

theorem chars_object_cons (entry : String × Document) (entries : List (String × Document)) :
    (object (entry :: entries)).chars =
      '\x7b' :: (stringChars entry.1 ++ ':' :: (entry.2.chars ++ entriesChars entries)) := rfl

theorem itemsChars_cons (item : Document) (items : List Document) :
    itemsChars (item :: items) = ',' :: (item.chars ++ itemsChars items) := rfl

theorem entriesChars_cons (entry : String × Document) (entries : List (String × Document)) :
    entriesChars (entry :: entries) =
      ',' :: (stringChars entry.1 ++ ':' :: (entry.2.chars ++ entriesChars entries)) := rfl

def text (document : Document) : String := String.ofList document.chars

end Treeline.Document
