namespace Treeline

-- Output, files and positions are measured in UTF-8 bytes, never in characters.
abbrev Bytes := List UInt8

namespace Bytes

def ofText (text : String) : Bytes := text.toList.flatMap String.utf8EncodeChar

def toText? (bytes : Bytes) : Option String := String.fromUTF8? ⟨bytes.toArray⟩

def newline : UInt8 := 10

def space : UInt8 := 32

def lineCount (bytes : Bytes) : Nat := bytes.count newline

theorem ofText_append (left right : String) : ofText (left ++ right) = ofText left ++ ofText right := by
  simp [ofText]

theorem toText?_ofText (text : String) : toText? (ofText text) = some text := by
  have spelled : (⟨(ofText text).toArray⟩ : ByteArray) = text.toByteArray := by
    rw [← String.utf8Encode_toList, List.utf8Encode]
    exact ByteArray.ext List.data_toByteArray.symm
  rw [toText?, spelled, String.fromUTF8?, dif_pos text.isValidUTF8]
  rfl

end Bytes

end Treeline
