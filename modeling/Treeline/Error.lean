import Treeline.Document.Fault
import Treeline.Tree.Slot

namespace Treeline

-- What the outside can refuse: reading a file, or taking output.
inductive IoFault
  | notFound
  | notADirectory
  | isADirectory
  | notText
  | sinkClosed
  | nothingTaken
  | bufferNotTaken
  | diskFull
  | noSpace
  | other (detail : String)
deriving DecidableEq, Repr

def IoFault.message : IoFault → String
  | .notFound => "No such file or directory (os error 2)"
  | .notADirectory => "Not a directory (os error 20)"
  | .isADirectory => "Is a directory (os error 21)"
  | .notText => "stream did not contain valid UTF-8"
  | .sinkClosed => "sink closed"
  | .nothingTaken => "failed to write whole buffer"
  | .bufferNotTaken => "failed to write the buffered data"
  | .diskFull => "disk full"
  | .noSpace => "No space left on device (os error 28)"
  | .other detail => detail

inductive Error
  | structural (missing : Missing)
  | io (fault : IoFault)
  | notDocumentFile
  | decode (error : DecodeError)

namespace Error

-- The extension that files of documents have.
def documentExtension : String := "json"

def message : Error → String
  | .structural missing => "Structural error: " ++ missing.message
  | .io fault => "I/O error: " ++ fault.message
  | .notDocumentFile => "File read error: File must have a ." ++ documentExtension ++ " extension"
  | .decode error => "Tree decode error: " ++ error.message

-- Whether the tree itself is at fault, rather than the way to it or from it.
def isStructural : Error → Bool
  | .structural _ => true
  | _ => false

end Error

end Treeline
