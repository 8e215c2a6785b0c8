import Treeline.Command.Disk
import Treeline.Tree.Parse

namespace Treeline

-- The last name in a path, if it is a name at all. A dot counts only where the path begins with it.
def fileName? (path : String) : Option String :=
  match ((Disk.names path).filter (· != ".")).getLast? with
  | some ".." => none
  | last => last

def fileExtension? (path : String) : Option String := do
  let name ← fileName? path
  let fromEnd := name.toList.reverse
  match fromEnd.dropWhile (· != '.') with
  | [] | [_] => none
  | _ => some (String.ofList (fromEnd.takeWhile (· != '.')).reverse)

def isDocumentFile (path : String) : Bool := fileExtension? path == some Error.documentExtension

-- The tree in a file, given what opening the file brings. The extension is checked before that.
def Statement.load (path : String) (contents : Except IoFault Bytes) : Except Error Statement :=
  if !isDocumentFile path then .error .notDocumentFile
  else do
    let bytes ← contents.mapError .io
    match bytes.toText? with
    | none => .error (.io .notText)
    | some source => (Statement.parse source).mapError .decode

def Disk.readTree (disk : Disk) (path : String) : Except Error Statement := Statement.load path (disk.read path)

end Treeline
