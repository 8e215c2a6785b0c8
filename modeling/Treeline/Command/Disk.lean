import Treeline.Error
import Treeline.Text.Bytes

namespace Treeline

-- A model of the files that a run can see, by path from the working directory.

inductive DiskEntry
  | file (contents : Bytes)
  | directory
  | fullDevice
  | nullDevice
  | outputDevice
deriving DecidableEq, Repr

-- A place on the disk: names from the working directory, or from the root, whose own name is `/`.
abbrev Location := List String

abbrev Disk := List (Location × DiskEntry)

namespace Disk

def rootName : String := "/"

def devices : Disk :=
  [([rootName, "dev", "full"], .fullDevice), ([rootName, "dev", "null"], .nullDevice),
    ([rootName, "dev", "stdout"], .outputDevice)]

-- Directories need no entry of their own: a place above another one is a directory, and so is everything above the
-- working directory.
def lookup? (disk : Disk) (location : Location) : Option DiskEntry :=
  match disk.find? fun entry => entry.1 == location with
  | some entry => some entry.2
  | none =>
    if location.all (· == "..") || location == [rootName] ||
        disk.any (fun entry => location.isPrefixOf entry.1) then some .directory
    else none

def names (path : String) : List String :=
  ((path.toList.splitOn '/').filter fun name => !name.isEmpty).map String.ofList

def start (path : String) : Location := if path.startsWith rootName then [rootName] else []

def parent (location : Location) : Location :=
  if location.all (· == "..") then location ++ [".."]
  else if location == [rootName] then location
  else location.dropLast

def advance (location : Location) (name : String) : Location :=
  if name = "." then location else if name = ".." then parent location else location ++ [name]

-- The place that a path names, whether anything is there or not.
def locate (path : String) : Location := (names path).foldl advance (start path)

def walk (disk : Disk) (location : Location) : List String → Except IoFault Location
  | [] => .ok location
  | name :: rest =>
    match disk.lookup? location with
    | none => .error .notFound
    | some .directory => disk.walk (advance location name) rest
    | some _ => .error .notADirectory

def endsInSlash (path : String) : Bool := path.endsWith "/"

def read (disk : Disk) (path : String) : Except IoFault Bytes := do
  if path.isEmpty then .error .notFound
  let location ← disk.walk (start path) (names path)
  match disk.lookup? location with
  | none => .error .notFound
  | some .directory => .error .isADirectory
  | some (.file contents) => if endsInSlash path then .error .notADirectory else .ok contents
  | some .nullDevice => .ok []
  | some .fullDevice | some .outputDevice => .error (.other "device")

-- The place of a file to be written, made or not.
def create (disk : Disk) (path : String) : Except IoFault (Location × DiskEntry) := do
  if path.isEmpty then .error .notFound
  let location ← disk.walk (start path) (names path)
  match disk.lookup? location with
  | some .directory => .error .isADirectory
  | found =>
    if endsInSlash path then .error .isADirectory
    else .ok (location, found.getD (.file []))

def store (disk : Disk) (location : Location) (contents : Bytes) : Disk :=
  (location, .file contents) :: disk.filter fun entry => entry.1 != location

def contents? (disk : Disk) (location : Location) : Option Bytes :=
  match disk.find? fun entry => entry.1 == location with
  | some (_, .file contents) => some contents
  | _ => none

theorem find?_store_of_ne {location other : Location} (distinct : other ≠ location) (disk : Disk) (contents : Bytes) :
    (disk.store location contents).find? (fun entry => entry.1 == other) =
      disk.find? fun entry => entry.1 == other := by
  have apart : ∀ entry : Location × DiskEntry, (entry.1 == other) = true → (entry.1 != location) = true := by
    intro entry same
    rw [beq_iff_eq.mp same]
    exact bne_iff_ne.mpr distinct
  rw [store, List.find?_cons_of_neg (by simpa using Ne.symm distinct), List.find?_filter]
  congr 1
  funext entry
  cases same : entry.1 == other with
  | false => simp
  | true => simp [apart entry same]

theorem contents?_store (disk : Disk) (location : Location) (contents : Bytes) :
    (disk.store location contents).contents? =
      fun other => if other = location then some contents else disk.contents? other := by
  funext other
  by_cases same : other = location
  · simp [contents?, store, same]
  · rw [contents?, find?_store_of_ne same, if_neg same]
    rfl

end Disk

end Treeline
