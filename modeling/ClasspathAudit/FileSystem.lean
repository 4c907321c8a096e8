import Std.Data.ExtTreeMap
import ClasspathAudit.Failure
import ClasspathAudit.Text.Utf8

/-
# File systems

A file system is a finite map from locations to what lies there: files with their bytes,
directories, and symbolic links. A path is looked up step by step from the root or from the working
directory; a link on the way is replaced by its target, and a lookup that meets too many links is
given up.
-/
namespace ClasspathAudit

/-- The place of a file or directory: the names on the way to it from the root. -/
abbrev Location := List String

/-- What lies at a location. -/
inductive Entry
  /-- A file with its bytes. -/
  | file (content : Array UInt8)
  /-- A directory. -/
  | directory
  /-- A symbolic link. -/
  | link (target : Path)
deriving DecidableEq

/-- Files, directories and links, and the directory from which relative paths are seen. -/
structure FileSystem where
  /-- What lies at each location but the root, which is a directory. -/
  entries : Std.ExtTreeMap Location Entry compare
  /-- The working directory. -/
  workingDir : Location

namespace FileSystem

/-! ### Locations -/

/-- What lies at a location. -/
def entry? (fs : FileSystem) (place : Location) : Option Entry :=
  if place = [] then some .directory else fs.entries[place]?

/-- The path of a location from the root. -/
def pathOf (place : Location) : Path :=
  ⟨"/" ++ "/".intercalate place⟩

/-- The path of the working directory. -/
def workingPath (fs : FileSystem) : Path :=
  pathOf fs.workingDir

/-! ### Looking up paths -/

/-- The number of links that a lookup follows before it gives up. -/
def maxLinks : Nat := 40

/-- The greatest length of a name, in bytes. -/
def maxName : Nat := 255

/-- The greatest length of a path, in bytes. -/
def maxPath : Nat := 4095

/-- The texts between the slashes of a path, without the empty one before the root. -/
def stepsOf (p : Path) : List String :=
  match Text.splitOnChar '/' p.text with
  | "" :: rest => if p.isAbsolute then rest else "" :: rest
  | steps => steps

/-- Where the steps of a path start. -/
def startOf (p : Path) (place : Location) : Location :=
  if p.isAbsolute then [] else place

/-- Goes `steps` from `place`, where `jump` goes on from a place with the steps behind a link. -/
def walkSteps (fs : FileSystem) (jump : Location → List String → Except FileFault Location)
    (place : Location) : List String → Except FileFault Location
  | [] => .ok place
  | step :: rest =>
    if fs.entry? place ≠ some .directory then .error .notADirectory
    else if step = "" ∨ step = "." then walkSteps fs jump place rest
    else if step = ".." then walkSteps fs jump place.dropLast rest
    else if maxName < step.utf8ByteSize then .error .invalidFilename
    else
      match fs.entry? (place ++ [step]) with
      | none => .error .notFound
      | some (.link target) => jump (startOf target place) (stepsOf target ++ rest)
      | some _ => walkSteps fs jump (place ++ [step]) rest

/-- Goes `steps` from `place` through at most `links` links. -/
def walkFrom (fs : FileSystem) : Nat → Location → List String → Except FileFault Location
  | 0 => walkSteps fs fun _ _ => .error .linkCircle
  | links + 1 => walkSteps fs (walkFrom fs links)

/-- The location that a path leads to. -/
def locate (fs : FileSystem) (p : Path) : Except FileFault Location :=
  if p.text = "" then .error .notFound
  else if p.text.toList.contains '\x00' then .error .invalidInput
  else if maxPath < p.text.utf8ByteSize then .error .invalidFilename
  else walkFrom fs maxLinks (startOf p fs.workingDir) (stepsOf p)

/-- What a path leads to. -/
def find? (fs : FileSystem) (p : Path) : Option Entry :=
  match fs.locate p with
  | .ok place => fs.entry? place
  | .error _ => none

/-- Whether a path leads anywhere. -/
def contains (fs : FileSystem) (p : Path) : Bool :=
  (fs.find? p).isSome

/-- Whether a path leads to a directory. -/
def isDirectory (fs : FileSystem) (p : Path) : Bool :=
  fs.find? p matches some .directory

/-- Whether a path leads to a file. -/
def isFile (fs : FileSystem) (p : Path) : Bool :=
  fs.find? p matches some (.file _)

/-- The path from the root to where a path leads; a path that leads nowhere stays as it is. -/
def canonical (fs : FileSystem) (p : Path) : Path :=
  match fs.locate p with
  | .ok place => pathOf place
  | .error _ => p

/-! ### Reading -/

/-- The bytes of the file at a path. -/
def readFile (fs : FileSystem) (p : Path) : Except FileFault (Array UInt8) := do
  match fs.entry? (← fs.locate p) with
  | some (.file content) => .ok content
  | some .directory => .error .isADirectory
  | some (.link _) | none => .error .notFound

/-- The text of the file at a path. -/
def readText (fs : FileSystem) (p : Path) : Except FileFault String := do
  match Utf8.decode? (← fs.readFile p).toList with
  | some text => .ok text
  | none => .error .invalidData

/-- The names below a directory with what lies there, each as the names on the way from the
directory; a directory comes before what it holds, and names of one directory in their order. -/
def below (fs : FileSystem) (place : Location) : List (List String × Entry) :=
  fs.entries.toList.filterMap fun (other, entry) =>
    if place.isPrefixOf other && place.length < other.length then
      some (other.drop place.length, entry)
    else
      none

/-- The names in the directory that a path leads to, in order. -/
def namesIn (fs : FileSystem) (p : Path) : List String :=
  match fs.locate p with
  | .ok place => (fs.below place).filterMap fun
    | ([name], _) => some name
    | _ => none
  | .error _ => []

/-! ### Building -/

/-- The file system with no more than the root and the working directory. -/
def empty (workingDir : Location) : FileSystem where
  entries := Std.ExtTreeMap.ofList
    ((List.range workingDir.length).map fun n => (workingDir.take (n + 1), Entry.directory))
  workingDir

/-- The file system with an entry at a location. -/
def set (fs : FileSystem) (place : Location) (entry : Entry) : FileSystem :=
  { fs with entries := fs.entries.insert place entry }

/-- The location that a path would have: each name on the way that leads somewhere is followed, and
the others are taken as they stand. -/
def destination (fs : FileSystem) (place : Location) : List String → Location
  | [] => place
  | step :: rest =>
    if step = "" ∨ step = "." then destination fs place rest
    else if step = ".." then destination fs place.dropLast rest
    else
      match walkFrom fs maxLinks place [step] with
      | .ok found => destination fs found rest
      | .error _ => destination fs (place ++ [step]) rest

/-- The file system with a directory at `place` and on the way to it, where nothing was there. -/
def withDirectory (fs : FileSystem) (place : Location) : FileSystem :=
  (List.range place.length).foldl (fun fs n =>
    let part := place.take (n + 1)
    if (fs.entry? part).isSome then fs else fs.set part .directory) fs

/-- The file system with a further directory at a path. -/
def makeDirectory (fs : FileSystem) (p : Path) : FileSystem :=
  fs.withDirectory (fs.destination (startOf p fs.workingDir) (stepsOf p))

/-- The file system with a further file or link at a path, and with the directories on the way. A
file is written to where a link at the path leads. -/
def write (fs : FileSystem) (p : Path) (entry : Entry) : FileSystem :=
  let steps := stepsOf p
  let parent := fs.destination (startOf p fs.workingDir) steps.dropLast
  let place := match entry with
    | .link _ => parent ++ steps.getLast?.toList
    | _ => fs.destination parent steps.getLast?.toList
  (fs.withDirectory place.dropLast).set place entry

/-- The file system without the file, link or directory at a path, and without what lies below. -/
def remove (fs : FileSystem) (p : Path) : FileSystem :=
  let steps := stepsOf p
  let parent := fs.destination (startOf p fs.workingDir) steps.dropLast
  let place := parent ++ steps.getLast?.toList
  { fs with entries := fs.entries.filter fun other _ => !place.isPrefixOf other }

end FileSystem
end ClasspathAudit
