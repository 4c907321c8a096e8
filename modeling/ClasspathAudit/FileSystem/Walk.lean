import ClasspathAudit.Descriptor
import ClasspathAudit.FileSystem

/-
# Walks through directories

Two walks go through a directory and all that lies below it. The walk for compiled classes follows
links and fails where a link leads nowhere or back into a directory that the walk is in; the walk
for descriptors passes links over, and some directories by their names.
-/
namespace ClasspathAudit
namespace FileSystem

/-! ### Compiled classes -/

/-- The ending of the names of compiled classes. -/
def classExtension : String := "class"

/-- Whether a name is one of a compiled class. -/
def isClassName (name : String) : Bool :=
  Path.extensionOf? name == some classExtension

/-- The path of what lies below a directory. -/
def pathBelow (root : Path) (names : List String) : Path :=
  names.foldl Path.child root

/-- The directories on the way from `place` to what it holds under `names`, with itself. -/
def directoriesTo (place : Location) (names : List String) : List Location :=
  (List.range names.length).map fun n => place ++ names.take n

/-- The compiled classes below the directory at `place`, which is called `root`; `outer` are the
directories around it that the walk is in. The budget counts directories. -/
def classFilesBelow (fs : FileSystem) :
    Nat → List Location → Location → Path → Except Failure (List Path)
  | 0, _, _, _ => .ok []
  | budget + 1, outer, place, root => do
    let parts ← (fs.below place).mapM fun (names, entry) => do
      let path := pathBelow root names
      let file := if names.getLast?.any isClassName then [path] else []
      match entry with
      | .file _ => return file
      | .directory => return []
      | .link _ =>
        match fs.locate path with
        | .error fault => .error (.walk fault)
        | .ok target =>
          match fs.entry? target with
          | some .directory =>
            let around := outer ++ directoriesTo place names
            if around.contains target then .error (.walk .other)
            else classFilesBelow fs budget around target path
          | _ => return file
    return parts.flatten

/-- The compiled classes below the directory that a path leads to. -/
def classFiles (fs : FileSystem) (root : Path) : Except Failure (List Path) :=
  match fs.locate root with
  | .ok place => classFilesBelow fs (fs.entries.size + 1) [] place root
  | .error fault => .error (.walk fault)

/-! ### Descriptors -/

/-- The names of directories that hold no descriptors of their own accord: what builds and other
tools leave behind. -/
def skippedNames : List String :=
  ["target", "build", ".git", "node_modules", ".gradle"]

/-- The descriptors below the directory that a path leads to. -/
def descriptorsBelow (fs : FileSystem) (root : Path) : List Path :=
  match fs.locate root with
  | .ok place => (fs.below place).filterMap fun (names, entry) =>
    match entry with
    | .file _ =>
      if names.getLast? == some Descriptor.fileName &&
          names.dropLast.all (!skippedNames.contains ·) then
        some (pathBelow root names)
      else
        none
    | _ => none
  | .error _ => []

end FileSystem
end ClasspathAudit
