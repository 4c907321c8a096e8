import ClasspathAudit.Failure
import ClasspathAudit.Project

/-
# Local repositories

A local repository keeps every artifact at a place that follows from its coordinates: the segments
of the group, the name and the version are directories, and the file name holds name, version,
classifier and the extension of the packaging type. Whether there is anything at that place is
another question.
-/
namespace ClasspathAudit

/-- A directory of archives. -/
structure Repository where
  /-- The directory. -/
  root : Path
deriving DecidableEq

namespace Repository

/-- Where the repository of a user lies in the home directory. -/
def defaultPlace : Path := ⟨".m2/repository"⟩

/-- The repository of the user with the given home directory. -/
def userDefault (home : Option Path) : Except Failure Repository :=
  match home with
  | some home => .ok ⟨home.join defaultPlace⟩
  | none => .error (.configuration .noHome)

/-- The name of the file that holds an artifact. -/
def fileName (c : Coordinates) : String :=
  s!"{c.name}-{c.version}" ++
    (match c.classifier with
      | some classifier => "-" ++ classifier
      | none => "") ++
    "." ++ c.packaging.fileExtension

/-- The names on the way from the root of a repository to the file that holds an artifact. -/
def steps (c : Coordinates) : List String :=
  Text.splitOnChar '.' c.group ++ [c.name, c.version, fileName c]

/-- The place of an artifact in the repository. -/
def artifactPath (r : Repository) (c : Coordinates) : Path :=
  (steps c).foldl Path.child r.root

/-- The artifact with its location, which is its place in the repository if it had none. -/
def resolve (r : Repository) (a : Artifact) : Except Failure Artifact :=
  if a.isResolved then .ok a
  else if a.coordinates.group = "" ∨ a.coordinates.name = "" then .error (.resolution a.label)
  else .ok (a.withLocation (r.artifactPath a.coordinates))

end Repository

end ClasspathAudit
