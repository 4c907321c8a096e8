import ClasspathAudit.Artifact.Basic

/-
# Projects

A project has coordinates of its own, a directory of compiled classes and two lists of
dependencies: those that it declares, and those that come with them.
-/
namespace ClasspathAudit

/-- The coordinates of a project. -/
structure ProjectId where
  /-- The group that publishes it. -/
  group : String
  /-- Its name in the group. -/
  name : String
  /-- Its version. -/
  version : String
  /-- How it is packaged. -/
  packaging : Packaging
deriving DecidableEq, Inhabited

namespace ProjectId

/-- A project in one line. -/
def label (id : ProjectId) : String :=
  s!"{id.group}:{id.name}:{id.packaging.label}:{id.version}"

end ProjectId

/-- Whether `a` is what the project called `id` produces. -/
def Artifact.isProducedBy (a : Artifact) (id : ProjectId) : Bool :=
  a.coordinates.group == id.group && a.coordinates.name == id.name &&
    a.coordinates.version == id.version

/-- A project to be analysed. -/
structure Project where
  /-- Its coordinates. -/
  id : ProjectId
  /-- The directory of its compiled classes. -/
  outputDir : Path
  /-- The descriptor that describes it, if any. -/
  descriptor : Option Path
  /-- The dependencies that it declares. -/
  direct : List Artifact
  /-- The dependencies that come with those. -/
  transitive : List Artifact
deriving DecidableEq, Inhabited

namespace Project

/-- A project with the given dependencies. What it declares itself is taken out of its transitive
dependencies. -/
def make (id : ProjectId) (outputDir : Path) (descriptor : Option Path)
    (direct transitive : List Artifact) : Project where
  id
  outputDir
  descriptor
  direct
  transitive := transitive.filter fun a => !(direct.map (·.coordinates)).contains a.coordinates

end Project
end ClasspathAudit
