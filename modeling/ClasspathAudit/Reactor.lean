import ClasspathAudit.Project

/-
# Reactors

The projects that are analysed together. A dependency on one of them is read from the directory of
its compiled classes, not from an archive; packaging type and classifier play no part in that.
-/
namespace ClasspathAudit

/-- What identifies a project in a reactor. -/
structure ModuleKey where
  /-- The group. -/
  group : String
  /-- The name. -/
  name : String
  /-- The version. -/
  version : String
deriving DecidableEq

/-- The key of the module that the project `id` is. -/
def ProjectId.moduleKey (id : ProjectId) : ModuleKey :=
  ⟨id.group, id.name, id.version⟩

/-- The key of the module that would produce an artifact. -/
def Coordinates.moduleKey (c : Coordinates) : ModuleKey :=
  ⟨c.group, c.name, c.version⟩

/-- The output directories of the projects that are analysed together. -/
structure Reactor where
  /-- Each module once, with its output directory. -/
  modules : List (ModuleKey × Path)
deriving DecidableEq

namespace Reactor

/-- The reactor of no projects. -/
def empty : Reactor := ⟨[]⟩

/-- The reactor with a further project, which replaces one with the same key. -/
def insert (r : Reactor) (p : Project) : Reactor :=
  ⟨(p.id.moduleKey, p.outputDir) :: r.modules.filter (·.1 != p.id.moduleKey)⟩

/-- The reactor of a list of projects; of those with the same key the last counts. -/
def ofProjects (projects : List Project) : Reactor :=
  projects.foldl insert empty

/-- The number of modules. -/
def size (r : Reactor) : Nat :=
  r.modules.length

/-- The output directory of the module that produces `a`, if it belongs to the reactor. -/
def outputDir? (r : Reactor) (a : Artifact) : Option Path :=
  r.modules.lookup a.coordinates.moduleKey

end Reactor
end ClasspathAudit
