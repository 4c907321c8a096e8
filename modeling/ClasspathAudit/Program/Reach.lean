import ClasspathAudit.Program

/-
# What a command looks at

The paths that a command will look at, as far as the files known so far tell. Where files are read
one by one, these are the ones to read next; once all of them are known the command can be carried
out.
-/
namespace ClasspathAudit

/-- The part of an entry of a list of modules before the first part with a wildcard. -/
def PathPattern.stem (entry : String) : String :=
  "/".intercalate ((Text.splitOnChar '/' entry).takeWhile (!PathPattern.isPattern ·))

namespace Program

/-- The directories in which the modules of the descriptor at a path lie. -/
def moduleDirs (fs : FileSystem) (path : Path) : List Path :=
  match Descriptor.ofFile fs path with
  | .ok d => d.modules.map fun entry =>
    (Descriptor.baseOf path).child (PathPattern.stem entry)
  | .error _ => []

/-- The paths that the analysis of a project looks at. -/
def projectPaths (repository : Option Repository) (project : Project) : List Path :=
  project.outputDir :: (project.direct ++ project.transitive).filterMap fun a =>
    match a.location, repository with
    | some path, _ => some path
    | none, some r => some (r.artifactPath a.coordinates)
    | none, none => none

/-- The paths that the analysis of all projects found at some paths looks at. -/
def analysisPaths (w : Surroundings) (repository : Option Path) (paths : List Path) : List Path :=
  let found := Discovery.ofPaths w.files paths
  let place := match repository with
    | some root => some ⟨root⟩
    | none => (Repository.userDefault w.home?).toOption
  paths ++ found.seen.flatMap (moduleDirs w.files) ++
    found.projects.flatMap (projectPaths place)

/-- The paths that a command looks at. -/
def reach (w : Surroundings) : Command → List Path
  | .check o => analysisPaths w o.common.repository (Command.pathsOr w.files.workingPath o.common)
  | .suggest o => analysisPaths w o.repository (Command.pathsOr w.files.workingPath o)
  | .refs o => [o.path]

end Program
end ClasspathAudit
