import ClasspathAudit.Console.Log
import ClasspathAudit.FileSystem.Pattern
import ClasspathAudit.FileSystem.Walk

/-
# Finding projects

Projects are found by their descriptors: in a file that is named, below a directory that is named,
and in the modules that a descriptor lists, wherever they lie. A descriptor is read once, however
often and under whatever paths it is come upon. What cannot be read is passed over with a warning.
-/
namespace ClasspathAudit

/-! ### One descriptor -/

/-- The descriptor in the file at a path. -/
def Descriptor.ofFile (fs : FileSystem) (path : Path) : Except Failure Descriptor :=
  match fs.readText path with
  | .ok text => Descriptor.parse path text
  | .error fault => .error (.file path fault)

namespace Discovery

/-- The descriptor of the module in a directory, if it has one. -/
def moduleDescriptor? (fs : FileSystem) (dir : Path) : Option Path :=
  let path := dir.child Descriptor.fileName
  if fs.isFile path then some path else none

/-- The descriptors of the modules that an entry of a list of modules stands for, seen from the
directory `root`, or the warning that there are none. -/
def expandModule (fs : FileSystem) (root : Path) (entry : String) : Except Note (List Path) :=
  let dir := root.child entry
  if PathPattern.isPattern entry then
    match PathPattern.paths fs dir with
    | .ok paths => .ok ((paths.filter fs.isDirectory).filterMap (moduleDescriptor? fs))
    | .error error =>
      .error (.warning s!"Invalid module pattern '{entry}': {error.message}")
  else
    match moduleDescriptor? fs dir with
    | some path => .ok [path]
    | none => .error (.warning s!"Module '{dir.text}' has no {Descriptor.fileName}")

/-- What a descriptor file gives. -/
structure Loaded where
  /-- The project it describes. -/
  project : Option Project
  /-- The descriptors of the modules it lists. -/
  modules : List Path
  /-- What is wrong with it. -/
  notes : List Note

/-- The value of a result that is none where there is a note instead. -/
def noteOf {α : Type} : Except Note α → Option Note
  | .ok _ => none
  | .error note => some note

/-- What a descriptor at `path` gives. -/
def loadDescriptor (fs : FileSystem) (path : Path) (d : Descriptor) : Loaded :=
  let expansions := d.modules.map (expandModule fs (Descriptor.baseOf path))
  let modules := expansions.flatMap fun
    | .ok paths => paths
    | .error _ => []
  let notes := expansions.filterMap noteOf
  match d.toProject path with
  | .ok project => ⟨project, modules, notes⟩
  | .error failure => ⟨none, modules, .warning failure.message :: notes⟩

/-- What the descriptor file at a path gives. -/
def load (fs : FileSystem) (path : Path) : Loaded :=
  match Descriptor.ofFile fs path with
  | .ok d => loadDescriptor fs path d
  | .error failure =>
    let report := Report.ofFailure failure
    ⟨none, [], [.warning s!"Failed to parse {path.text}: {report.line}"]⟩

end Discovery

/-! ### All descriptors -/

/-- What has been found so far. -/
structure Discovery where
  /-- The descriptors come upon, each by its path from the root. -/
  seen : List Path
  /-- The projects. -/
  projects : List Project
  /-- The warnings. -/
  notes : List Note

namespace Discovery

/-- Nothing found yet. -/
def empty : Discovery := ⟨[], [], []⟩

/-- The paths of a list that lead to descriptors not come upon before. -/
def unseen (fs : FileSystem) : List Path → List Path → List Path
  | _, [] => []
  | seen, path :: rest =>
    let place := fs.canonical path
    if seen.contains place then unseen fs seen rest
    else path :: unseen fs (seen ++ [place]) rest

/-- What is found with what some descriptors give. -/
def addAll (d : Discovery) (fs : FileSystem) (paths : List Path) (loaded : List Loaded) :
    Discovery where
  seen := d.seen ++ paths.map fs.canonical
  projects := d.projects ++ loaded.filterMap (·.project)
  notes := d.notes ++ loaded.flatMap (·.notes)

/-- Reads the pending descriptors, then those of the modules they list, and so on until no
descriptor is new. The budget counts descriptors. -/
def follow (fs : FileSystem) : Nat → Discovery → List Path → Discovery
  | 0, d, _ => d
  | budget + 1, d, pending =>
    match unseen fs d.seen pending with
    | [] => d
    | paths =>
      let loaded := paths.map (load fs)
      follow fs budget (d.addAll fs paths loaded) (loaded.flatMap (·.modules))

/-- The descriptors at a path: the file it leads to, or those below the directory. -/
def startingAt (fs : FileSystem) (path : Path) : List Path :=
  if fs.isFile path then [path] else fs.descriptorsBelow path

/-- What is found with what lies at a further path. -/
def addPath (fs : FileSystem) (d : Discovery) (path : Path) : Discovery :=
  if fs.contains path then
    follow fs (fs.entries.size + 1) d (startingAt fs path)
  else
    { d with notes := d.notes ++ [.warning s!"Path '{path.text}' does not exist"] }

/-- The order of projects by the paths of their descriptors. -/
def projectLE (p q : Project) : Bool :=
  match p.descriptor, q.descriptor with
  | some a, some b => (a.compareByComponents b).isLE
  | none, _ => true
  | some _, none => false

/-- What is found at some paths, with the projects in the order of their descriptors. -/
def ofPaths (fs : FileSystem) (paths : List Path) : Discovery :=
  let found := paths.foldl (addPath fs) empty
  { found with projects := found.projects.mergeSort projectLE }

end Discovery
end ClasspathAudit
