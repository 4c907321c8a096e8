import ClasspathAudit.Archive.Zip
import ClasspathAudit.DirectoryScan
import ClasspathAudit.Reactor

/-
# Class indexes

The classes that an artifact declares, and where they were read: from the output directory of a
project that is analysed at the same time, from a directory, or from an archive. Artifacts whose
type holds no classes and artifacts that are nowhere to be found declare none.
-/
namespace ClasspathAudit

/-- Where the classes of an artifact were read. -/
inductive ClassSource
  /-- An archive. -/
  | archive (path : Path)
  /-- A directory of compiled classes. -/
  | directory (path : Path)
  /-- The output directory of a project that is analysed at the same time. -/
  | reactor (path : Path)
  /-- Nowhere: artifacts of this type hold no classes. -/
  | ignored
  /-- Nowhere: there is nothing at the location, or no location. -/
  | missing
deriving DecidableEq

/-- The classes that an artifact declares. -/
structure ClassIndex where
  /-- The artifact. -/
  artifact : Artifact
  /-- Where its classes were read. -/
  source : ClassSource
  /-- The classes. -/
  classes : ClassSet

namespace ClassIndex

/-- The set of the classes of a list that have names of their own. -/
def named (classes : List ClassName) : ClassSet :=
  .ofList (classes.filter (!·.isAnonymous))

/-- The bytes of the archive at a path. A directory can be opened, but is no archive. -/
def readArchive (fs : FileSystem) (path : Path) : Except Failure (Array UInt8) :=
  match fs.readFile path with
  | .ok content => .ok content
  | .error .isADirectory => .error (.archive path)
  | .error fault => .error (.file path fault)

/-- The classes that an archive of these bytes declares, told from the names of its entries. -/
def inArchiveOf (path : Path) (content : Array UInt8) : Except Failure ClassSet :=
  (Archive.fileNames? content).elim (.error (.archive path)) fun names =>
    .ok (named (names.filterMap ClassName.ofEntryPath?))

/-- The classes that the archive at a path declares. -/
def inArchive (fs : FileSystem) (path : Path) : Except Failure ClassSet := do
  inArchiveOf path (← readArchive fs path)

/-- The classes that the directory at a path declares, by what the class files in it say. -/
def inDirectory (fs : FileSystem) (path : Path) : Except Failure ClassSet := do
  let scan ← DirectoryScan.ofDirectory fs path
  return scan.declared.filter (!·.isAnonymous)

/-- Where the classes of an artifact are to be read. -/
def sourceOf (fs : FileSystem) (reactor : Reactor) (a : Artifact) : ClassSource :=
  if !a.coordinates.packaging.carriesClasses then .ignored
  else
    match reactor.outputDir? a, a.location with
    | some dir, _ => .reactor dir
    | none, some path =>
      if fs.isDirectory path then .directory path
      else if fs.isFile path then .archive path
      else .missing
    | none, none => .missing

/-- The classes that a source holds. -/
def classesOf (fs : FileSystem) : ClassSource → Except Failure ClassSet
  | .archive path => inArchive fs path
  | .directory path | .reactor path => inDirectory fs path
  | .ignored | .missing => .ok ∅

/-- The classes that an artifact declares. -/
def ofArtifact (fs : FileSystem) (reactor : Reactor) (a : Artifact) :
    Except Failure ClassIndex := do
  let source := sourceOf fs reactor a
  return ⟨a, source, ← classesOf fs source⟩

/-- The classes that each artifact of a list declares. -/
def ofArtifacts (fs : FileSystem) (reactor : Reactor) (artifacts : List Artifact) :
    Except Failure (List ClassIndex) :=
  artifacts.mapM (ofArtifact fs reactor)

end ClassIndex
end ClasspathAudit
