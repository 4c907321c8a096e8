import ClasspathAudit.ClassIndex
import ClasspathAudit.Console.Log
import ClasspathAudit.Findings

/-
# Classifying dependencies

A direct dependency is unused if it declares none of the classes that the project uses. A class that
the project uses and no direct dependency declares is laid to the first transitive dependency, in
the order of coordinates, that declares it. One used class is enough for a dependency to count as
used, and each is held against all classes used, so the order of dependencies has no say.
-/
namespace ClasspathAudit

/-- What to look for. -/
structure Checks where
  /-- Direct dependencies that are not used. -/
  unused : Bool := true
  /-- Transitive dependencies that are used. -/
  transitive : Bool := true
deriving DecidableEq

/-- How a project comes by a dependency. -/
inductive Role
  | direct
  | transitive
deriving DecidableEq

/-- The name of a role. -/
def Role.label : Role → String
  | direct => "direct"
  | transitive => "transitive"

namespace Classification

/-! ### Dependencies that count -/

/-- Whether a dependency counts: the project is compiled with it, and it is not the project
itself. -/
def isRelevant (id : ProjectId) (a : Artifact) : Bool :=
  a.scope.isCompileVisible && !a.isProducedBy id

/-- The note on a dependency that does not count. -/
def irrelevanceNote? (id : ProjectId) (role : Role) (a : Artifact) : Option Note :=
  if !a.scope.isCompileVisible then
    some (.detail s!"Ignoring {role.label} dependency {a.label}: not on the compile classpath")
  else if a.isProducedBy id then
    some (.detail s!"Ignoring self reference {a.label}")
  else
    none

/-- The note on what an artifact declares. -/
def indexNote (role : Role) (index : ClassIndex) : Note :=
  let a := index.artifact
  let found := "Found " ++ Text.counted index.classes.size "class" ++ " in "
  match index.source with
  | .ignored => .detail s!"Ignoring {role.label} dependency {a.label}: packaging has no classes"
  | .missing => .detail s!"No classes available for {role.label} dependency {a.label}"
  | .archive path | .directory path =>
    .detail (found ++ s!"{role.label} dependency {a.label} ({path.text})")
  | .reactor path => .detail (found ++ s!"sibling module {a.label} ({path.text})")

/-- The classes that the dependencies that count declare. -/
def indexRelevant (fs : FileSystem) (reactor : Reactor) (id : ProjectId) (role : Role)
    (artifacts : List Artifact) : Logged (List ClassIndex) := do
  Logged.write (artifacts.filterMap (irrelevanceNote? id role))
  Logged.ofExcept (ClassIndex.ofArtifacts fs reactor (artifacts.filter (isRelevant id)))

/-! ### Direct dependencies -/

/-- The classes of `referenced` that an artifact declares. -/
def usedOf (referenced : ClassSet) (index : ClassIndex) : ClassSet :=
  index.classes.filter (referenced.contains ·)

/-- The direct dependencies that declare none of the classes of `referenced`. -/
def unusedOf (referenced : ClassSet) (indexes : List ClassIndex) : List Artifact :=
  (indexes.filter fun index => (usedOf referenced index).isEmpty).map (·.artifact)

/-- The findings on direct dependencies. -/
def directFindings (checks : Checks) (id : ProjectId) (referenced : ClassSet)
    (indexes : List ClassIndex) : Findings :=
  if checks.unused then
    (unusedOf referenced indexes).foldl Findings.markUnused (Findings.empty id)
  else
    Findings.empty id

/-- The classes of `referenced` that no direct dependency declares. -/
def undeclared (referenced : ClassSet) (indexes : List ClassIndex) : ClassSet :=
  referenced.filter fun c => !indexes.any (·.classes.contains c)

/-! ### Transitive dependencies -/

/-- Indexes in the order of the coordinates of their artifacts. -/
def inOrder (indexes : List ClassIndex) : List ClassIndex :=
  indexes.mergeSort fun a b => (compare a.artifact.coordinates b.artifact.coordinates).isLE

/-- The artifact that a class is laid to: the first of `indexes` that declares it. -/
def owner? (indexes : List ClassIndex) (c : ClassName) : Option Artifact :=
  (indexes.find? (·.classes.contains c)).map (·.artifact)

/-- Lays a class to its owner, if it has one. -/
def recordOwner (indexes : List ClassIndex) (f : Findings) (c : ClassName) : Findings :=
  match owner? indexes c with
  | some a => f.recordUse a c
  | none => f

/-- The findings with the classes of `classes` laid to the artifacts of `indexes`. -/
def withTransitive (f : Findings) (classes : ClassSet) (indexes : List ClassIndex) : Findings :=
  classes.toList.foldl (recordOwner indexes) f

/-! ### Notes -/

/-- The notes on a scan of the project's classes. -/
def scanNotes (fs : FileSystem) (project : Project) (scan : DirectoryScan) : List Note :=
  let dir := project.outputDir
  (if fs.isDirectory dir then [] else [.warning (DirectoryScan.missingWarning dir)]) ++
  (if scan.skippedSignatures = 0 then []
    else
      let skipped := Text.counted scan.skippedSignatures "malformed signature"
      [.detail s!"Skipped {skipped} in {dir.text}"]) ++
  [.summary project.id.name <|
    "References to " ++ Text.counted scan.referenced.size "external class" ++ " found"]

/-- The notes on the direct dependencies. -/
def directNotes (checks : Checks) (project : Project) (referenced : ClassSet)
    (indexes : List ClassIndex) : List Note :=
  let name := project.id.name
  let unused := (directFindings checks project.id referenced indexes).unused.size
  let classes := (indexes.flatMap (·.classes.toList)).length
  indexes.flatMap (fun index =>
    indexNote .direct index ::
      (usedOf referenced index).toList.map fun c =>
        .detail s!" - referenced class found: {c.text}") ++
  [.summary name <|
    "Found " ++ Text.counted indexes.length "direct dependency" ++ " with " ++
      Text.counted classes "class"] ++
  (if unused = 0 then []
    else [.summary name (Text.counted unused "potentially unused dependency" ++ " found")])

/-- The note on a class that no direct dependency declares. -/
def ownerNote (indexes : List ClassIndex) (c : ClassName) : Note :=
  match owner? indexes c with
  | some a => .detail s!" - class {c.text} is provided by transitive dependency {a.label}"
  | none => .detail s!"No transitive dependency declares referenced class: {c.text}"

/-- The notes on the transitive dependencies. -/
def transitiveNotes (f : Findings) (classes : ClassSet) (indexes : List ClassIndex) : List Note :=
  let used := f.usedList
  let count := (used.flatMap (·.2)).length
  indexes.map (indexNote .transitive) ++ classes.toList.map (ownerNote indexes) ++
  (if used.isEmpty then []
    else [.summary f.project.name <|
      "References to " ++ Text.counted count "class" ++ " of " ++
        Text.counted used.length "transitive dependency" ++ " found"])

end Classification

/-! ### Classification -/

open Classification in
/-- What is found in a project with the given dependencies. -/
def classify (fs : FileSystem) (reactor : Reactor) (checks : Checks) (project : Project)
    (direct transitive : List Artifact) : Logged Findings := do
  let id := project.id
  if !id.packaging.carriesClasses then
    Logged.write
      [.detail s!"Skipping {id.label}: '{id.packaging.label}' packaging has no classes"]
    return Findings.empty id
  else
    Logged.write [.detail s!"Analyzing classes found in {project.outputDir.text}"]
    let scan ← Logged.ofExcept (DirectoryScan.ofDirectory fs project.outputDir)
    Logged.write (scanNotes fs project scan)
    let directIndexes ← indexRelevant fs reactor id .direct direct
    Logged.write (directNotes checks project scan.referenced directIndexes)
    let findings := directFindings checks id scan.referenced directIndexes
    let rest := undeclared scan.referenced directIndexes
    if rest.isEmpty || !checks.transitive then
      return findings
    else
      let transitiveIndexes ← indexRelevant fs reactor id .transitive transitive
      let indexes := inOrder transitiveIndexes
      let findings := withTransitive findings rest indexes
      Logged.write (transitiveNotes findings rest indexes)
      return findings

end ClasspathAudit
