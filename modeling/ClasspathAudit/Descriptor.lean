import ClasspathAudit.Failure
import ClasspathAudit.Project
import ClasspathAudit.Toml.Reader
import ClasspathAudit.Toml.Writer

/-
# Project descriptors

A descriptor is a TOML document. It may describe a project, list the modules of a larger project,
and list the dependencies that a project declares and those that come with them. Every key that it
does not know is refused. Paths in it are seen from its directory.
-/
namespace ClasspathAudit

/-! ### Entries for dependencies -/

/-- A dependency as a descriptor lists it. -/
structure DependencySpec where
  /-- The group. -/
  group : String
  /-- The name. -/
  name : String
  /-- The version. -/
  version : String
  /-- The packaging type. -/
  packaging : Packaging
  /-- The scope. -/
  scope : Scope
  /-- The classifier. -/
  classifier : Option String
  /-- The archive or class directory, seen from the directory of the descriptor. -/
  path : Option Path
deriving DecidableEq

namespace DependencySpec

/-- The draft of the artifact that an entry names, where `base` is the directory of the
descriptor. -/
def draft (base : Path) (spec : DependencySpec) : ArtifactDraft where
  group := spec.group
  name := spec.name
  version := spec.version
  packaging := spec.packaging
  scope := spec.scope
  classifier := spec.classifier
  location := spec.path.map base.join

/-- The artifact that an entry names, where `base` is the directory of the descriptor. -/
def toArtifact (base : Path) (spec : DependencySpec) : Except DescriptorFault Artifact :=
  if Text.isAllBlank spec.group || Text.isAllBlank spec.name then
    .error (.unnamedDependency spec.group spec.name)
  else if Text.isAllBlank spec.version then
    .error (.unversionedDependency spec.group spec.name)
  else
    -- an entry has all fields, so that none is missing from its draft
    (spec.draft base).build.mapError .missingField

/-- The entry that names an artifact, without its location. -/
def ofArtifact (a : Artifact) : DependencySpec where
  group := a.coordinates.group
  name := a.coordinates.name
  version := a.coordinates.version
  packaging := a.coordinates.packaging
  scope := a.scope
  classifier := a.coordinates.classifier
  path := none

/-- The entry under which a used artifact is best declared. Bean archives are provided by the
container that runs them. -/
def suggested (a : Artifact) : DependencySpec :=
  { ofArtifact a with
    scope := if a.coordinates.packaging = .ejb then .provided else a.scope }

/-- An entry as lines of a TOML table. -/
def toml (spec : DependencySpec) : String :=
  Toml.writeEntry "group" spec.group ++ Toml.writeEntry "name" spec.name ++
  Toml.writeEntry "version" spec.version ++ Toml.writeEntry "type" spec.packaging.label ++
  Toml.writeEntry "scope" spec.scope.label ++
  (match spec.classifier with
    | some classifier => Toml.writeEntry "classifier" classifier
    | none => "") ++
  (match spec.path with
    | some path => Toml.writeEntry "path" path.text
    | none => "")

end DependencySpec

/-! ### Descriptors -/

/-- The part of a descriptor that describes the project itself. -/
structure ProjectSection where
  /-- The group. -/
  group : String
  /-- The name. -/
  name : String
  /-- The version. -/
  version : String
  /-- The packaging type. -/
  packaging : Packaging
  /-- The directory of compiled classes, seen from the directory of the descriptor. -/
  outputDir : Option Path
deriving DecidableEq

/-- The contents of a descriptor. -/
structure Descriptor where
  /-- The project, if the descriptor describes one. -/
  project : Option ProjectSection
  /-- The directories of modules, or patterns for them. -/
  modules : List String
  /-- The dependencies that the project declares. -/
  dependencies : List DependencySpec
  /-- The dependencies that come with those. -/
  transitive : List DependencySpec
deriving DecidableEq

namespace Descriptor

/-- The name of a descriptor file. -/
def fileName : String := "depsweep.toml"

/-- The output directory of a project whose descriptor names none. -/
def defaultOutputDir : Path := ⟨"target/classes"⟩

/-- The directory of the descriptor at `path`. -/
def baseOf (path : Path) : Path :=
  path.parent?.getD ⟨"."⟩

/-- Refuses a blank field of the project. -/
def checkField (field value : String) : Except DescriptorFault Unit :=
  if Text.isAllBlank value then .error (.blankProjectField field) else .ok ()

/-- The project that a descriptor at `path` describes, if it describes one. -/
def project? (d : Descriptor) (path : Path) : Except DescriptorFault (Option Project) :=
  match d.project with
  | none => .ok none
  | some section' => do
    checkField "group" section'.group
    checkField "name" section'.name
    checkField "version" section'.version
    let base := baseOf path
    let direct ← d.dependencies.mapM (DependencySpec.toArtifact base)
    let transitive ← d.transitive.mapM (DependencySpec.toArtifact base)
    return some (Project.make
      ⟨section'.group, section'.name, section'.version, section'.packaging⟩
      (base.join (section'.outputDir.getD defaultOutputDir)) (some path) direct transitive)

/-- The project that a descriptor at `path` describes, or why it describes none. -/
def toProject (d : Descriptor) (path : Path) : Except Failure (Option Project) :=
  match d.project? path with
  | .ok project => .ok project
  | .error fault => .error (.descriptor path fault)

/-! ### The form of a descriptor -/

open Toml (Value Entries)

/-- The text that a value is. -/
def asText? : Value → Option String
  | .text text => some text
  | _ => none

/-- The scope that a value names: by a text, or by the only key of a table, which then has an empty
value. -/
def asScope? : Value → Option Scope
  | .text text => Scope.ofLabel? text
  | .table _ [(key, .table _ [])] | .table _ [(key, .list [])] => Scope.ofLabel? key
  | _ => none

/-- The items of a list, however it is written. -/
def asList? : Value → Option (List Value)
  | .list items => some items
  | .tables items => some (items.reverse.map (Value.table .header))
  | _ => none

/-- The fields of a value that has the fields `names`: a table gives them by name and has no other
key, a list gives them by position and may be longer. -/
def fieldsOf? (names : List String) : Value → Option (List (Option Value))
  | .table _ entries =>
    if entries.all (fun entry => names.contains entry.1) then
      some (names.map fun name => entries.lookup name)
    else
      none
  | .list items => some (names.zipIdx.map fun (_, i) => items[i]?)
  | _ => none

/-- A field that may be left out. -/
def optional? {α : Type} (read? : Value → Option α) : Option Value → Option (Option α)
  | none => some none
  | some value => (read? value).map some

/-- The project section that a value describes. Only as a list it has to name the output
directory. -/
def asProject? (value : Value) : Option ProjectSection := do
  match ← fieldsOf? ["group", "name", "version", "packaging", "output-dir"] value with
  | [group, name, version, packaging, outputDir] => do
    if outputDir.isNone && !(value matches .table ..) then none
    else do
      let group ← asText? (← group)
      let name ← asText? (← name)
      let version ← asText? (← version)
      let packaging ← optional? asText? packaging
      let outputDir ← optional? asText? outputDir
      return ⟨group, name, version, (packaging.map Packaging.ofText).getD .jar,
        outputDir.map Path.mk⟩
  | _ => none

/-- The dependency that a value describes. -/
def asDependency? (value : Value) : Option DependencySpec := do
  match ← fieldsOf? ["group", "name", "version", "type", "scope", "classifier", "path"] value with
  | [group, name, version, type, scope, classifier, path] => do
    let group ← asText? (← group)
    let name ← asText? (← name)
    let version ← asText? (← version)
    let type ← optional? asText? type
    let scope ← optional? asScope? scope
    let classifier ← optional? asText? classifier
    let path ← optional? asText? path
    return ⟨group, name, version, (type.map Packaging.ofText).getD .jar, scope.getD .compile,
      classifier, path.map Path.mk⟩
  | _ => none

/-- The list that a value describes, item by item. -/
def asListOf? {α : Type} (read? : Value → Option α) (value : Value) : Option (List α) := do
  let items ← asList? value
  items.mapM read?

/-- The descriptor that a document describes. -/
def ofEntries? (entries : Entries) : Option Descriptor := do
  match ← fieldsOf? ["project", "modules", "dependencies", "transitive"]
      (.table .header entries) with
  | [project, modules, dependencies, transitive] => do
    let project ← optional? asProject? project
    let modules ← optional? (asListOf? asText?) modules
    let dependencies ← optional? (asListOf? asDependency?) dependencies
    let transitive ← optional? (asListOf? asDependency?) transitive
    return ⟨project, modules.getD [], dependencies.getD [], transitive.getD []⟩
  | _ => none

/-- The descriptor in the text of the file at `path`. -/
def parse (path : Path) (text : String) : Except Failure Descriptor :=
  match Toml.read? text >>= ofEntries? with
  | some descriptor => .ok descriptor
  | none => .error (.descriptorSyntax path)

end Descriptor
end ClasspathAudit
