import Std.Data.ExtTreeMap
import ClasspathAudit.Artifact.Packaging
import ClasspathAudit.Path

/-
# Artifacts

An artifact is known by its coordinates: group, name, version, packaging type and classifier. The
scope and the location belong to one particular use of it and play no part in comparing artifacts.
-/
namespace ClasspathAudit

/-! ### Coordinates -/

/-- What identifies an artifact. -/
structure Coordinates where
  /-- The group that publishes it. -/
  group : String
  /-- Its name in the group. -/
  name : String
  /-- Its version. -/
  version : String
  /-- Its packaging type. -/
  packaging : Packaging
  /-- What tells apart artifacts of one name and version. -/
  classifier : Option String
deriving DecidableEq, Inhabited

namespace Coordinates

/-- Coordinates are ordered by group, name, version, packaging type and classifier, where no
classifier comes first. -/
instance : Ord Coordinates :=
  ⟨compareLex (compareOn group) (compareLex (compareOn name) (compareLex (compareOn version)
    (compareLex (compareOn packaging) (compareOn classifier))))⟩

instance : Std.TransOrd Coordinates :=
  inferInstanceAs (Std.TransCmp (compareLex (compareOn group) (compareLex (compareOn name)
    (compareLex (compareOn version) (compareLex (compareOn packaging) (compareOn classifier))))))

instance : Std.LawfulEqOrd Coordinates where
  eq_of_compare {a b} h := by
    have h' : (compare a.group b.group).then ((compare a.name b.name).then
        ((compare a.version b.version).then ((compare a.packaging b.packaging).then
          (compare a.classifier b.classifier)))) = .eq := h
    simp only [Ordering.then_eq_eq, Std.LawfulEqOrd.compare_eq_iff_eq] at h'
    cases a; cases b; simp_all

end Coordinates

/-! ### Artifacts -/

/-- A dependency as one project uses it. -/
structure Artifact where
  /-- What identifies it. -/
  coordinates : Coordinates
  /-- When it is needed. -/
  scope : Scope
  /-- The archive or class directory that holds it, if known. -/
  location : Option Path
deriving DecidableEq, Inhabited

namespace Artifact

/-- An artifact in one line: group, name, type, classifier if any, version and scope. -/
def label (a : Artifact) : String :=
  let c := a.coordinates
  s!"{c.group}:{c.name}:{c.packaging.label}" ++
    (match c.classifier with
      | some classifier => ":" ++ classifier
      | none => "") ++
    s!":{c.version}:{a.scope.label}"

/-- Whether the location of an artifact is known. -/
def isResolved (a : Artifact) : Bool :=
  a.location.isSome

/-- The artifact at the given location. -/
def withLocation (a : Artifact) (location : Path) : Artifact :=
  { a with location := some location }

end Artifact

/-- A set of artifacts, in the order of their coordinates. Of artifacts with the same coordinates
it holds one. -/
abbrev ArtifactSet := Std.ExtTreeMap Coordinates Artifact compare

namespace ArtifactSet

/-- The set with `a` in it, unless it has an artifact with these coordinates already. -/
def insert (set : ArtifactSet) (a : Artifact) : ArtifactSet :=
  Std.ExtTreeMap.insertIfNew set a.coordinates a

/-- The artifacts of a list; of those with the same coordinates the first. -/
def ofList (artifacts : List Artifact) : ArtifactSet :=
  artifacts.foldl insert ∅

/-- The artifacts of a set, in order. -/
def toList (set : ArtifactSet) : List Artifact :=
  (Std.ExtTreeMap.toList set).map Prod.snd

end ArtifactSet

/-! ### Drafts -/

/-- What an artifact cannot do without. -/
inductive MissingField
  | group
  | name
  | version
deriving DecidableEq

namespace MissingField

/-- The name of the field. -/
def label : MissingField → String
  | group => "group"
  | name => "name"
  | version => "version"

/-- The wording of the refusal. -/
def message (field : MissingField) : String :=
  s!"Artifact {field.label} is required"

/-- The code of the refusal. -/
def code (field : MissingField) : String :=
  s!"depsweep::types::missing_artifact_{field.label}"

/-- Advice on the refusal. -/
def help (field : MissingField) : String :=
  s!"Provide a {field.label} for the artifact using with_{field.label}()"

end MissingField

/-- An artifact in the making, each field of which may still be open. -/
structure ArtifactDraft where
  /-- The group. -/
  group : Option String := none
  /-- The name. -/
  name : Option String := none
  /-- The version. -/
  version : Option String := none
  /-- The packaging type; `jar` if open. -/
  packaging : Option Packaging := none
  /-- The classifier; an empty one is none. -/
  classifier : Option String := none
  /-- The scope; `compile` if open. -/
  scope : Option Scope := none
  /-- The location. -/
  location : Option Path := none

namespace ArtifactDraft

/-- The artifact of a draft, which needs a group, a name and a version. -/
def build (draft : ArtifactDraft) : Except MissingField Artifact :=
  match draft.group, draft.name, draft.version with
  | none, _, _ => .error .group
  | _, none, _ => .error .name
  | _, _, none => .error .version
  | some group, some name, some version => .ok {
      coordinates := {
        group, name, version
        packaging := draft.packaging.getD .jar
        classifier := draft.classifier.filter (· != "") }
      scope := draft.scope.getD .compile
      location := draft.location }

end ArtifactDraft
end ClasspathAudit
