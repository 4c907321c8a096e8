import Mathlib.Tactic.SplitIfs
import ClasspathAudit.Descriptor
import ClasspathAudit.Repository
import ClasspathAudit.Proofs.Steps

/-
# Entries of descriptors

An entry for a dependency names an artifact if its group, name and version are more than blanks. The
artifact has the coordinates of the entry, in which an empty classifier is none. A project follows
from its descriptor section by section, so a change to the declared dependencies changes no more
than them and what the transitive dependencies leave out.
-/
namespace ClasspathAudit

/-- Whether group, name and version are more than blanks. -/
structure Coordinates.IsNamed (k : Coordinates) : Prop where
  group : Text.isAllBlank k.group = false
  name : Text.isAllBlank k.name = false
  version : Text.isAllBlank k.version = false

namespace Repository

/-- An artifact with a name keeps its location or gets its place in the repository. -/
lemma resolve_eq_ok (r : Repository) {a : Artifact} (h : a.coordinates.IsNamed) :
    r.resolve a =
      .ok { a with location := some (a.location.getD (r.artifactPath a.coordinates)) } := by
  have hne : ∀ text : String, Text.isAllBlank text = false → text ≠ "" := by
    rintro text hblank rfl
    cases hblank
  obtain ⟨coordinates, scope, location⟩ := a
  rw [resolve, Artifact.isResolved]
  cases location with
  | some location => rfl
  | none =>
    have hnamed : ¬(coordinates.group = "" ∨ coordinates.name = "") := by
      rintro (hgroup | hname)
      · exact hne _ h.group hgroup
      · exact hne _ h.name hname
    rw [if_neg (by simp), if_neg hnamed]
    rfl

end Repository

namespace DependencySpec

variable {spec : DependencySpec} {base : Path} {a b : Artifact}

/-- The coordinates of the artifact that an entry names. -/
def coordinates (spec : DependencySpec) : Coordinates where
  group := spec.group
  name := spec.name
  version := spec.version
  packaging := spec.packaging
  classifier := spec.classifier.filter (· != "")

/-- No field is missing from the draft of an entry, whatever its texts. -/
lemma build_draft : (spec.draft base).build =
    .ok ⟨spec.coordinates, spec.scope, spec.path.map base.join⟩ := rfl

lemma toArtifact_eq_ok_iff : spec.toArtifact base = .ok a ↔
    spec.coordinates.IsNamed ∧ a = ⟨spec.coordinates, spec.scope, spec.path.map base.join⟩ := by
  rw [toArtifact, build_draft]
  constructor
  · intro h
    split_ifs at h with hunnamed hunversioned
    rw [Bool.or_eq_true, not_or, Bool.not_eq_true, Bool.not_eq_true] at hunnamed
    rw [Bool.not_eq_true] at hunversioned
    obtain rfl := Except.ok.inj h
    exact ⟨⟨hunnamed.1, hunnamed.2, hunversioned⟩, rfl⟩
  · rintro ⟨hnamed, rfl⟩
    have hgroup : Text.isAllBlank spec.group = false := hnamed.group
    have hname : Text.isAllBlank spec.name = false := hnamed.name
    have hversion : Text.isAllBlank spec.version = false := hnamed.version
    rw [hgroup, hname, hversion]
    rfl

/-- The suggested entry for an artifact that an entry names gives the artifact again, apart from its
scope. -/
lemma toArtifact_suggested (h : spec.toArtifact base = .ok b)
    (hab : a.coordinates = b.coordinates) :
    (suggested a).toArtifact base = .ok ⟨b.coordinates, (suggested a).scope, none⟩ := by
  obtain ⟨hnamed, rfl⟩ := toArtifact_eq_ok_iff.1 h
  have hcoordinates : (suggested a).coordinates = spec.coordinates := by
    simp only [coordinates, suggested, ofArtifact, hab, Option.filter_filter, Bool.and_self]
  rw [toArtifact_eq_ok_iff, hcoordinates]
  exact ⟨hnamed, rfl⟩

end DependencySpec

namespace Descriptor

variable {d : Descriptor} {path : Path} {p : Project}

/-- The dependencies of a project are those that the entries of its descriptor name, and other
entries would have given another project that differs in its dependencies only. -/
lemma toProject_eq_ok (h : d.toProject path = .ok (some p)) :
    ∃ transitive, d.dependencies.mapM (DependencySpec.toArtifact (baseOf path)) = .ok p.direct ∧
      d.transitive.mapM (DependencySpec.toArtifact (baseOf path)) = .ok transitive ∧
      p = Project.make p.id p.outputDir p.descriptor p.direct transitive ∧
      ∀ dependencies direct,
        dependencies.mapM (DependencySpec.toArtifact (baseOf path)) = .ok direct →
        Descriptor.toProject { d with dependencies } path =
          .ok (some (Project.make p.id p.outputDir p.descriptor direct transitive)) := by
  rw [toProject] at h
  cases hproject : d.project? path with
  | error fault =>
    rw [hproject] at h
    cases h
  | ok project =>
    rw [hproject] at h
    obtain rfl := Except.ok.inj h
    cases hsection : d.project with
    | none =>
      rw [project?, hsection] at hproject
      cases hproject
    | some s =>
      rw [project?, hsection] at hproject
      obtain ⟨_, hgroup, hproject⟩ := exists_of_bind_eq_ok hproject
      obtain ⟨_, hname, hproject⟩ := exists_of_bind_eq_ok hproject
      obtain ⟨_, hversion, hproject⟩ := exists_of_bind_eq_ok hproject
      obtain ⟨direct, hdirect, hproject⟩ := exists_of_bind_eq_ok hproject
      obtain ⟨transitive, htransitive, hproject⟩ := exists_of_bind_eq_ok hproject
      obtain rfl := Option.some.inj (Except.ok.inj hproject)
      refine ⟨transitive, hdirect, htransitive, rfl, fun dependencies direct' hdirect' => ?_⟩
      simp only [toProject, project?, hgroup, hname, hversion, hdirect', htransitive]
      rfl

/-- A project knows the path of its descriptor. -/
lemma descriptor_of_toProject (h : d.toProject path = .ok (some p)) : p.descriptor = some path := by
  rw [toProject] at h
  cases hproject : d.project? path with
  | error fault =>
    rw [hproject] at h
    cases h
  | ok project =>
    rw [hproject] at h
    obtain rfl := Except.ok.inj h
    cases hsection : d.project with
    | none =>
      rw [project?, hsection] at hproject
      cases hproject
    | some s =>
      rw [project?, hsection] at hproject
      obtain ⟨_, -, hproject⟩ := exists_of_bind_eq_ok hproject
      obtain ⟨_, -, hproject⟩ := exists_of_bind_eq_ok hproject
      obtain ⟨_, -, hproject⟩ := exists_of_bind_eq_ok hproject
      obtain ⟨direct, -, hproject⟩ := exists_of_bind_eq_ok hproject
      obtain ⟨transitive, -, hproject⟩ := exists_of_bind_eq_ok hproject
      obtain rfl := Option.some.inj (Except.ok.inj hproject)
      rfl

end Descriptor
end ClasspathAudit
