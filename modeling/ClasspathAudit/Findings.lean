import ClasspathAudit.Project
import ClasspathAudit.Reference

/-
# Findings

What the analysis of one project finds: the direct dependencies of which the project uses no class,
and the classes that it uses and only a transitive dependency declares.
-/
namespace ClasspathAudit

/-- Artifacts with classes of theirs, in the order of their coordinates. -/
abbrev ClassesByArtifact := Std.ExtTreeMap Coordinates (Artifact × ClassSet) compare

/-- What the analysis of a project finds. -/
structure Findings where
  /-- The project. -/
  project : ProjectId
  /-- The direct dependencies that are not used. -/
  unused : ArtifactSet
  /-- The transitive dependencies that are used, each with the classes of it that are used. -/
  usedTransitive : ClassesByArtifact

namespace Findings

/-- Nothing found in a project. -/
def empty (project : ProjectId) : Findings := ⟨project, ∅, ∅⟩

/-- A further direct dependency is not used. -/
def markUnused (f : Findings) (a : Artifact) : Findings :=
  { f with unused := f.unused.insert a }

/-- A further class of a transitive dependency is used. -/
def recordUse (f : Findings) (a : Artifact) (c : ClassName) : Findings :=
  { f with usedTransitive := f.usedTransitive.alter a.coordinates fun
    | none => some (a, .ofList [c])
    | some (first, classes) => some (first, classes.insert c) }

/-- Whether a direct dependency is not used. -/
def hasUnused (f : Findings) : Bool :=
  !f.unused.isEmpty

/-- Whether a transitive dependency is used. -/
def hasUsedTransitive (f : Findings) : Bool :=
  !f.usedTransitive.isEmpty

/-- Whether there are findings at all. -/
def isClean (f : Findings) : Bool :=
  !f.hasUnused && !f.hasUsedTransitive

/-- The direct dependencies that are not used, in order. -/
def unusedList (f : Findings) : List Artifact :=
  f.unused.toList

/-- The transitive dependencies that are used, in order, with the classes used. -/
def usedList (f : Findings) : List (Artifact × List ClassName) :=
  f.usedTransitive.toList.map fun (_, a, classes) => (a, classes.toList)

end Findings
end ClasspathAudit
