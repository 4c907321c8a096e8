import ClasspathAudit.Proofs.Classification.Resolution
import ClasspathAudit.Proofs.Classification.Order

/-
# Places play no part

Where the classes of an artifact were read, and where the artifact lies, is kept for messages alone.
Leaving these places out of the indexes of the dependencies is the same as leaving them out of the
findings, so two classifications that know the same classes come to the same findings.

The main result is `classify_congr`.
-/
namespace ClasspathAudit

/-! ### Leaving out places -/

/-- An artifact without its location. -/
def Artifact.unplaced (a : Artifact) : Artifact :=
  { a with location := none }

lemma coordinates_unplaced (a : Artifact) : a.unplaced.coordinates = a.coordinates := rfl

/-- An index without the places of the artifact and of its classes. -/
def ClassIndex.unplaced (i : ClassIndex) : ClassIndex :=
  ⟨i.artifact.unplaced, .missing, i.classes⟩

namespace Findings

variable {f : Findings} {a : Artifact} {c : ClassName}

/-- Findings without the locations of the artifacts. -/
def unplaced (f : Findings) : Findings where
  project := f.project
  unused := f.unused.map fun _ a => a.unplaced
  usedTransitive := f.usedTransitive.map fun _ (a, classes) => (a.unplaced, classes)

lemma unplaced_empty (id : ProjectId) : (empty id).unplaced = empty id := by
  rw [unplaced, empty, Findings.mk.injEq]
  refine ⟨rfl, Std.ExtTreeMap.ext_getElem? fun k => ?_, Std.ExtTreeMap.ext_getElem? fun k => ?_⟩ <;>
    simp

lemma unplaced_markUnused : (f.markUnused a).unplaced = f.unplaced.markUnused a.unplaced := by
  rw [unplaced, markUnused, markUnused, Findings.mk.injEq]
  refine ⟨rfl, Std.ExtTreeMap.ext_getElem? fun k => ?_, rfl⟩
  have hmem : a.coordinates ∈ f.unplaced.unused ↔ a.coordinates ∈ f.unused :=
    Std.ExtTreeMap.mem_map
  have hmap : f.unplaced.unused[k]? = f.unused[k]?.map Artifact.unplaced :=
    Std.ExtTreeMap.getElem?_map
  show ((f.unused.insert a).map _)[k]? = (f.unplaced.unused.insert a.unplaced)[k]?
  simp only [Std.ExtTreeMap.getElem?_map, ArtifactSet.insert,
    Std.ExtTreeMap.getElem?_insertIfNew, coordinates_unplaced, hmem, hmap]
  split <;> rfl

lemma unplaced_foldl (artifacts : List Artifact) :
    (artifacts.foldl markUnused f).unplaced =
      (artifacts.map Artifact.unplaced).foldl markUnused f.unplaced := by
  induction artifacts generalizing f with
  | nil => rfl
  | cons a artifacts ih =>
    rw [List.foldl_cons, ih, unplaced_markUnused, List.map_cons, List.foldl_cons]

lemma unplaced_recordUse :
    (f.recordUse a c).unplaced = f.unplaced.recordUse a.unplaced c := by
  rw [unplaced, recordUse, recordUse, Findings.mk.injEq]
  refine ⟨rfl, rfl, Std.ExtTreeMap.ext_getElem? fun k => ?_⟩
  have hmap : f.unplaced.usedTransitive[k]? = f.usedTransitive[k]?.map
      fun (use : Artifact × ClassSet) => (use.1.unplaced, use.2) :=
    Std.ExtTreeMap.getElem?_map
  show ((f.recordUse a c).usedTransitive.map _)[k]? =
    (f.unplaced.recordUse a.unplaced c).usedTransitive[k]?
  rw [Std.ExtTreeMap.getElem?_map, getElem?_recordUse, getElem?_recordUse, hmap,
    coordinates_unplaced]
  split
  · cases f.usedTransitive[k]? <;> rfl
  · rfl

end Findings

/-! ### Classification without places -/

namespace Classification

variable {checks : Checks} {id : ProjectId} {referenced : ClassSet} {indexes : List ClassIndex}
  {f : Findings} {c : ClassName}

lemma unusedOf_unplaced : unusedOf referenced (indexes.map ClassIndex.unplaced) =
    (unusedOf referenced indexes).map Artifact.unplaced := by
  rw [unusedOf, unusedOf, List.filter_map, List.map_map, List.map_map]
  rfl

lemma directFindings_unplaced :
    directFindings checks id referenced (indexes.map ClassIndex.unplaced) =
      (directFindings checks id referenced indexes).unplaced := by
  rw [directFindings, directFindings, unusedOf_unplaced]
  split
  · rw [Findings.unplaced_foldl, Findings.unplaced_empty]
  · exact (Findings.unplaced_empty id).symm

lemma undeclared_unplaced :
    undeclared referenced (indexes.map ClassIndex.unplaced) = undeclared referenced indexes := by
  simp only [undeclared, List.any_map]
  rfl

lemma inOrder_unplaced :
    inOrder (indexes.map ClassIndex.unplaced) = (inOrder indexes).map ClassIndex.unplaced := by
  rw [inOrder, inOrder, List.map_mergeSort]
  exact fun _ _ _ _ => rfl

lemma owner?_unplaced : owner? (indexes.map ClassIndex.unplaced) c =
    (owner? indexes c).map Artifact.unplaced := by
  rw [owner?, owner?, List.find?_map, Option.map_map, Option.map_map]
  rfl

lemma recordOwner_unplaced : recordOwner (indexes.map ClassIndex.unplaced) f.unplaced c =
    (recordOwner indexes f c).unplaced := by
  rw [recordOwner, recordOwner, owner?_unplaced]
  cases owner? indexes c with
  | none => rfl
  | some a => exact Findings.unplaced_recordUse.symm

lemma withTransitive_unplaced (classes : ClassSet) :
    withTransitive f.unplaced classes (indexes.map ClassIndex.unplaced) =
      (withTransitive f classes indexes).unplaced := by
  rw [withTransitive, withTransitive]
  induction classes.toList generalizing f with
  | nil => rfl
  | cons c classes ih => rw [List.foldl_cons, recordOwner_unplaced, ih, List.foldl_cons]

variable {fs : FileSystem} {reactor reactor' : Reactor} {project : Project}
  {direct direct' transitive transitive' : List Artifact}

/-- The indexes of artifacts without places, or the failure of one of them. -/
def unplacedIndexes (fs : FileSystem) (reactor : Reactor) (artifacts : List Artifact) :
    Except Failure (List ClassIndex) :=
  (ClassIndex.ofArtifacts fs reactor artifacts).map (List.map ClassIndex.unplaced)

/-- What classification comes to is told by indexes without places, if no places are asked for. -/
lemma unplaced_result_classify (hpackaging : project.id.packaging.carriesClasses = true) :
    (classify fs reactor checks project direct transitive).result.map Findings.unplaced = (do
      let scan ← DirectoryScan.ofDirectory fs project.outputDir
      let directIndexes ← unplacedIndexes fs reactor (direct.filter (isRelevant project.id))
      let findings := directFindings checks project.id scan.referenced directIndexes
      let rest := undeclared scan.referenced directIndexes
      if rest.isEmpty || !checks.transitive then
        return findings
      else
        let transitiveIndexes ←
          unplacedIndexes fs reactor (transitive.filter (isRelevant project.id))
        return withTransitive findings rest (inOrder transitiveIndexes)) := by
  rw [result_classify hpackaging, unplacedIndexes, unplacedIndexes]
  cases DirectoryScan.ofDirectory fs project.outputDir with
  | error e => rfl
  | ok scan =>
    cases ClassIndex.ofArtifacts fs reactor (direct.filter (isRelevant project.id)) with
    | error e => rfl
    | ok directIndexes =>
      simp only [bind, Except.bind, Except.map, directFindings_unplaced, undeclared_unplaced]
      by_cases hrest : (undeclared scan.referenced directIndexes).isEmpty || !checks.transitive
      · rw [if_pos hrest, if_pos hrest]
        rfl
      · rw [if_neg hrest, if_neg hrest]
        cases ClassIndex.ofArtifacts fs reactor (transitive.filter (isRelevant project.id)) with
        | error e => rfl
        | ok transitiveIndexes =>
          simp only [inOrder_unplaced, withTransitive_unplaced]
          rfl

/-- Classifications for which the dependencies that count have the same indexes but for places come
to the same but for places. -/
lemma classify_congr
    (hdirect : unplacedIndexes fs reactor (direct.filter (isRelevant project.id)) =
      unplacedIndexes fs reactor' (direct'.filter (isRelevant project.id)))
    (htransitive : unplacedIndexes fs reactor (transitive.filter (isRelevant project.id)) =
      unplacedIndexes fs reactor' (transitive'.filter (isRelevant project.id))) :
    (classify fs reactor checks project direct transitive).result.map Findings.unplaced =
      (classify fs reactor' checks project direct' transitive').result.map Findings.unplaced := by
  cases hpackaging : project.id.packaging.carriesClasses with
  | false =>
    rw [result_classify_of_not_carriesClasses hpackaging,
      result_classify_of_not_carriesClasses hpackaging]
  | true =>
    rw [unplaced_result_classify hpackaging, unplaced_result_classify hpackaging, hdirect,
      htransitive]

end Classification
end ClasspathAudit
