import ClasspathAudit.ClassIndex
import ClasspathAudit.Proofs.Steps

/-
# What artifacts declare

The index of an artifact may fail, and the indexes of several artifacts fail together. Apart from
that only two things about a list of indexes count: which artifacts it is about, and which classes
each of them declares. Both are stated here for the artifacts themselves, without regard to the
order of a list and to repetitions in it.
-/
namespace ClasspathAudit

/-! ### Declared classes -/

namespace ClassIndex

/-- Whether an artifact can be indexed and declares a class. -/
def Declares (fs : FileSystem) (reactor : Reactor) (a : Artifact) (c : ClassName) : Prop :=
  ∃ index, ofArtifact fs reactor a = .ok index ∧ c ∈ index.classes

/-- Whether indexing an artifact fails. -/
def IsUnreadable (fs : FileSystem) (reactor : Reactor) (a : Artifact) : Prop :=
  ∃ failure, ofArtifact fs reactor a = .error failure

variable {fs : FileSystem} {reactor : Reactor} {a : Artifact} {index : ClassIndex}

lemma artifact_of_ofArtifact (h : ofArtifact fs reactor a = .ok index) : index.artifact = a := by
  rw [ofArtifact] at h
  cases hc : classesOf fs (sourceOf fs reactor a) with
  | error e =>
    rw [hc] at h
    cases h
  | ok classes =>
    rw [hc] at h
    obtain rfl : ClassIndex.mk a _ classes = index := Except.ok.inj h
    rfl

lemma declares_iff (h : ofArtifact fs reactor a = .ok index) (c : ClassName) :
    Declares fs reactor a c ↔ c ∈ index.classes := by
  constructor
  · rintro ⟨index', h', hc⟩
    rw [h] at h'
    obtain rfl : index = index' := Except.ok.inj h'
    exact hc
  · intro hc
    exact ⟨index, h, hc⟩

/-- A list of indexes is as good as the artifacts that it is about and what they declare. -/
lemma exists_mem_ofArtifacts {artifacts : List Artifact} {indexes : List ClassIndex}
    (h : ofArtifacts fs reactor artifacts = .ok indexes)
    (P : Artifact → (ClassName → Prop) → Prop) :
    (∃ i ∈ indexes, P i.artifact (· ∈ i.classes)) ↔
      ∃ a ∈ artifacts, P a (Declares fs reactor a) := by
  have hmem := mem_of_mapM_eq_ok h
  have hdeclares :
      ∀ a i, ofArtifact fs reactor a = .ok i → Declares fs reactor a = (· ∈ i.classes) :=
    fun a i hi => funext fun c => propext (declares_iff hi c)
  constructor
  · rintro ⟨i, hi, hP⟩
    obtain ⟨a, ha, hai⟩ := (hmem i).1 hi
    rw [artifact_of_ofArtifact hai] at hP
    exact ⟨a, ha, by rwa [hdeclares a i hai]⟩
  · rintro ⟨a, ha, hP⟩
    obtain ⟨i, hai⟩ := exists_of_mapM_eq_ok h ha
    refine ⟨i, (hmem i).2 ⟨a, ha, hai⟩, ?_⟩
    rwa [artifact_of_ofArtifact hai, ← hdeclares a i hai]

lemma forall_mem_ofArtifacts {artifacts : List Artifact} {indexes : List ClassIndex}
    (h : ofArtifacts fs reactor artifacts = .ok indexes)
    (P : Artifact → (ClassName → Prop) → Prop) :
    (∀ i ∈ indexes, P i.artifact (· ∈ i.classes)) ↔
      ∀ a ∈ artifacts, P a (Declares fs reactor a) := by
  have hnot := exists_mem_ofArtifacts h fun a declares => ¬P a declares
  rw [← not_iff_not]
  simpa only [not_forall, exists_prop] using hnot

lemma ofArtifacts_eq_error_iff {artifacts : List Artifact} :
    (∃ failure, ofArtifacts fs reactor artifacts = .error failure) ↔
      ∃ a ∈ artifacts, IsUnreadable fs reactor a :=
  mapM_eq_error_iff

end ClassIndex
end ClasspathAudit
