import Mathlib.Tactic.Common
import ClasspathAudit.Findings

/-
# What findings hold

Findings are built up by marking artifacts as unused and by recording uses of classes, one after the
other. What findings hold is told by membership alone: which coordinates are marked, and which
classes are recorded under which coordinates.
-/
namespace ClasspathAudit
namespace Findings

variable {f : Findings} {a : Artifact} {c c' : ClassName} {k : Coordinates}

/-! ### Marks -/

lemma mem_unused_markUnused : k ∈ (f.markUnused a).unused ↔ a.coordinates = k ∨ k ∈ f.unused := by
  rw [markUnused, ArtifactSet.insert, Std.ExtTreeMap.mem_insertIfNew,
    Std.LawfulEqOrd.compare_eq_iff_eq]

lemma mem_unused_foldl (artifacts : List Artifact) :
    k ∈ (artifacts.foldl markUnused f).unused ↔
      (∃ a ∈ artifacts, a.coordinates = k) ∨ k ∈ f.unused := by
  induction artifacts generalizing f with
  | nil => simp
  | cons a artifacts ih =>
    rw [List.foldl_cons, ih, mem_unused_markUnused]
    simp only [List.mem_cons, exists_eq_or_imp, or_assoc, or_left_comm]

@[simp] lemma usedTransitive_markUnused : (f.markUnused a).usedTransitive = f.usedTransitive := rfl

lemma usedTransitive_foldl (artifacts : List Artifact) :
    (artifacts.foldl markUnused f).usedTransitive = f.usedTransitive := by
  induction artifacts generalizing f with
  | nil => rfl
  | cons a artifacts ih => rw [List.foldl_cons, ih, usedTransitive_markUnused]

/-! ### Records -/

/-- Whether a class is recorded under coordinates. -/
def Records (f : Findings) (k : Coordinates) (c : ClassName) : Prop :=
  ∃ a classes, f.usedTransitive[k]? = some (a, classes) ∧ c ∈ classes

/-- Whether each artifact is recorded under its own coordinates, with classes, and is one that `P`
holds of. -/
def RecordsOnly (P : Artifact → Prop) (f : Findings) : Prop :=
  ∀ k a classes, f.usedTransitive[k]? = some (a, classes) →
    a.coordinates = k ∧ P a ∧ classes ≠ ∅

/-- Recording a use changes what stands under the coordinates of the artifact, and nothing else. -/
lemma getElem?_recordUse : (f.recordUse a c).usedTransitive[k]? =
    if a.coordinates = k then
      match f.usedTransitive[k]? with
      | none => some (a, .ofList [c])
      | some (first, classes) => some (first, classes.insert c)
    else f.usedTransitive[k]? := by
  rw [recordUse, Std.ExtTreeMap.getElem?_alter]
  by_cases h : a.coordinates = k
  · subst h
    exact (if_pos Std.ReflOrd.compare_self).trans (if_pos rfl).symm
  · rw [if_neg h, if_neg fun heq => h (Std.LawfulEqOrd.eq_of_compare heq)]

lemma records_recordUse :
    (f.recordUse a c).Records k c' ↔ a.coordinates = k ∧ c = c' ∨ f.Records k c' := by
  rw [Records, getElem?_recordUse]
  by_cases h : a.coordinates = k
  · rw [if_pos h, Records]
    cases hk : f.usedTransitive[k]? with
    | none => simp [h]
    | some found =>
      obtain ⟨first, classes⟩ := found
      simp [h, Std.ExtTreeSet.mem_insert]
  · simp [h, Records]

lemma RecordsOnly.recordUse {P : Artifact → Prop} (h : f.RecordsOnly P) (ha : P a) :
    (f.recordUse a c).RecordsOnly P := by
  intro k first classes hk
  rw [getElem?_recordUse] at hk
  split at hk
  · rename_i hak
    cases hf : f.usedTransitive[k]? with
    | none =>
      rw [hf] at hk
      obtain ⟨rfl, rfl⟩ := Prod.mk.inj (Option.some.inj hk)
      exact ⟨hak, ha, by simp⟩
    | some found =>
      rw [hf] at hk
      obtain ⟨rfl, rfl⟩ := Prod.mk.inj (Option.some.inj hk)
      obtain ⟨hkey, hfirst, -⟩ := h k found.1 found.2 hf
      exact ⟨hkey, hfirst, by simp⟩
  · exact h k first classes hk

lemma RecordsOnly.mono {P Q : Artifact → Prop} (h : f.RecordsOnly P) (hPQ : ∀ a, P a → Q a) :
    f.RecordsOnly Q := by
  intro k a classes hk
  obtain ⟨hkey, ha, hclasses⟩ := h k a classes hk
  exact ⟨hkey, hPQ a ha, hclasses⟩

lemma RecordsOnly.exists_records {P : Artifact → Prop} (h : f.RecordsOnly P) {classes : ClassSet}
    (hk : f.usedTransitive[k]? = some (a, classes)) : ∃ c, f.Records k c := by
  obtain ⟨-, -, hclasses⟩ := h k a classes hk
  rw [ne_eq, Std.ExtTreeSet.eq_empty_iff_forall_not_mem, not_forall] at hclasses
  obtain ⟨c, hc⟩ := hclasses
  exact ⟨c, a, classes, hk, not_not.1 hc⟩

lemma RecordsOnly.usedList_eq_nil {P : Artifact → Prop} (h : f.RecordsOnly P)
    (hno : ∀ k c, ¬f.Records k c) : f.usedList = [] := by
  have hempty : f.usedTransitive = ∅ := by
    rw [Std.ExtTreeMap.eq_empty_iff_forall_not_mem]
    intro k hk
    obtain ⟨c, hc⟩ := h.exists_records (Std.ExtTreeMap.getElem?_eq_some_getElem hk)
    exact hno k c hc
  rw [usedList, hempty]
  rfl

lemma unusedList_eq_nil (h : ∀ k, k ∉ f.unused) : f.unusedList = [] := by
  rw [unusedList, Std.ExtTreeMap.eq_empty_iff_forall_not_mem.2 h]
  rfl

end Findings
end ClasspathAudit
