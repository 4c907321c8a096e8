import Mathlib.Data.List.Infix
import Mathlib.Data.List.TFAE
import Mathlib.Tactic.Common
import Mathlib.Tactic.TFAE
import ClasspathAudit.Run

/-
# Runs that end early

A run goes through all projects, or ends with the first one that is against the policy. The two come
to the same verdict: the run that may end early does so if and only if it fails, and it fails if and
only if the full run fails. What it has seen by then is the shortest part of the projects, from the
first one on, that ends with a project against the policy.

The main result is `ofProjects_agree`. How a project is analysed plays no part in it.
-/
namespace ClasspathAudit

/-! ### Outcomes -/

namespace Outcome

variable {policy : Policy} {outcome : Outcome}

/-- Whether an outcome is against a policy: there are no findings, or such as the policy forbids. -/
def IsAgainst (policy : Policy) (outcome : Outcome) : Prop :=
  (∃ failure, outcome = .error failure) ∨ ∃ f, outcome = .ok f ∧ policy.isViolatedBy f = true

lemma isBad_iff : outcome.isBad policy = true ↔ outcome.IsAgainst policy := by
  cases outcome <;> simp [isBad, IsAgainst]

/-- Whether `results` and `failures` are all of some outcomes, those with findings and those without
each in the order of the outcomes. -/
inductive PartInto : List Outcome → List Findings → List ProjectFailure → Prop
  | nil : PartInto [] [] []
  | ok {outcomes results failures} (f : Findings) :
    PartInto outcomes results failures → PartInto (.ok f :: outcomes) (f :: results) failures
  | error {outcomes results failures} (failure : ProjectFailure) :
    PartInto outcomes results failures →
      PartInto (.error failure :: outcomes) results (failure :: failures)

lemma partInto_filterMap (outcomes : List Outcome) :
    PartInto outcomes (outcomes.filterMap findings?) (outcomes.filterMap failure?) := by
  induction outcomes with
  | nil => exact .nil
  | cons outcome outcomes ih =>
    cases outcome with
    | ok f => exact .ok f ih
    | error failure => exact .error failure ih

/-- Some outcome is against the policy if there is a failure, or findings that are forbidden. -/
lemma PartInto.exists_isAgainst_iff {outcomes : List Outcome} {results : List Findings}
    {failures : List ProjectFailure} (h : PartInto outcomes results failures) :
    (failures ≠ [] ∨ ∃ f ∈ results, policy.isViolatedBy f = true) ↔
      ∃ outcome ∈ outcomes, outcome.IsAgainst policy := by
  induction h with
  | nil => simp
  | ok f _ ih =>
    rw [List.exists_mem_cons_iff, List.exists_mem_cons_iff, ← ih]
    simp only [IsAgainst, Except.ok.injEq, exists_eq_left', reduceCtorEq, exists_false, false_or]
    exact or_left_comm
  | error failure _ _ =>
    rw [List.exists_mem_cons_iff]
    exact iff_of_true (.inl (List.cons_ne_nil _ _)) (.inl (.inl ⟨failure, rfl⟩))

end Outcome

namespace Run

variable {α : Type}

/-! ### Shortest parts -/

section Shortest

variable (P : α → Prop)

/-- Whether the last item of a list has a property. -/
def EndsIn (items : List α) : Prop :=
  ∃ last, items.getLast? = some last ∧ P last

/-- Whether `part` is the shortest part of a list, from its first item on, that ends with an item
that has a property, or all of the list if no item has it. -/
structure IsShortest (items part : List α) : Prop where
  isPrefix : part <+: items
  ends : EndsIn P part ∨ part = items ∧ ∀ item ∈ items, ¬P item
  shortest : ∀ others, others <+: items → EndsIn P others → part <+: others

variable {P} {item : α} {items part : List α}

lemma isShortest_nil : IsShortest P [] [] where
  isPrefix := List.prefix_rfl
  ends := .inr ⟨rfl, by simp⟩
  shortest _ _ _ := List.nil_prefix

lemma isShortest_singleton (items : List α) (h : P item) : IsShortest P (item :: items) [item] where
  isPrefix := by simp
  ends := .inl ⟨item, rfl, h⟩
  shortest := by
    rintro others hothers ⟨last, hlast, -⟩
    cases others with
    | nil => cases hlast
    | cons other others =>
      obtain ⟨rfl, -⟩ := List.cons_prefix_cons.1 hothers
      simp

lemma IsShortest.cons (hitem : ¬P item) (h : IsShortest P items part) :
    IsShortest P (item :: items) (item :: part) where
  isPrefix := List.cons_prefix_cons.2 ⟨rfl, h.isPrefix⟩
  ends := by
    rcases h.ends with ⟨last, hlast, hP⟩ | ⟨rfl, hnone⟩
    · exact .inl ⟨last, List.mem_getLast?_cons hlast, hP⟩
    · exact .inr ⟨rfl, List.forall_mem_cons.2 ⟨hitem, hnone⟩⟩
  shortest := by
    rintro others hothers ⟨last, hlast, hP⟩
    cases others with
    | nil => cases hlast
    | cons other others =>
      obtain ⟨rfl, hrest⟩ := List.cons_prefix_cons.1 hothers
      refine List.cons_prefix_cons.2 ⟨rfl, ?_⟩
      cases others with
      | nil =>
        obtain rfl := Option.some.inj hlast
        exact absurd hP hitem
      | cons next others => exact h.shortest _ hrest ⟨last, hlast, hP⟩

/-- An item of the list has the property if and only if one of its shortest part has it. -/
lemma IsShortest.exists_iff (h : IsShortest P items part) :
    (∃ item ∈ part, P item) ↔ ∃ item ∈ items, P item := by
  constructor
  · rintro ⟨item, hitem, hP⟩
    exact ⟨item, h.isPrefix.subset hitem, hP⟩
  · rintro ⟨item, hitem, hP⟩
    rcases h.ends with ⟨last, hlast, hlastP⟩ | ⟨rfl, hnone⟩
    · exact ⟨last, List.mem_of_getLast? hlast, hlastP⟩
    · exact absurd hP (hnone item hitem)

end Shortest

/-! ### One project after the other -/

section Projects

variable {policy : Policy} {analyze : α → Analysis} {project : α}

/-- Whether what comes of a project is against the policy. -/
def IsAgainst (policy : Policy) (analyze : α → Analysis) (project : α) : Prop :=
  (analyze project).outcome.IsAgainst policy

lemma upToFirstBad_cons_of_isAgainst (rest : List α) (h : IsAgainst policy analyze project) :
    upToFirstBad policy analyze (project :: rest) = ([analyze project], true) := by
  rw [upToFirstBad]
  exact if_pos (Outcome.isBad_iff.2 h)

lemma upToFirstBad_cons_of_not_isAgainst (rest : List α) (h : ¬IsAgainst policy analyze project) :
    upToFirstBad policy analyze (project :: rest) =
      (analyze project :: (upToFirstBad policy analyze rest).1,
        (upToFirstBad policy analyze rest).2) := by
  rw [upToFirstBad]
  exact if_neg fun hbad => h (Outcome.isBad_iff.1 hbad)

lemma exists_isShortest (policy : Policy) (analyze : α → Analysis) (projects : List α) :
    ∃ seen, IsShortest (IsAgainst policy analyze) projects seen ∧
      (upToFirstBad policy analyze projects).1 = seen.map analyze := by
  induction projects with
  | nil => exact ⟨[], isShortest_nil, rfl⟩
  | cons project rest ih =>
    by_cases h : IsAgainst policy analyze project
    · exact ⟨[project], isShortest_singleton rest h, by
        rw [upToFirstBad_cons_of_isAgainst rest h, List.map_singleton]⟩
    · obtain ⟨seen, hseen, heq⟩ := ih
      exact ⟨project :: seen, hseen.cons h, by
        rw [upToFirstBad_cons_of_not_isAgainst rest h, heq, List.map_cons]⟩

/-- A run makes the analyses of some of the projects. -/
lemma exists_analyses_ofProjects (policy : Policy) (analyze : α → Analysis) (projects : List α) :
    ∃ seen : List α, (ofProjects policy analyze projects).analyses = seen.map analyze := by
  rw [ofProjects]
  split
  · obtain ⟨seen, -, heq⟩ := exists_isShortest policy analyze projects
    exact ⟨seen, heq⟩
  · exact ⟨projects, rfl⟩

lemma snd_upToFirstBad {projects : List α} : (upToFirstBad policy analyze projects).2 = true ↔
    ∃ project ∈ projects, IsAgainst policy analyze project := by
  induction projects with
  | nil => simp [upToFirstBad]
  | cons project rest ih =>
    by_cases h : IsAgainst policy analyze project
    · simp [upToFirstBad_cons_of_isAgainst rest h, h]
    · simp [upToFirstBad_cons_of_not_isAgainst rest h, ih, h]

/-! ### Summaries -/

variable (policy analyze) (seen : List α) (stopped : Bool)

/-- The summary of a run that has seen some projects holds what came of each of them. -/
lemma partInto_summary :
    Outcome.PartInto (seen.map fun p => (analyze p).outcome)
      (Run.mk policy (seen.map analyze) stopped).summary.results
      (Run.mk policy (seen.map analyze) stopped).summary.failures := by
  have houtcomes : (Run.mk policy (seen.map analyze) stopped).outcomes =
      seen.map fun p => (analyze p).outcome := List.map_map
  rw [← houtcomes]
  exact Outcome.partInto_filterMap _

/-- A run fails if one of the projects that it has seen is against the policy. -/
lemma shouldFail_summary :
    (Run.mk policy (seen.map analyze) stopped).summary.shouldFail = true ↔
      ∃ project ∈ seen, IsAgainst policy analyze project := by
  rw [RunSummary.shouldFail, Bool.or_eq_true, Bool.not_eq_true', List.isEmpty_eq_false_iff,
    List.any_eq_true]
  refine (partInto_summary policy analyze seen stopped).exists_isAgainst_iff.trans ?_
  simp only [List.mem_map, exists_exists_and_eq_and]
  rfl

end Projects

/-! ### The two runs -/

/-- The full run has an outcome for every project, and does not end early. The run that ends with
the first project against the policy has the outcomes of the shortest part that ends with such a
project; it ends early if there is one, and this is when either run fails. -/
theorem ofProjects_agree (policy : Policy) (analyze : α → Analysis) (projects : List α) :
    let full := (ofProjects { policy with failFast := false } analyze projects).summary
    let fast := (ofProjects { policy with failFast := true } analyze projects).summary
    Outcome.PartInto (projects.map fun p => (analyze p).outcome) full.results full.failures ∧
    full.stoppedEarly = false ∧
    (∃ seen, IsShortest (IsAgainst policy analyze) projects seen ∧
      Outcome.PartInto (seen.map fun p => (analyze p).outcome) fast.results fast.failures) ∧
    [fast.stoppedEarly = true, ∃ p ∈ projects, IsAgainst policy analyze p,
      fast.shouldFail = true, full.shouldFail = true].TFAE := by
  intro full fast
  obtain ⟨seen, hseen, heq⟩ := exists_isShortest { policy with failFast := true } analyze projects
  have hfast : fast = (Run.mk { policy with failFast := true } (seen.map analyze)
      (upToFirstBad { policy with failFast := true } analyze projects).2).summary := by
    rw [← heq]
    rfl
  -- What is against the policy does not depend on whether the run may end early.
  have hstopped : fast.stoppedEarly = true ↔ ∃ p ∈ projects, IsAgainst policy analyze p := by
    rw [hfast]
    exact snd_upToFirstBad
  have hfastFails : fast.shouldFail = true ↔ ∃ p ∈ projects, IsAgainst policy analyze p := by
    rw [hfast, shouldFail_summary]
    exact hseen.exists_iff
  have hfullFails : full.shouldFail = true ↔ ∃ p ∈ projects, IsAgainst policy analyze p :=
    shouldFail_summary _ _ projects false
  refine ⟨partInto_summary _ _ projects false, rfl, ⟨seen, hseen, ?_⟩, ?_⟩
  · rw [hfast]
    exact partInto_summary _ _ seen _
  · tfae_have 1 ↔ 2 := hstopped
    tfae_have 3 ↔ 2 := hfastFails
    tfae_have 4 ↔ 2 := hfullFails
    tfae_finish

end Run
end ClasspathAudit
