import Mathlib.Data.List.Forall2
import Mathlib.Data.List.TFAE
import Mathlib.Tactic.Common
import Mathlib.Tactic.TFAE
import ClasspathAudit.Report.GitHub
import ClasspathAudit.Report.Human
import ClasspathAudit.Report.Json
import ClasspathAudit.Proofs.Classification.Meaning
import ClasspathAudit.Proofs.Report.TestCases
import ClasspathAudit.Proofs.Run.EarlyEnd

/-
# One verdict in all reports

Whether a run fails is told by its status and by each of its reports, and each of these asks another
question: whether a project violates the policy, whether there is a command of the level of errors,
how many test cases fail. They agree because findings name no dependency without a class of it that
is used, so that a dependency that counts for the policy is one that gives a violation.

The main result is `verdicts_agree`.
-/
namespace ClasspathAudit

/-! ### Findings that are built up -/

namespace Findings

/-- Whether findings are built up from nothing, by marks and records in any order. -/
inductive IsBuilt : Findings → Prop
  | empty (project : ProjectId) : IsBuilt (empty project)
  | markUnused {f : Findings} (a : Artifact) : IsBuilt f → IsBuilt (f.markUnused a)
  | recordUse {f : Findings} (a : Artifact) (c : ClassName) : IsBuilt f → IsBuilt (f.recordUse a c)

variable {f : Findings}

lemma IsBuilt.recordsOnly (h : f.IsBuilt) : f.RecordsOnly fun _ => True := by
  induction h with
  | empty project =>
    intro k a classes hk
    simp [Findings.empty] at hk
  | markUnused a _ ih => exact ih
  | recordUse a c _ ih => exact ih.recordUse trivial

/-- Under no coordinates is there a set of no classes. -/
lemma IsBuilt.toList_ne_nil (h : f.IsBuilt) {k : Coordinates} {a : Artifact} {classes : ClassSet}
    (hk : (k, a, classes) ∈ f.usedTransitive.toList) : classes.toList ≠ [] := by
  rw [Std.ExtTreeMap.mem_toList_iff_getElem?_eq_some] at hk
  rw [ne_eq, Std.ExtTreeSet.toList_eq_nil_iff]
  exact (h.recordsOnly k a classes hk).2.2

lemma hasUnused_eq_false_iff : f.hasUnused = false ↔ f.unusedList = [] := by
  rw [hasUnused, Bool.not_eq_false', ← Std.ExtTreeMap.isEmpty_toList, List.isEmpty_iff, unusedList,
    ArtifactSet.toList, List.map_eq_nil_iff]

lemma hasUsedTransitive_eq_false_iff : f.hasUsedTransitive = false ↔ f.usedList = [] := by
  rw [hasUsedTransitive, Bool.not_eq_false', ← Std.ExtTreeMap.isEmpty_toList, List.isEmpty_iff,
    usedList, List.map_eq_nil_iff]

end Findings

/-! ### Findings of runs -/

namespace Classification

variable {indexes : List ClassIndex} {f : Findings}

lemma isBuilt_directFindings (checks : Checks) (id : ProjectId) (referenced : ClassSet)
    (indexes : List ClassIndex) : (directFindings checks id referenced indexes).IsBuilt := by
  have hfoldl : ∀ (artifacts : List Artifact) {f : Findings}, f.IsBuilt →
      (artifacts.foldl Findings.markUnused f).IsBuilt := by
    intro artifacts
    induction artifacts with
    | nil => exact fun h => h
    | cons a artifacts ih => exact fun h => ih (h.markUnused a)
  rw [directFindings]
  split
  · exact hfoldl _ (.empty id)
  · exact .empty id

lemma isBuilt_withTransitive (h : f.IsBuilt) (classes : ClassSet) :
    (withTransitive f classes indexes).IsBuilt := by
  rw [withTransitive]
  induction classes.toList generalizing f with
  | nil => exact h
  | cons c classes ih =>
    refine ih ?_
    rw [recordOwner]
    split
    · exact h.recordUse _ c
    · exact h

/-- What classification finds is built up. -/
lemma isBuilt_of_classify {fs : FileSystem} {reactor : Reactor} {checks : Checks}
    {project : Project} {direct transitive : List Artifact}
    (h : (classify fs reactor checks project direct transitive).result = .ok f) : f.IsBuilt := by
  by_cases hpackaging : project.id.packaging.carriesClasses = true
  · rw [result_classify hpackaging] at h
    obtain ⟨scan, -, h⟩ := exists_of_bind_eq_ok h
    obtain ⟨directIndexes, -, h⟩ := exists_of_bind_eq_ok h
    have hdirect := isBuilt_directFindings checks project.id scan.referenced directIndexes
    dsimp only at h
    split at h
    · obtain rfl := Except.ok.inj h
      exact hdirect
    · obtain ⟨transitiveIndexes, -, h⟩ := exists_of_bind_eq_ok h
      obtain rfl := Except.ok.inj h
      exact isBuilt_withTransitive hdirect _
  · rw [classify, if_pos (by simpa using hpackaging), Logged.result_bind] at h
    obtain rfl := Except.ok.inj h
    exact .empty project.id

end Classification

/-- All findings of a run are built up. -/
lemma isBuilt_of_run (z : Analyzer) (policy : Policy) (projects : List Project) :
    ∀ f ∈ (z.run policy projects).summary.results, f.IsBuilt := by
  intro f hf
  obtain ⟨outcome, houtcome, hfindings⟩ := List.mem_filterMap.1 hf
  obtain ⟨analysis, hanalysis, rfl⟩ := List.mem_map.1 houtcome
  obtain ⟨seen, hseen⟩ := Run.exists_analyses_ofProjects policy z.analysis projects
  rw [Analyzer.run, hseen] at hanalysis
  obtain ⟨project, -, rfl⟩ := List.mem_map.1 hanalysis
  have hfound : (z.analyze project).result = .ok f := by
    rw [Analyzer.analysis] at hfindings
    dsimp only at hfindings
    cases hresult : (z.analyze project).result with
    | error failure =>
      rw [hresult] at hfindings
      cases hfindings
    | ok g =>
      rw [hresult] at hfindings
      obtain rfl := Option.some.inj hfindings
      rfl
  rw [Analyzer.analyze, Logged.result_bind] at hfound
  obtain ⟨direct, -, hfound⟩ := exists_of_bind_eq_ok hfound
  rw [Logged.result_bind] at hfound
  obtain ⟨transitive, -, hfound⟩ := exists_of_bind_eq_ok hfound
  exact Classification.isBuilt_of_classify hfound

/-! ### Violations -/

namespace Violation

/-- Whether a violation is on the use of a dependency: it gives the least of the classes used. -/
def IsOnUse (project : ProjectId) (use : Coordinates × Artifact × ClassSet) (v : Violation) :
    Prop :=
  ∃ c ∈ use.2.2, (∀ d ∈ use.2.2, (compare c d).isLE = true) ∧
    v = usedTransitive project use.2.1 c

/-- Whether violations are those of some findings in the order of these: one for each artifact that
is not used, and one for each dependency that is used. -/
inductive AreOf : List Findings → List Violation → Prop
  | nil : AreOf [] []
  | cons {f : Findings} {results : List Findings} {onUses violations : List Violation} :
    List.Forall₂ (IsOnUse f.project) f.usedTransitive.toList onUses → AreOf results violations →
    AreOf (f :: results) (f.unusedList.map (unusedDirect f.project) ++ onUses ++ violations)

variable {f : Findings}

/-- The first class of a set that is not empty is the least. -/
lemma exists_isOnUse (project : ProjectId) {use : Coordinates × Artifact × ClassSet}
    (h : use.2.2.toList ≠ []) : ∃ v, IsOnUse project use v ∧
      (use.2.2.toList.head?.map (usedTransitive project use.2.1)) = some v := by
  obtain ⟨c, rest, hlist⟩ := List.exists_cons_of_ne_nil h
  have hordered := Std.ExtTreeSet.ordered_toList (t := use.2.2)
  rw [hlist, List.pairwise_cons] at hordered
  have hmem : ∀ d, d ∈ use.2.2 ↔ d = c ∨ d ∈ rest := by
    intro d
    rw [← Std.ExtTreeSet.mem_toList, hlist, List.mem_cons]
  refine ⟨_, ⟨c, (hmem c).2 (.inl rfl), fun d hd => ?_, rfl⟩, by rw [hlist]; rfl⟩
  rcases (hmem d).1 hd with rfl | hd
  · exact Ordering.isLE_of_eq_eq Std.ReflOrd.compare_self
  · exact Ordering.isLE_of_eq_lt (hordered.1 d hd)

lemma forall₂_filterMap {α β : Type} {R : α → β → Prop} {g : α → Option β} {items : List α}
    (h : ∀ item ∈ items, ∃ b, R item b ∧ g item = some b) :
    List.Forall₂ R items (items.filterMap g) := by
  induction items with
  | nil => exact .nil
  | cons item items ih =>
    rw [List.forall_mem_cons] at h
    obtain ⟨b, hb, hitem⟩ := h.1
    rw [List.filterMap_cons_some hitem]
    exact .cons hb (ih h.2)

lemma ofFindings_areOf (h : f.IsBuilt) : ∃ onUses,
    ofFindings f = f.unusedList.map (unusedDirect f.project) ++ onUses ∧
      List.Forall₂ (IsOnUse f.project) f.usedTransitive.toList onUses := by
  refine ⟨_, rfl, ?_⟩
  rw [Findings.usedList, List.filterMap_map]
  exact forall₂_filterMap fun use huse => exists_isOnUse f.project (h.toList_ne_nil huse)

lemma flatMap_areOf {results : List Findings} (h : ∀ f ∈ results, f.IsBuilt) :
    AreOf results (results.flatMap ofFindings) := by
  induction results with
  | nil => exact .nil
  | cons f results ih =>
    rw [List.forall_mem_cons] at h
    obtain ⟨onUses, heq, honUses⟩ := ofFindings_areOf h.1
    rw [List.flatMap_cons, heq]
    exact .cons honUses (ih h.2)

/-- Whether a violation counts for a policy. -/
def CountsFor (policy : Policy) : Violation → Prop
  | unusedDirect .. => policy.failIfUnused = true
  | usedTransitive .. => policy.failIfUsedTransitive = true

/-- There is a violation on the use of a dependency if there is a dependency that is used. -/
lemma exists_usedTransitive (h : f.IsBuilt) (hused : f.hasUsedTransitive = true) :
    ∃ a c, usedTransitive f.project a c ∈ ofFindings f := by
  obtain ⟨onUses, heq, honUses⟩ := ofFindings_areOf h
  cases hlist : f.usedTransitive.toList with
  | nil =>
    have hnone : f.hasUsedTransitive = false := by
      rw [Findings.hasUsedTransitive_eq_false_iff, Findings.usedList, hlist, List.map_nil]
    rw [hnone] at hused
    cases hused
  | cons use uses =>
    rw [hlist] at honUses
    obtain ⟨v, others, ⟨c, -, -, rfl⟩, -, rfl⟩ := List.forall₂_cons_left_iff.1 honUses
    exact ⟨use.2.1, c, by simp [heq]⟩

lemma mem_ofFindings {v : Violation} (hv : v ∈ ofFindings f) :
    (∃ a, v = unusedDirect f.project a ∧ f.hasUnused = true) ∨
      ∃ a c, v = usedTransitive f.project a c ∧ f.hasUsedTransitive = true := by
  rcases List.mem_append.1 hv with hv | hv
  · obtain ⟨a, ha, rfl⟩ := List.mem_map.1 hv
    refine .inl ⟨a, rfl, ?_⟩
    by_contra hno
    rw [Bool.not_eq_true, Findings.hasUnused_eq_false_iff] at hno
    simp [hno] at ha
  · obtain ⟨⟨a, classes⟩, ha, hv⟩ := List.mem_filterMap.1 hv
    obtain ⟨c, -, rfl⟩ := Option.map_eq_some_iff.1 hv
    refine .inr ⟨a, c, rfl, ?_⟩
    by_contra hno
    rw [Bool.not_eq_true, Findings.hasUsedTransitive_eq_false_iff] at hno
    simp [hno] at ha

/-- Findings are against a policy if and only if one of their violations counts for it. -/
lemma isViolatedBy_iff (h : f.IsBuilt) (policy : Policy) :
    policy.isViolatedBy f = true ↔ ∃ v ∈ ofFindings f, v.CountsFor policy := by
  rw [Policy.isViolatedBy, Bool.or_eq_true, Bool.and_eq_true, Bool.and_eq_true]
  constructor
  · rintro (⟨hpolicy, hunused⟩ | ⟨hpolicy, hused⟩)
    · have hne : f.unusedList ≠ [] := fun hnil =>
        absurd hunused (by simp [Findings.hasUnused_eq_false_iff.2 hnil])
      obtain ⟨a, ha⟩ := List.exists_mem_of_ne_nil _ hne
      exact ⟨_, List.mem_append_left _ (List.mem_map_of_mem ha), hpolicy⟩
    · obtain ⟨a, c, hv⟩ := exists_usedTransitive h hused
      exact ⟨_, hv, hpolicy⟩
  · rintro ⟨v, hv, hpolicy⟩
    obtain ⟨a, rfl, hunused⟩ | ⟨a, c, rfl, hused⟩ := mem_ofFindings hv
    · exact .inl ⟨hpolicy, hunused⟩
    · exact .inr ⟨hpolicy, hused⟩

/-- Findings are clean if and only if they give no violations. -/
lemma isClean_iff (h : f.IsBuilt) : f.isClean = true ↔ ofFindings f = [] := by
  rw [Findings.isClean, Bool.and_eq_true, Bool.not_eq_true', Bool.not_eq_true',
    Findings.hasUnused_eq_false_iff]
  constructor
  · rintro ⟨hunused, hused⟩
    rw [ofFindings, hunused, Findings.hasUsedTransitive_eq_false_iff.1 hused]
    rfl
  · intro hnil
    refine ⟨List.map_eq_nil_iff.1 (List.append_eq_nil_iff.1 hnil).1, ?_⟩
    by_contra hused
    obtain ⟨a, c, hv⟩ := exists_usedTransitive h (Bool.not_eq_false _ ▸ hused)
    simp [hnil] at hv

end Violation

/-! ### Summaries -/

section Summary

variable {s : RunSummary}

lemma RunSummary.any_isViolatedBy_iff (h : ∀ f ∈ s.results, f.IsBuilt) :
    (∃ f ∈ s.results, s.policy.isViolatedBy f = true) ↔
      ∃ v ∈ s.violations, v.CountsFor s.policy := by
  simp only [violations, List.mem_flatMap]
  constructor
  · rintro ⟨f, hf, hviolated⟩
    obtain ⟨v, hv, hcounts⟩ := (Violation.isViolatedBy_iff (h f hf) s.policy).1 hviolated
    exact ⟨v, ⟨f, hf, hv⟩, hcounts⟩
  · rintro ⟨v, ⟨f, hf, hv⟩, hcounts⟩
    exact ⟨f, hf, (Violation.isViolatedBy_iff (h f hf) s.policy).2 ⟨v, hv, hcounts⟩⟩

lemma RunSummary.shouldFail_iff :
    s.shouldFail = true ↔ s.failures ≠ [] ∨ ∃ f ∈ s.results, s.policy.isViolatedBy f = true := by
  rw [shouldFail, Bool.or_eq_true, Bool.not_eq_true', List.isEmpty_eq_false_iff, List.any_eq_true]

lemma HumanReport.isAllWell_iff (h : ∀ f ∈ s.results, f.IsBuilt) :
    isAllWell s = true ↔ s.violations = [] ∧ s.failures = [] := by
  rw [isAllWell, Bool.and_eq_true, List.all_eq_true, List.isEmpty_iff, RunSummary.violations,
    List.flatMap_eq_nil_iff]
  exact and_congr_left' (forall₂_congr fun f hf => Violation.isClean_iff (h f hf))

/-! ### Commands -/

namespace GitHubReport

lemma level_ofViolation {policy : Policy} {v : Violation} :
    (ofViolation policy v).level = .error ↔ v.CountsFor policy := by
  cases v with
  | unusedDirect =>
    change levelOf policy.failIfUnused = _ ↔ policy.failIfUnused = true
    cases policy.failIfUnused <;> decide
  | usedTransitive =>
    change levelOf policy.failIfUsedTransitive = _ ↔ policy.failIfUsedTransitive = true
    cases policy.failIfUsedTransitive <;> decide

/-- The commands on a run with findings or failures. -/
lemma mem_commands {command : Command} (h : ¬(s.violations = [] ∧ s.failures = [])) :
    command ∈ commands s ↔ (∃ v ∈ s.violations, ofViolation s.policy v = command) ∨
      (∃ failure ∈ s.failures, ofFailure failure = command) ∨
      s.violations ≠ [] ∧ command = ofCount s.violations.length := by
  have hcount : command ∈ (if s.violations.isEmpty then [] else [ofCount s.violations.length]) ↔
      s.violations ≠ [] ∧ command = ofCount s.violations.length := by
    split <;> simp_all
  rw [commands, if_neg (by simpa [List.isEmpty_iff] using h), List.mem_append, List.mem_append,
    List.mem_map, List.mem_map, hcount, or_assoc]

lemma commands_of_nil (h : s.violations = [] ∧ s.failures = []) : commands s = [clean] := by
  rw [commands, h.1, h.2]
  rfl

lemma exists_error_iff : (∃ command ∈ commands s, command.level = .error) ↔
    s.failures ≠ [] ∨ ∃ v ∈ s.violations, v.CountsFor s.policy := by
  by_cases h : s.violations = [] ∧ s.failures = []
  · rw [commands_of_nil h, h.1, h.2]
    simp [clean]
  · constructor
    · rintro ⟨command, hcommand, hlevel⟩
      obtain ⟨v, hv, rfl⟩ | ⟨failure, hfailure, rfl⟩ | ⟨-, rfl⟩ := (mem_commands h).1 hcommand
      · exact .inr ⟨v, hv, level_ofViolation.1 hlevel⟩
      · exact .inl (List.ne_nil_of_mem hfailure)
      · cases hlevel
    · rintro (hfailures | ⟨v, hv, hcounts⟩)
      · obtain ⟨failure, hfailure⟩ := List.exists_mem_of_ne_nil _ hfailures
        exact ⟨_, (mem_commands h).2 (.inr (.inl ⟨failure, hfailure, rfl⟩)), rfl⟩
      · exact ⟨_, (mem_commands h).2 (.inl ⟨v, hv, rfl⟩), level_ofViolation.2 hcounts⟩

/-- No other run is reported as a clean one. -/
lemma commands_eq_clean_iff : commands s = [clean] ↔ s.violations = [] ∧ s.failures = [] := by
  refine ⟨fun heq => ?_, commands_of_nil⟩
  by_contra h
  have hmem : clean ∈ commands s := by simp [heq]
  obtain ⟨v, -, hv⟩ | ⟨failure, -, hfailure⟩ | ⟨-, hcount⟩ := (mem_commands h).1 hmem
  · have htitle := congrArg Command.title hv
    cases v <;> simp [ofViolation, clean] at htitle
  · cases congrArg Command.level hfailure
  · have htitle := congrArg Command.title hcount
    simp [ofCount, clean] at htitle

end GitHubReport

/-! ### Lines for people -/

namespace HumanReport

/-- The lines on a run of which there is nothing to tell. -/
def allWellLines (colors : Bool) (s : RunSummary) : List String :=
  ["", item colors "" (.strong .green) "✅"
    ("No dependency problems found in " ++ Text.counted s.results.length "project" ++ ".")]

lemma three_le_length_findingLines (colors : Bool) (limit : Option Nat) (policy : Policy)
    {f : Findings} (h : f.isClean = false) : 3 ≤ (findingLines colors limit policy f).length := by
  unfold findingLines
  cases hunused : f.hasUnused with
  | true => simp [unusedLines]
  | false =>
    have hused : f.hasUsedTransitive = true := by simpa [Findings.isClean, hunused] using h
    simp [hused, usedLines]

lemma three_le_length_failureLines (colors : Bool) {failures : List ProjectFailure}
    (h : failures ≠ []) : 3 ≤ (failureLines colors failures).length := by
  have hpos := List.length_pos_iff.2 h
  unfold failureLines
  rw [if_neg (by simpa using h)]
  simp
  omega

/-- A run is reported as one of which there is nothing to tell if and only if it is one. -/
lemma lines_eq_allWellLines_iff (colors : Bool) (limit : Option Nat) :
    lines colors limit s = allWellLines colors s ↔ isAllWell s = true := by
  constructor
  · intro heq
    by_contra h
    have hlength : (lines colors limit s).length = 2 := by rw [heq]; rfl
    unfold lines at hlength
    rw [if_neg h, List.length_append, List.length_append] at hlength
    rw [isAllWell, Bool.and_eq_true, not_and_or, List.all_eq_true, List.isEmpty_iff] at h
    rcases h with h | h
    · push Not at h
      obtain ⟨f, hf, hdirty⟩ := h
      rw [ne_eq, Bool.not_eq_true] at hdirty
      have hmem : f ∈ s.results.filter (!·.isClean) := List.mem_filter.2 ⟨hf, by simp [hdirty]⟩
      obtain ⟨before, after, hsplit⟩ := List.append_of_mem hmem
      have hthree := three_le_length_findingLines colors limit s.policy hdirty
      rw [hsplit, List.flatMap_append, List.flatMap_cons, List.length_append,
        List.length_append] at hlength
      omega
    · have hthree := three_le_length_failureLines colors h
      omega
  · intro h
    unfold lines
    rw [if_pos h]
    rfl

end HumanReport

/-! ### Documents for programs -/

namespace Json

/-- The value of a field of an object. -/
def field? (name : String) : Json → Option Json
  | object fields => fields.lookup name
  | _ => none

/-- The items of a list. -/
def items : Json → List Json
  | list items => items
  | _ => []

/-- The items of a list that is a field of an object. -/
def itemsOf (name : String) (value : Json) : List Json :=
  ((value.field? name).map items).getD []

end Json

namespace JsonReport

lemma field?_shouldFail : (ofSummary s).field? "should_fail" = some (.bool s.shouldFail) := rfl

lemma itemsOf_projects :
    (ofSummary s).itemsOf "projects" = s.results.map (ofFindings s.policy) := rfl

lemma itemsOf_failures : (ofSummary s).itemsOf "failures" = s.failures.map ofFailure := rfl

lemma itemsOf_violations : (ofSummary s).itemsOf "violations" = s.violations.map ofViolation := rfl

lemma exists_violates_iff : (∃ project ∈ (ofSummary s).itemsOf "projects",
      project.field? "violates_policy" = some (.bool true)) ↔
    ∃ f ∈ s.results, s.policy.isViolatedBy f = true := by
  have hfield : ∀ f, (ofFindings s.policy f).field? "violates_policy" =
      some (.bool (s.policy.isViolatedBy f)) := fun _ => rfl
  simp only [itemsOf_projects, List.mem_map, exists_exists_and_eq_and, hfield, Option.some.injEq,
    Json.bool.injEq]

end JsonReport

end Summary

/-! ### Elements that are counted -/

namespace JUnitReport

/-- Whether the attributes of an element tell how many test cases, failures and errors it holds. -/
structure CountsItsElements (e : Xml.Element) : Prop where
  tests : e.attribute? "tests" = some (toString (e.elements "testcase").length)
  failures : e.attribute? "failures" = some (toString (e.elements "failure").length)
  errors : e.attribute? "errors" = some (toString (e.elements "error").length)

lemma countsItsElements (s : RunSummary) (name title : String) {content : Xml.Content}
    (h : ∀ found, found ≠ "testsuite" →
      content.elements found = (suite .written s).elements found) :
    CountsItsElements ⟨name.toList, countAttributes title (counts s), content⟩ := by
  have hlookup : ∀ c : Counts,
      (countAttributes title c).lookup "tests".toList = some (toString c.tests).toList ∧
      (countAttributes title c).lookup "failures".toList = some (toString c.failures).toList ∧
      (countAttributes title c).lookup "errors".toList = some (toString c.errors).toList :=
    fun _ => ⟨rfl, rfl, rfl⟩
  obtain ⟨htests, hfailures, herrors⟩ := length_elements_suite .written s
  refine ⟨?_, ?_, ?_⟩
  · rw [Xml.Element.elements, h _ (by decide), htests, Xml.Element.attribute?, (hlookup _).1,
      Option.map_some, String.ofList_toList]
  · rw [Xml.Element.elements, h _ (by decide), hfailures, Xml.Element.attribute?, (hlookup _).2.1,
      Option.map_some, String.ofList_toList]
  · rw [Xml.Element.elements, h _ (by decide), herrors, Xml.Element.attribute?, (hlookup _).2.2,
      Option.map_some, String.ofList_toList]

/-- The counts of a run are attributes of the root and of the one element in it. -/
lemma exists_elements_suites (s : RunSummary) : ∃ root inner,
    (suites .written s).elements "testsuites" = [root] ∧
    (suites .written s).elements "testsuite" = [inner] ∧
    CountsItsElements root ∧ CountsItsElements inner := by
  have hroot : (suite .written s).elements "testsuites" = [] := by
    rw [elements_suite (by decide),
      elements_testCases_eq_nil (by decide) (by decide) (by decide)]
  have hinner : (suite .written s).elements "testsuite" = [⟨"testsuite".toList,
      countAttributes "dependency-usage" (counts s), testCases .written s⟩] := by
    rw [suite, Xml.Content.elements, if_pos rfl,
      elements_testCases_eq_nil (by decide) (by decide) (by decide)]
    rfl
  refine ⟨_, _, ?_, ?_, countsItsElements s "testsuites" "depsweep" fun _ _ => rfl,
    countsItsElements s "testsuite" "dependency-usage" fun _ hfound => (elements_suite hfound).symm⟩
  · rw [suites, Xml.Content.elements, if_pos rfl, hroot]
    rfl
  · rw [suites, Xml.Content.elements, if_neg (by decide), hinner]
    rfl

end JUnitReport

/-! ### The verdict -/

/-- Whether a run fails is the same in its status, in the levels of its commands, in the counts of
its test results and in its document for programs; and it is reported as clean to people and by
commands if that document has neither violations nor failures. The violations are those of the
findings, one by one. The counts of the test results are those of the elements written. What is
printed is, report by report, the text of these lines, commands, elements or document and nothing
else. -/
theorem verdicts_agree (s : RunSummary) (h : ∀ f ∈ s.results, f.IsBuilt) :
    let json := JsonReport.ofSummary s
    [s.shouldFail = true,
      ∃ command ∈ GitHubReport.commands s, command.level = .error,
      0 < (JUnitReport.counts s).failures + (JUnitReport.counts s).errors,
      json.field? "should_fail" = some (.bool true),
      (∃ project ∈ json.itemsOf "projects", project.field? "violates_policy" = some (.bool true)) ∨
        json.itemsOf "failures" ≠ []].TFAE ∧
    (∀ colors limit, [HumanReport.lines colors limit s = HumanReport.allWellLines colors s,
      GitHubReport.commands s = [GitHubReport.clean],
      json.itemsOf "violations" = [] ∧ json.itemsOf "failures" = []].TFAE) ∧
    Violation.AreOf s.results s.violations ∧
    (∀ colors limit, HumanReport.report colors limit s =
      Text.unlines (HumanReport.lines colors limit s)) ∧
    GitHubReport.report s = Text.unlines ((GitHubReport.commands s).map GitHubReport.Command.line) ∧
    JsonReport.report s = json.pretty ∧
    JUnitReport.report s = Xml.declaration ++ String.ofList (JUnitReport.suites .written s).write ∧
    ∃ root inner, (JUnitReport.suites .written s).elements "testsuites" = [root] ∧
      (JUnitReport.suites .written s).elements "testsuite" = [inner] ∧
      JUnitReport.CountsItsElements root ∧ JUnitReport.CountsItsElements inner := by
  intro json
  have hviolated := RunSummary.any_isViolatedBy_iff h
  refine ⟨?_, fun colors limit => ?_, Violation.flatMap_areOf h, fun _ _ => rfl, rfl, rfl,
    JUnitReport.report_eq_suites s, JUnitReport.exists_elements_suites s⟩
  · tfae_have 1 ↔ 4 := by
      rw [JsonReport.field?_shouldFail, Option.some.injEq, Json.bool.injEq]
    tfae_have 1 ↔ 5 := by
      rw [RunSummary.shouldFail_iff, JsonReport.exists_violates_iff, JsonReport.itemsOf_failures,
        ne_eq, ne_eq, List.map_eq_nil_iff, or_comm]
    tfae_have 1 ↔ 2 := by
      rw [RunSummary.shouldFail_iff, GitHubReport.exists_error_iff, hviolated]
    tfae_have 1 ↔ 3 := by
      rw [RunSummary.shouldFail_iff, Nat.add_pos_iff_pos_or_pos, JUnitReport.counts,
        List.countP_pos_iff, List.length_pos_iff, or_comm]
    tfae_finish
  · have hjson : json.itemsOf "violations" = [] ∧ json.itemsOf "failures" = [] ↔
        s.violations = [] ∧ s.failures = [] := by
      rw [JsonReport.itemsOf_violations, JsonReport.itemsOf_failures, List.map_eq_nil_iff,
        List.map_eq_nil_iff]
    tfae_have 1 ↔ 3 := by
      rw [HumanReport.lines_eq_allWellLines_iff, HumanReport.isAllWell_iff h, hjson]
    tfae_have 2 ↔ 3 := by
      rw [GitHubReport.commands_eq_clean_iff, hjson]
    tfae_finish

/-- The summary of a run over a project with a finding of each kind, one of which counts. -/
def sampleSummary : RunSummary where
  results := [((Findings.empty ⟨"com.acme", "app", "1.0", .jar⟩).markUnused
    ⟨⟨"com.acme", "unused", "1.0", .jar, none⟩, .compile, none⟩).recordUse
      ⟨⟨"com.acme", "library", "1.0", .jar, none⟩, .compile, none⟩ ⟨"q.B"⟩]
  failures := []
  policy := { failIfUsedTransitive := true }
  stoppedEarly := false

theorem verdicts_agree_sampleSummary :
    (∀ f ∈ sampleSummary.results, f.IsBuilt) ∧ sampleSummary.shouldFail = true ∧
    (∃ command ∈ GitHubReport.commands sampleSummary, command.level = .error) ∧
    Violation.AreOf sampleSummary.results sampleSummary.violations := by
  have hbuilt : ∀ f ∈ sampleSummary.results, f.IsBuilt := by
    intro f hf
    obtain rfl := List.mem_singleton.1 hf
    exact ((Findings.IsBuilt.empty _).markUnused _).recordUse _ _
  have hfails : sampleSummary.shouldFail = true := by decide +kernel
  obtain ⟨hverdict, -, hviolations, -⟩ := verdicts_agree sampleSummary hbuilt
  exact ⟨hbuilt, hfails, (hverdict.out 0 1).1 hfails, hviolations⟩

end ClasspathAudit
