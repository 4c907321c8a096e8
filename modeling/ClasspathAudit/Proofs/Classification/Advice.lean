import ClasspathAudit.Proofs.Classification.Meaning
import ClasspathAudit.Proofs.Classification.Resolution
import ClasspathAudit.Report.Suggestion

/-
# Following the advice

A project follows the advice of an analysis when it no longer declares what is unused, and declares
what it uses of transitive dependencies. The transitive dependencies change with that: an entry that
is no longer declared may be listed among them, and one that is declared now no longer counts as one
of them. Nothing is found in the project after that.
-/
namespace ClasspathAudit

open Classification (isRelevant IsExact MustFail)

/-! ### Classification by coordinates -/

section Coordinates

variable {z : Analyzer} {id : ProjectId} {artifacts : List Artifact} {k : Coordinates}

/-- Whether an artifact with these coordinates counts. -/
def Relevant (id : ProjectId) (artifacts : List Artifact) (k : Coordinates) : Prop :=
  ∃ a ∈ artifacts, isRelevant id a = true ∧ a.coordinates = k

variable (z id)

/-- Without locations, a list of artifacts that count is as good as their coordinates. -/
lemma exists_mem_placed_iff (h : ∀ a ∈ artifacts, a.location = none)
    (P : Coordinates → (ClassName → Prop) → Prop) :
    (∃ a ∈ (artifacts.map z.placed).filter (isRelevant id),
        P a.coordinates (ClassIndex.Declares z.files z.reactor a)) ↔
      ∃ k, Relevant id artifacts k ∧ P k (z.Declares k) := by
  have hdeclares : ∀ a ∈ artifacts, ClassIndex.Declares z.files z.reactor (z.placed a) =
      z.Declares a.coordinates :=
    fun a ha => funext fun c => propext (Analyzer.declares_placed (h a ha) c)
  constructor
  · rintro ⟨a, ha, hP⟩
    obtain ⟨hmap, hrelevant⟩ := List.mem_filter.1 ha
    obtain ⟨b, hb, rfl⟩ := List.mem_map.1 hmap
    rw [Analyzer.isRelevant_placed] at hrelevant
    rw [Analyzer.coordinates_placed, hdeclares b hb] at hP
    exact ⟨b.coordinates, ⟨b, hb, hrelevant, rfl⟩, hP⟩
  · rintro ⟨k, ⟨b, hb, hrelevant, rfl⟩, hP⟩
    refine ⟨z.placed b, List.mem_filter.2 ⟨List.mem_map_of_mem hb, ?_⟩, ?_⟩
    · rwa [Analyzer.isRelevant_placed]
    · rwa [Analyzer.coordinates_placed, hdeclares b hb]

lemma forall_mem_placed_iff (h : ∀ a ∈ artifacts, a.location = none)
    (P : Coordinates → (ClassName → Prop) → Prop) :
    (∀ a ∈ (artifacts.map z.placed).filter (isRelevant id),
        P a.coordinates (ClassIndex.Declares z.files z.reactor a)) ↔
      ∀ k, Relevant id artifacts k → P k (z.Declares k) := by
  have hnot := exists_mem_placed_iff z id h fun k declares => ¬P k declares
  rw [← not_iff_not]
  simpa only [not_forall, exists_prop] using hnot

lemma exists_isUnreadable_iff (h : ∀ a ∈ artifacts, a.location = none) :
    (∃ a ∈ (artifacts.map z.placed).filter (isRelevant id),
        ClassIndex.IsUnreadable z.files z.reactor a) ↔
      ∃ k, Relevant id artifacts k ∧ z.IsUnreadable k := by
  constructor
  · rintro ⟨a, ha, hunreadable⟩
    obtain ⟨hmap, hrelevant⟩ := List.mem_filter.1 ha
    obtain ⟨b, hb, rfl⟩ := List.mem_map.1 hmap
    rw [Analyzer.isRelevant_placed] at hrelevant
    rw [Analyzer.isUnreadable_placed (h b hb)] at hunreadable
    exact ⟨b.coordinates, ⟨b, hb, hrelevant, rfl⟩, hunreadable⟩
  · rintro ⟨k, ⟨b, hb, hrelevant, rfl⟩, hunreadable⟩
    refine ⟨z.placed b, List.mem_filter.2 ⟨List.mem_map_of_mem hb, ?_⟩, ?_⟩
    · rwa [Analyzer.isRelevant_placed]
    · rwa [Analyzer.isUnreadable_placed (h b hb)]

variable {z id} {f : Findings} {referenced : ClassSet}

/-- Whether findings are what the classes used and the coordinates of the direct and transitive
dependencies lead to. -/
structure FollowsFrom (z : Analyzer) (direct transitive : Coordinates → Prop)
    (referenced : ClassSet) (f : Findings) : Prop where
  unused : ∀ k, k ∈ f.unused ↔ direct k ∧ ∀ c ∈ referenced, ¬z.Declares k c
  recorded : ∀ k c, f.Records k c ↔ c ∈ referenced ∧ (∀ d, direct d → ¬z.Declares d c) ∧
    (transitive k ∧ z.Declares k c) ∧
    ∀ t, transitive t → z.Declares t c → (compare k t).isLE

/-- Whether all that a classification needs can be read. -/
structure IsReadable (z : Analyzer) (direct transitive : Coordinates → Prop)
    (referenced : ClassSet) : Prop where
  ofDirect : ∀ d, direct d → ¬z.IsUnreadable d
  ofTransitive : ∀ c ∈ referenced, (∀ d, direct d → ¬z.Declares d c) →
    ∀ t, transitive t → ¬z.IsUnreadable t

/-- Of the coordinates with a property there are least ones. -/
lemma exists_least {P : Coordinates → Prop} (h : ∃ k, Relevant id artifacts k ∧ P k) :
    ∃ k, Relevant id artifacts k ∧ P k ∧
      ∀ t, Relevant id artifacts t → P t → (compare k t).isLE := by
  induction artifacts with
  | nil =>
    obtain ⟨k, ⟨a, ha, -⟩, -⟩ := h
    cases ha
  | cons a artifacts ih =>
    have hcons : ∀ k, Relevant id (a :: artifacts) k ↔
        (isRelevant id a = true ∧ a.coordinates = k) ∨ Relevant id artifacts k := by
      intro k
      simp [Relevant]
    simp only [hcons] at h ⊢
    by_cases ha : isRelevant id a = true ∧ P a.coordinates
    · by_cases hrest : ∃ k, Relevant id artifacts k ∧ P k
      · obtain ⟨k, hk, hPk, hleast⟩ := ih hrest
        -- the least of the others is least of all unless `a` comes before it
        by_cases hle : (compare a.coordinates k).isLE
        · refine ⟨a.coordinates, .inl ⟨ha.1, rfl⟩, ha.2, ?_⟩
          rintro t (⟨-, rfl⟩ | ht) hPt
          · exact Std.ReflCmp.isLE_rfl
          · exact Std.TransCmp.isLE_trans hle (hleast t ht hPt)
        · refine ⟨k, .inr hk, hPk, ?_⟩
          rintro t (⟨-, rfl⟩ | ht) hPt
          · exact Ordering.isLE_of_eq_lt (Std.OrientedCmp.lt_of_not_isLE hle)
          · exact hleast t ht hPt
      · refine ⟨a.coordinates, .inl ⟨ha.1, rfl⟩, ha.2, ?_⟩
        rintro t (⟨-, rfl⟩ | ht) hPt
        · exact Std.ReflCmp.isLE_rfl
        · exact absurd ⟨t, ht, hPt⟩ hrest
    · have hnot : ∀ t, isRelevant id a = true ∧ a.coordinates = t → ¬P t := by
        rintro t ⟨hrelevant, rfl⟩ hPt
        exact ha ⟨hrelevant, hPt⟩
      obtain ⟨k, hk | hk, hPk⟩ := h
      · exact absurd hPk (hnot k hk)
      · obtain ⟨k, hk, hPk, hleast⟩ := ih ⟨k, hk, hPk⟩
        refine ⟨k, .inr hk, hPk, ?_⟩
        rintro t (ht | ht) hPt
        · exact absurd hPt (hnot t ht)
        · exact hleast t ht hPt

/-! ### A second classification -/

variable {direct direct' transitive' : Coordinates → Prop}

/-- Whether the coordinates `direct'` and `transitive'` are what is left of others by the advice in
findings: what is unused is no longer direct and may be transitive, what is recorded is direct and
no longer transitive. -/
structure IsAdvised (f : Findings) (direct transitive direct' transitive' : Coordinates → Prop) :
    Prop where
  direct_iff : ∀ k, direct' k ↔ direct k ∧ k ∉ f.unused ∨ ∃ c, f.Records k c
  of_transitive : ∀ k, transitive' k → transitive k ∧ (∀ c, ¬f.Records k c) ∨ k ∈ f.unused

namespace IsAdvised

variable (hadvised : IsAdvised f direct (Relevant id artifacts) direct' transitive')
  (hfound : FollowsFrom z direct (Relevant id artifacts) referenced f)

include hadvised hfound

/-- A class that no direct dependency declares any more was not declared by one before. -/
lemma not_declares {c : ClassName} (hc : c ∈ referenced)
    (h : ∀ d, direct' d → ¬z.Declares d c) : ∀ d, direct d → ¬z.Declares d c := by
  intro d hd hdeclares
  by_cases hunused : d ∈ f.unused
  · exact ((hfound.unused d).1 hunused).2 c hc hdeclares
  · exact h d ((hadvised.direct_iff d).2 (.inl ⟨hd, hunused⟩)) hdeclares

/-- All that is needed now was needed before. -/
lemma isReadable (hread : IsReadable z direct (Relevant id artifacts) referenced) :
    IsReadable z direct' transitive' referenced := by
  constructor
  · intro d hd
    rcases (hadvised.direct_iff d).1 hd with ⟨hd, -⟩ | ⟨c, hrecords⟩
    · exact hread.ofDirect d hd
    · obtain ⟨hc, hundeclared, ⟨ht, -⟩, -⟩ := (hfound.recorded d c).1 hrecords
      exact hread.ofTransitive c hc hundeclared d ht
  · intro c hc hundeclared t ht
    rcases hadvised.of_transitive t ht with ⟨ht, -⟩ | hunused
    · exact hread.ofTransitive c hc (hadvised.not_declares hfound hc hundeclared) t ht
    · exact hread.ofDirect t ((hfound.unused t).1 hunused).1

variable {f' : Findings} (hfound' : FollowsFrom z direct' transitive' referenced f')

include hfound'

/-- A direct dependency is used: it was before, or a class was recorded under it. -/
lemma not_mem_unused : k ∉ f'.unused := by
  intro hunused'
  obtain ⟨hk, hno⟩ := (hfound'.unused k).1 hunused'
  rcases (hadvised.direct_iff k).1 hk with ⟨hk, hused⟩ | ⟨c, hrecords⟩
  · exact hused ((hfound.unused k).2 ⟨hk, hno⟩)
  · obtain ⟨hc, -, ⟨-, hdeclares⟩, -⟩ := (hfound.recorded k c).1 hrecords
    exact hno c hc hdeclares

/-- The owner of each class that a transitive dependency declares is a direct dependency now. -/
lemma not_records {c : ClassName} : ¬f'.Records k c := by
  intro hrecords'
  obtain ⟨hc, hundeclared, ⟨hk, hdeclares⟩, -⟩ := (hfound'.recorded k c).1 hrecords'
  rcases hadvised.of_transitive k hk with ⟨hk, -⟩ | hunused
  · obtain ⟨t, ht, htdeclares, hleast⟩ := exists_least (P := (z.Declares · c)) ⟨k, hk, hdeclares⟩
    have hrecords : f.Records t c := (hfound.recorded t c).2
      ⟨hc, hadvised.not_declares hfound hc hundeclared, ⟨ht, htdeclares⟩, hleast⟩
    exact hundeclared t ((hadvised.direct_iff t).2 (.inr ⟨c, hrecords⟩)) htdeclares
  · exact ((hfound.unused k).1 hunused).2 c hc hdeclares

end IsAdvised

end Coordinates

/-! ### Analyses -/

namespace Project

/-- Whether no dependency has a location of its own. -/
structure IsUnlocated (project : Project) : Prop where
  direct : ∀ a ∈ project.direct, a.location = none
  transitive : ∀ a ∈ project.transitive, a.location = none

variable {z : Analyzer} {project : Project} {scan : DirectoryScan}

/-- The direct dependencies that count, by their coordinates. -/
def DirectAt (project : Project) : Coordinates → Prop :=
  Relevant project.id project.direct

/-- The transitive dependencies that count, by their coordinates. -/
def TransitiveAt (project : Project) : Coordinates → Prop :=
  Relevant project.id project.transitive

lemma followsFrom_of_isExact (h : project.IsUnlocated) {f : Findings} {referenced : ClassSet}
    (hf : IsExact z.files z.reactor ⟨true, true⟩
      ((project.direct.map z.placed).filter (isRelevant project.id))
      ((project.transitive.map z.placed).filter (isRelevant project.id)) referenced f) :
    FollowsFrom z project.DirectAt project.TransitiveAt referenced f := by
  constructor
  · intro k
    have hsome := exists_mem_placed_iff z project.id h.direct fun d declares =>
      d = k ∧ ∀ c ∈ referenced, ¬declares c
    rw [hf.unused, hsome]
    simp [DirectAt]
  · intro k c
    have hdirect := forall_mem_placed_iff z project.id h.direct
      fun _ declares => ¬declares c
    have hsome := exists_mem_placed_iff z project.id h.transitive
      fun t declares => t = k ∧ declares c
    have hall := forall_mem_placed_iff z project.id h.transitive
      fun t declares => declares c → (compare k t).isLE
    rw [hf.recorded, hdirect, hsome, hall]
    simp [DirectAt, TransitiveAt]

lemma isReadable_iff_not_mustFail (h : project.IsUnlocated)
    (hscan : DirectoryScan.ofDirectory z.files project.outputDir = .ok scan) :
    IsReadable z project.DirectAt project.TransitiveAt scan.referenced ↔
      ¬MustFail z.files z.reactor ⟨true, true⟩ project.outputDir
        ((project.direct.map z.placed).filter (isRelevant project.id))
        ((project.transitive.map z.placed).filter (isRelevant project.id)) := by
  have hdirect := forall_mem_placed_iff z project.id h.direct
  rw [MustFail, exists_isUnreadable_iff z _ h.direct, exists_isUnreadable_iff z _ h.transitive]
  constructor
  · rintro hread (⟨failure, hfailure⟩ | ⟨d, hd, hunreadable⟩ |
      ⟨-, ⟨scan', hscan', c, hc, hundeclared⟩, t, ht, hunreadable⟩)
    · rw [hscan] at hfailure
      cases hfailure
    · exact hread.ofDirect d hd hunreadable
    · rw [hscan] at hscan'
      obtain rfl := Except.ok.inj hscan'
      exact hread.ofTransitive c hc ((hdirect fun _ declares => ¬declares c).1 hundeclared) t ht
        hunreadable
  · intro hnot
    constructor
    · intro d hd hunreadable
      exact hnot (.inr (.inl ⟨d, hd, hunreadable⟩))
    · intro c hc hundeclared t ht hunreadable
      have hundeclared' := (hdirect fun _ declares => ¬declares c).2 hundeclared
      exact hnot (.inr (.inr ⟨rfl, ⟨scan, hscan, c, hc, hundeclared'⟩, t, ht, hunreadable⟩))

/-- What a successful analysis finds follows from coordinates, and all that it needs was read. -/
lemma followsFrom_of_analyze (hchecks : z.checks = ⟨true, true⟩) (h : project.IsUnlocated)
    (hpackaging : project.id.packaging.carriesClasses = true) {f : Findings}
    (hf : (z.analyze project).result = .ok f) :
    ∃ scan, DirectoryScan.ofDirectory z.files project.outputDir = .ok scan ∧
      FollowsFrom z project.DirectAt project.TransitiveAt scan.referenced f ∧
      IsReadable z project.DirectAt project.TransitiveAt scan.referenced ∧
      f.RecordsOnly (· ∈ (project.transitive.map z.placed).filter (isRelevant project.id)) := by
  rw [Analyzer.result_analyze, hchecks] at hf
  obtain ⟨scan, hscan, hexact⟩ := Classification.isExact_of_classify hpackaging hf
  refine ⟨scan, hscan, followsFrom_of_isExact h hexact, ?_, hexact.artifacts⟩
  rw [isReadable_iff_not_mustFail h hscan]
  intro hfail
  obtain ⟨failure, hfailure⟩ := (Classification.classify_eq_error_iff hpackaging).2 hfail
  rw [hf] at hfailure
  cases hfailure

lemma exists_analyze_eq_ok (hchecks : z.checks = ⟨true, true⟩) (h : project.IsUnlocated)
    (hpackaging : project.id.packaging.carriesClasses = true)
    (hscan : DirectoryScan.ofDirectory z.files project.outputDir = .ok scan)
    (hread : IsReadable z project.DirectAt project.TransitiveAt scan.referenced) :
    ∃ f, (z.analyze project).result = .ok f := by
  rw [Analyzer.result_analyze, hchecks]
  cases hresult : (classify z.files z.reactor ⟨true, true⟩ project (project.direct.map z.placed)
      (project.transitive.map z.placed)).result with
  | ok f => exact ⟨f, rfl⟩
  | error failure =>
    have hfail := (Classification.classify_eq_error_iff hpackaging).1 ⟨failure, hresult⟩
    exact absurd hfail ((isReadable_iff_not_mustFail h hscan).1 hread)

end Project
end ClasspathAudit
