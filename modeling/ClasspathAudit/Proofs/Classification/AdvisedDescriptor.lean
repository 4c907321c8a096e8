import ClasspathAudit.Proofs.Classification.Advice
import ClasspathAudit.Proofs.Descriptor.Entries

/-
# Descriptors that follow the advice

The advice is given in terms of a descriptor: entries to delete, and entries to add. With a
descriptor whose entries name no paths, a second analysis finds nothing more to advise.
-/
namespace ClasspathAudit

open Classification (isRelevant)

namespace Descriptor

/-- The descriptor without the dependencies that are unused by the findings, and with those that
they suggest. -/
def following (d : Descriptor) (f : Findings) : Descriptor :=
  { d with dependencies :=
      d.dependencies.filter (fun spec => !f.unused.contains spec.coordinates) ++
        SuggestionReport.entries f }

/-- Whether no entry for a dependency names a path. -/
def NamesNoPath (d : Descriptor) : Prop :=
  ∀ spec ∈ d.dependencies ++ d.transitive, spec.path = none

variable {z : Analyzer} {d : Descriptor} {path : Path} {p : Project} {f : Findings}

lemma isKept_iff {k : Coordinates} : (!f.unused.contains k) = true ↔ k ∉ f.unused := by
  rw [Bool.not_eq_true', ← Bool.not_eq_true, Std.ExtTreeMap.contains_iff_mem]

lemma mem_entries_iff {spec : DependencySpec} : spec ∈ SuggestionReport.entries f ↔
    ∃ (k : Coordinates) (a : Artifact) (classes : ClassSet),
      f.usedTransitive[k]? = some (a, classes) ∧ spec = .suggested a := by
  simp only [SuggestionReport.entries, Findings.usedList, List.map_map, List.mem_map,
    Prod.exists, Function.comp_apply, Std.ExtTreeMap.mem_toList_iff_getElem?_eq_some, eq_comm]

lemma location_of_mapM {specs : List DependencySpec} {artifacts : List Artifact}
    (hspecs : ∀ spec ∈ specs, spec.path = none)
    (h : specs.mapM (DependencySpec.toArtifact (baseOf path)) = .ok artifacts) :
    ∀ a ∈ artifacts, a.location = none := by
  intro a ha
  obtain ⟨spec, hspec, hartifact⟩ := (mem_of_mapM_eq_ok h a).1 ha
  obtain ⟨-, rfl⟩ := DependencySpec.toArtifact_eq_ok_iff.1 hartifact
  show spec.path.map _ = none
  rw [hspecs spec hspec, Option.map_none]

lemma isUnlocated_of_toProject (hpaths : d.NamesNoPath) (hp : d.toProject path = .ok (some p)) :
    p.IsUnlocated := by
  obtain ⟨transitive, hdirect, htransitive, hmake, -⟩ := toProject_eq_ok hp
  refine ⟨?_, fun a ha => ?_⟩
  · exact location_of_mapM (fun spec hspec => hpaths spec (List.mem_append_left _ hspec)) hdirect
  · rw [hmake] at ha
    exact location_of_mapM (fun spec hspec => hpaths spec (List.mem_append_right _ hspec))
      htransitive a (List.mem_filter.1 ha).1

lemma NamesNoPath.following (h : d.NamesNoPath) (f : Findings) : (d.following f).NamesNoPath := by
  intro spec hspec
  rcases List.mem_append.1 hspec with hspec | hspec
  · rcases List.mem_append.1 hspec with hspec | hspec
    · exact h spec (List.mem_append_left _ (List.mem_filter.1 hspec).1)
    · obtain ⟨k, a, classes, -, rfl⟩ := mem_entries_iff.1 hspec
      rfl
  · exact h spec (List.mem_append_right _ hspec)

/-- The direct dependencies of a project that follows the advice: those that are used, and one for
each record. -/
def IsFollowedBy (f : Findings) (direct direct' : List Artifact) : Prop :=
  ∀ a, a ∈ direct' ↔ a ∈ direct ∧ a.coordinates ∉ f.unused ∨
    ∃ (k : Coordinates) (b : Artifact) (classes : ClassSet),
      f.usedTransitive[k]? = some (b, classes) ∧
        a = ⟨k, (DependencySpec.suggested b).scope, none⟩

/-- A descriptor that follows the advice describes a project again, because each entry that it adds
names an artifact as an entry for a transitive dependency did. -/
lemma exists_toProject_following (hp : d.toProject path = .ok (some p))
    (hrecords : f.RecordsOnly fun a => ∃ b ∈ p.transitive, a.coordinates = b.coordinates) :
    ∃ direct' transitive, IsFollowedBy f p.direct direct' ∧
      d.transitive.mapM (DependencySpec.toArtifact (baseOf path)) = .ok transitive ∧
      p = Project.make p.id p.outputDir p.descriptor p.direct transitive ∧
      (d.following f).toProject path =
        .ok (some (Project.make p.id p.outputDir p.descriptor direct' transitive)) := by
  obtain ⟨transitive, hdirect, htransitive, hmake, hothers⟩ := toProject_eq_ok hp
  have hsuggested : ∀ (k : Coordinates) (a : Artifact) (classes : ClassSet),
      f.usedTransitive[k]? = some (a, classes) →
      (DependencySpec.suggested a).toArtifact (baseOf path) =
        .ok ⟨k, (DependencySpec.suggested a).scope, none⟩ := by
    intro k a classes hk
    obtain ⟨rfl, ⟨b, hb, hab⟩, -⟩ := hrecords k a classes hk
    -- an entry for a transitive dependency has these coordinates, so they make an artifact again
    rw [hmake] at hb
    obtain ⟨spec, -, hspec⟩ := (mem_of_mapM_eq_ok htransitive b).1 (List.mem_filter.1 hb).1
    rw [DependencySpec.toArtifact_suggested hspec hab, hab]
  have hartifacts : ∀ spec ∈ (d.following f).dependencies,
      ∃ a, spec.toArtifact (baseOf path) = .ok a := by
    intro spec hspec
    rcases List.mem_append.1 hspec with hspec | hspec
    · exact exists_of_mapM_eq_ok hdirect (List.mem_filter.1 hspec).1
    · obtain ⟨k, a, classes, hk, rfl⟩ := mem_entries_iff.1 hspec
      exact ⟨_, hsuggested k a classes hk⟩
  obtain ⟨direct', hdirect'⟩ := exists_mapM_eq_ok hartifacts
  refine ⟨direct', transitive, fun a => ?_, htransitive, hmake, hothers _ _ hdirect'⟩
  rw [mem_of_mapM_eq_ok hdirect', mem_of_mapM_eq_ok hdirect]
  constructor
  · rintro ⟨spec, hspec, ha⟩
    rcases List.mem_append.1 hspec with hspec | hspec
    · obtain ⟨hspec, hused⟩ := List.mem_filter.1 hspec
      obtain ⟨-, rfl⟩ := DependencySpec.toArtifact_eq_ok_iff.1 ha
      exact .inl ⟨⟨spec, hspec, ha⟩, isKept_iff.1 hused⟩
    · obtain ⟨k, b, classes, hk, rfl⟩ := mem_entries_iff.1 hspec
      rw [hsuggested k b classes hk] at ha
      exact .inr ⟨k, b, classes, hk, (Except.ok.inj ha).symm⟩
  · rintro (⟨⟨spec, hspec, ha⟩, hused⟩ | ⟨k, b, classes, hk, rfl⟩)
    · refine ⟨spec, List.mem_append_left _ (List.mem_filter.2 ⟨hspec, ?_⟩), ha⟩
      obtain ⟨-, rfl⟩ := DependencySpec.toArtifact_eq_ok_iff.1 ha
      exact isKept_iff.2 hused
    · exact ⟨.suggested b, List.mem_append_right _ (mem_entries_iff.2 ⟨k, b, classes, hk, rfl⟩),
        hsuggested k b classes hk⟩

end Descriptor

/-! ### The projects described -/

namespace Project

variable {id : ProjectId} {outputDir : Path} {descriptor : Option Path}
  {direct direct' transitive : List Artifact} {f : Findings}

lemma mem_transitive_make {a : Artifact} :
    a ∈ (make id outputDir descriptor direct transitive).transitive ↔
      a ∈ transitive ∧ ∀ b ∈ direct, b.coordinates ≠ a.coordinates := by
  simp [make]

/-- A suggested entry counts if the artifact counts that it suggests. -/
lemma isRelevant_suggested {a : Artifact} (h : isRelevant id a = true) :
    isRelevant id ⟨a.coordinates, (DependencySpec.suggested a).scope, none⟩ = true := by
  rw [isRelevant, Bool.and_eq_true] at h ⊢
  refine ⟨?_, h.2⟩
  rw [DependencySpec.suggested]
  split
  · rfl
  · exact h.1

/-- The project that follows the advice has the dependencies that the advice leaves. -/
lemma isAdvised_make (outputDir : Path) (descriptor : Option Path) (transitive : List Artifact)
    (hfollowed : Descriptor.IsFollowedBy f direct direct')
    (hrecords : f.RecordsOnly (isRelevant id · = true)) :
    IsAdvised f (make id outputDir descriptor direct transitive).DirectAt
      (make id outputDir descriptor direct transitive).TransitiveAt
      (make id outputDir descriptor direct' transitive).DirectAt
      (make id outputDir descriptor direct' transitive).TransitiveAt := by
  constructor
  · intro k
    constructor
    · rintro ⟨a, ha, hrelevant, rfl⟩
      rcases (hfollowed a).1 ha with ⟨ha, hused⟩ | ⟨k, b, classes, hk, rfl⟩
      · exact .inl ⟨⟨a, ha, hrelevant, rfl⟩, hused⟩
      · exact .inr (hrecords.exists_records hk)
    · rintro (⟨⟨a, ha, hrelevant, rfl⟩, hused⟩ | ⟨c, b, classes, hk, -⟩)
      · exact ⟨a, (hfollowed a).2 (.inl ⟨ha, hused⟩), hrelevant, rfl⟩
      · obtain ⟨rfl, hrelevant, -⟩ := hrecords k b classes hk
        exact ⟨_, (hfollowed _).2 (.inr ⟨_, b, classes, hk, rfl⟩), isRelevant_suggested hrelevant,
          rfl⟩
  · rintro k ⟨b, hb, hrelevant, rfl⟩
    obtain ⟨hb, hnot⟩ := mem_transitive_make.1 hb
    by_cases hdirect : ∃ a ∈ direct, a.coordinates = b.coordinates
    · -- the entry was direct, so it is not only because it was unused
      obtain ⟨a, ha, hab⟩ := hdirect
      refine .inr (by_contra fun hused => ?_)
      rw [← hab] at hused
      exact hnot a ((hfollowed a).2 (.inl ⟨ha, hused⟩)) hab
    · refine .inl ⟨⟨b, mem_transitive_make.2 ⟨hb, ?_⟩, hrelevant, rfl⟩, ?_⟩
      · intro a ha hab
        exact hdirect ⟨a, ha, hab⟩
      · rintro c ⟨a, classes, hk, -⟩
        exact hnot _ ((hfollowed _).2 (.inr ⟨_, a, classes, hk, rfl⟩)) rfl

end Project

/-- In a project whose packaging has no classes nothing is found. -/
lemma analyze_of_not_carriesClasses {z : Analyzer} {p : Project}
    (h : ¬p.id.packaging.carriesClasses = true) :
    (z.analyze p).result = .ok (Findings.empty p.id) := by
  rw [Analyzer.result_analyze, classify]
  simp [h, Logged.result_map]

/-- Following the advice of an analysis of both kinds, an analysis of the same files succeeds and
finds nothing. -/
theorem analyze_following (z : Analyzer) (hchecks : z.checks = ⟨true, true⟩) (d : Descriptor)
    (path : Path) (hpaths : d.NamesNoPath) (p : Project) (hp : d.toProject path = .ok (some p))
    (f : Findings) (hf : (z.analyze p).result = .ok f) :
    ∃ p' f', (d.following f).toProject path = .ok (some p') ∧
      (z.analyze p').result = .ok f' ∧ f'.unusedList = [] ∧ f'.usedList = [] := by
  by_cases hpackaging : p.id.packaging.carriesClasses = true
  · have hunlocated := Descriptor.isUnlocated_of_toProject hpaths hp
    obtain ⟨scan, hscan, hfound, hread, hrecords⟩ :=
      Project.followsFrom_of_analyze hchecks hunlocated hpackaging hf
    have hlisted : f.RecordsOnly fun a => ∃ b ∈ p.transitive, a.coordinates = b.coordinates := by
      refine hrecords.mono fun a ha => ?_
      obtain ⟨b, hb, rfl⟩ := List.mem_map.1 (List.mem_filter.1 ha).1
      exact ⟨b, hb, Analyzer.coordinates_placed⟩
    obtain ⟨direct', transitive, hfollowed, -, hmake, hp'⟩ :=
      Descriptor.exists_toProject_following hp hlisted
    have hunlocated' := Descriptor.isUnlocated_of_toProject (hpaths.following f) hp'
    have hadvised := Project.isAdvised_make p.outputDir p.descriptor transitive hfollowed
      (hrecords.mono fun a ha => (List.mem_filter.1 ha).2)
    rw [← hmake] at hadvised
    have hread' := hadvised.isReadable hfound hread
    obtain ⟨f', hf'⟩ := Project.exists_analyze_eq_ok hchecks hunlocated' hpackaging hscan hread'
    obtain ⟨scan', hscan', hfound', -, hrecords'⟩ :=
      Project.followsFrom_of_analyze hchecks hunlocated' hpackaging hf'
    -- both analyses scan the same output directory
    obtain rfl : scan = scan' := Except.ok.inj (hscan.symm.trans hscan')
    refine ⟨_, f', hp', hf', ?_, ?_⟩
    · exact Findings.unusedList_eq_nil fun k => hadvised.not_mem_unused hfound hfound'
    · exact hrecords'.usedList_eq_nil fun k c => hadvised.not_records hfound hfound'
  · have hempty := hf
    rw [analyze_of_not_carriesClasses hpackaging] at hempty
    obtain rfl := Except.ok.inj hempty
    obtain ⟨direct', transitive, -, -, -, hp'⟩ := Descriptor.exists_toProject_following hp
      (f := Findings.empty p.id) (fun k a classes hk => by simp [Findings.empty] at hk)
    exact ⟨_, _, hp', analyze_of_not_carriesClasses hpackaging, rfl, rfl⟩

/-! ### A descriptor with advice to follow -/

/-- The analyzer of the sample files, where the library is a module of the reactor. -/
def sampleAnalyzer : Analyzer where
  files := sampleFiles
  repository := ⟨⟨"/repository"⟩⟩
  reactor := ⟨[(⟨"com.acme", "library", "1.0"⟩, ⟨"/lib"⟩)]⟩

/-- The entry for a dependency called `name`. -/
def sampleEntry (name : String) : DependencySpec :=
  ⟨"com.acme", name, "1.0", .jar, .compile, none, none⟩

/-- A project that declares a dependency that it does not use, and uses the library that comes with
it. -/
def sampleDescriptor : Descriptor where
  project := some ⟨"com.acme", "app", "1.0", .jar, some ⟨"/out"⟩⟩
  modules := []
  dependencies := [sampleEntry "missing"]
  transitive := [sampleEntry "library"]

/-- The project that the descriptor describes. -/
def describedProject : Project where
  id := ⟨"com.acme", "app", "1.0", .jar⟩
  outputDir := ⟨"/out"⟩
  descriptor := some ⟨"/app/depsweep.toml"⟩
  direct := [⟨(sampleEntry "missing").coordinates, .compile, none⟩]
  transitive := [⟨(sampleEntry "library").coordinates, .compile, none⟩]

theorem analyze_following_sampleDescriptor :
    ∃ f, (sampleAnalyzer.analyze describedProject).result = .ok f ∧
      f.unusedList.map (·.coordinates.name) = ["missing"] ∧
      f.usedList.map (·.1.coordinates.name) = ["library"] ∧
      ∃ p' f', (sampleDescriptor.following f).toProject ⟨"/app/depsweep.toml"⟩ = .ok (some p') ∧
        (sampleAnalyzer.analyze p').result = .ok f' ∧ f'.unusedList = [] ∧ f'.usedList = [] := by
  have hfound : (sampleAnalyzer.analyze describedProject).result.toOption.map (fun f =>
      (f.unusedList.map (·.coordinates.name), f.usedList.map (·.1.coordinates.name))) =
      some (["missing"], ["library"]) := by decide +kernel
  have hpaths : sampleDescriptor.NamesNoPath := by
    simp [Descriptor.NamesNoPath, sampleDescriptor, sampleEntry]
  cases hresult : (sampleAnalyzer.analyze describedProject).result with
  | error failure =>
    rw [hresult] at hfound
    cases hfound
  | ok f =>
    rw [hresult] at hfound
    obtain ⟨hunused, hused⟩ := Prod.mk.inj (Option.some.inj hfound)
    exact ⟨f, rfl, hunused, hused, analyze_following sampleAnalyzer rfl sampleDescriptor
      ⟨"/app/depsweep.toml"⟩ hpaths describedProject (by rfl) f hresult⟩

end ClasspathAudit
