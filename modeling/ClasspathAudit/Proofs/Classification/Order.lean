import Mathlib.Data.List.Nodup
import ClasspathAudit.Proofs.Classification.Meaning

/-
# The order of dependencies

Findings are told by the members of the two lists of dependencies alone. So they are the same in
whatever order the dependencies come, artifacts being compared by their coordinates; and where no
two artifacts of a list share their coordinates, they hold the very same artifacts.

The main result is `classify_perm`. Neither order nor repetitions count in what leads to it, so
lists with the same members are compared there.
-/
namespace ClasspathAudit

/-! ### Findings with the same coordinates -/

namespace Findings

variable {f g : Findings} {a : Artifact} {k : Coordinates} {c : ClassName}

/-- Whether two findings are the same as far as coordinates and classes go. -/
structure Agree (f g : Findings) : Prop where
  project : f.project = g.project
  unused : ∀ k, k ∈ f.unused ↔ k ∈ g.unused
  usedTransitive : ∀ k : Coordinates,
    f.usedTransitive[k]?.map Prod.snd = g.usedTransitive[k]?.map Prod.snd

/-- Whether each artifact that is marked stands under its own coordinates and is one that `P` holds
of. -/
def MarksOnly (P : Artifact → Prop) (f : Findings) : Prop :=
  ∀ k a, f.unused[k]? = some a → a.coordinates = k ∧ P a

lemma MarksOnly.markUnused {P : Artifact → Prop} (h : f.MarksOnly P) (ha : P a) :
    (f.markUnused a).MarksOnly P := by
  intro k b hb
  rw [Findings.markUnused, ArtifactSet.insert, Std.ExtTreeMap.getElem?_insertIfNew] at hb
  split at hb
  · rename_i hnew
    obtain rfl := Option.some.inj hb
    exact ⟨Std.LawfulEqOrd.eq_of_compare hnew.1, ha⟩
  · exact h k b hb

lemma MarksOnly.foldl {P : Artifact → Prop} {artifacts : List Artifact} (h : f.MarksOnly P)
    (hartifacts : ∀ a ∈ artifacts, P a) : (artifacts.foldl Findings.markUnused f).MarksOnly P := by
  induction artifacts generalizing f with
  | nil => exact h
  | cons a artifacts ih =>
    rw [List.forall_mem_cons] at hartifacts
    exact ih (h.markUnused hartifacts.1) hartifacts.2

lemma records_iff {classes : ClassSet} (hk : f.usedTransitive[k]? = some (a, classes)) :
    f.Records k c ↔ c ∈ classes := by
  simp [Records, hk]

/-- Classes recorded under the same coordinates are the same sets, because no set is empty. -/
lemma usedTransitive_agree {P Q : Artifact → Prop} (hf : f.RecordsOnly P) (hg : g.RecordsOnly Q)
    (h : ∀ k c, f.Records k c ↔ g.Records k c) (k : Coordinates) :
    f.usedTransitive[k]?.map Prod.snd = g.usedTransitive[k]?.map Prod.snd := by
  have hsome : ∀ {f g : Findings} {P : Artifact → Prop}, f.RecordsOnly P →
      (∀ k c, f.Records k c ↔ g.Records k c) → g.usedTransitive[k]? = none →
      f.usedTransitive[k]? = none := by
    intro f g P hf h hg
    cases hfk : f.usedTransitive[k]? with
    | none => rfl
    | some found =>
      obtain ⟨c, hc⟩ := hf.exists_records hfk
      obtain ⟨a, classes, hgk, -⟩ := (h k c).1 hc
      rw [hg] at hgk
      cases hgk
  cases hgk : g.usedTransitive[k]? with
  | none => rw [hsome hf h hgk]
  | some found' =>
    cases hfk : f.usedTransitive[k]? with
    | none =>
      rw [hsome hg (fun k c => (h k c).symm) hfk] at hgk
      cases hgk
    | some found =>
      have hclasses : found.2 = found'.2 := Std.ExtTreeSet.ext_mem fun c => by
        rw [← records_iff hfk, h k c, records_iff hgk]
      simp [hclasses]

/-- Findings that agree are equal if coordinates tell apart the artifacts that they may hold. -/
lemma Agree.eq {P P' Q Q' : Artifact → Prop} (h : f.Agree g) (hf : f.MarksOnly P)
    (hg : g.MarksOnly P') (hf' : f.RecordsOnly Q) (hg' : g.RecordsOnly Q')
    (hP : ∀ a b, P a → P' b → a.coordinates = b.coordinates → a = b)
    (hQ : ∀ a b, Q a → Q' b → a.coordinates = b.coordinates → a = b) : f = g := by
  have hunused : f.unused = g.unused := by
    refine Std.ExtTreeMap.ext_getElem? fun k => ?_
    have hmem := h.unused k
    rw [Std.ExtTreeMap.mem_iff_isSome_getElem?, Std.ExtTreeMap.mem_iff_isSome_getElem?] at hmem
    cases hfk : f.unused[k]? with
    | none => cases hgk : g.unused[k]? <;> simp_all
    | some a =>
      cases hgk : g.unused[k]? with
      | none => simp [hfk, hgk] at hmem
      | some b =>
        obtain ⟨ha, hPa⟩ := hf k a hfk
        obtain ⟨hb, hPb⟩ := hg k b hgk
        rw [hP a b hPa hPb (ha.trans hb.symm)]
  have hused : f.usedTransitive = g.usedTransitive := by
    refine Std.ExtTreeMap.ext_getElem? fun k => ?_
    have hclasses := h.usedTransitive k
    cases hfk : f.usedTransitive[k]? with
    | none => cases hgk : g.usedTransitive[k]? <;> simp_all
    | some found =>
      cases hgk : g.usedTransitive[k]? with
      | none => simp [hfk, hgk] at hclasses
      | some found' =>
        obtain ⟨ha, hQa, -⟩ := hf' k found.1 found.2 hfk
        obtain ⟨hb, hQb, -⟩ := hg' k found'.1 found'.2 hgk
        have hartifact := hQ _ _ hQa hQb (ha.trans hb.symm)
        simp only [hfk, hgk, Option.map_some, Option.some.injEq] at hclasses
        rw [Prod.ext hartifact hclasses]
  cases f
  cases g
  rw [Findings.mk.injEq]
  exact ⟨h.project, hunused, hused⟩

end Findings

/-! ### Lists with the same members -/

namespace Classification

variable {fs : FileSystem} {reactor : Reactor} {checks : Checks} {project : Project}
  {direct direct' transitive transitive' : List Artifact} {referenced : ClassSet} {f g : Findings}

lemma IsExact.agree (hf : IsExact fs reactor checks direct transitive referenced f)
    (hg : IsExact fs reactor checks direct' transitive' referenced g)
    (hproject : f.project = g.project) (hdirect : ∀ a, a ∈ direct ↔ a ∈ direct')
    (htransitive : ∀ a, a ∈ transitive ↔ a ∈ transitive') : f.Agree g where
  project := hproject
  unused k := by
    rw [hf.unused, hg.unused]
    simp only [hdirect]
  usedTransitive := by
    refine Findings.usedTransitive_agree hf.artifacts hg.artifacts fun k c => ?_
    rw [hf.recorded, hg.recorded]
    simp only [hdirect, htransitive]

lemma mustFail_congr {outputDir : Path} (hdirect : ∀ a, a ∈ direct ↔ a ∈ direct')
    (htransitive : ∀ a, a ∈ transitive ↔ a ∈ transitive') :
    MustFail fs reactor checks outputDir direct transitive ↔
      MustFail fs reactor checks outputDir direct' transitive' := by
  simp only [MustFail, hdirect, htransitive]

/-! ### Artifacts that are marked -/

lemma marksOnly_directFindings (checks : Checks) (id : ProjectId) (referenced : ClassSet)
    {indexes : List ClassIndex}
    (h : ClassIndex.ofArtifacts fs reactor direct = .ok indexes) :
    (directFindings checks id referenced indexes).MarksOnly (· ∈ direct) := by
  have hempty : (Findings.empty id).MarksOnly (· ∈ direct) := by
    intro k a hk
    simp [Findings.empty] at hk
  rw [directFindings]
  split
  · refine hempty.foldl fun a ha => ?_
    obtain ⟨i, hi, rfl⟩ := List.mem_map.1 ha
    obtain ⟨d, hd, hdi⟩ := (mem_of_mapM_eq_ok h i).1 (List.mem_filter.1 hi).1
    rwa [ClassIndex.artifact_of_ofArtifact hdi]
  · exact hempty

lemma project_directFindings {id : ProjectId} {indexes : List ClassIndex} :
    (directFindings checks id referenced indexes).project = id := by
  have hfoldl : ∀ (artifacts : List Artifact) (f : Findings),
      (artifacts.foldl Findings.markUnused f).project = f.project := by
    intro artifacts
    induction artifacts with
    | nil => exact fun _ => rfl
    | cons a artifacts ih => exact fun f => ih _
  rw [directFindings]
  split
  · exact hfoldl _ _
  · rfl

lemma project_withTransitive {classes : ClassSet} {indexes : List ClassIndex} :
    (withTransitive f classes indexes).project = f.project := by
  rw [withTransitive]
  induction classes.toList generalizing f with
  | nil => rfl
  | cons c classes ih =>
    rw [List.foldl_cons, ih, recordOwner]
    split <;> rfl

/-- The transitive dependencies add nothing to what is marked. -/
lemma marksOnly_of_classify (hpackaging : project.id.packaging.carriesClasses = true)
    (h : (classify fs reactor checks project direct transitive).result = .ok f) :
    f.project = project.id ∧ f.MarksOnly (· ∈ direct) := by
  rw [result_classify hpackaging] at h
  obtain ⟨scan, -, h⟩ := exists_of_bind_eq_ok h
  obtain ⟨indexes, hindexes, h⟩ := exists_of_bind_eq_ok h
  have hproject : (directFindings checks project.id scan.referenced indexes).project = project.id :=
    project_directFindings
  have hmarks : (directFindings checks project.id scan.referenced indexes).MarksOnly (· ∈ direct) :=
    fun k a hk => (marksOnly_directFindings _ _ _ hindexes k a hk).imp_right List.mem_of_mem_filter
  dsimp only at h
  split at h
  · obtain rfl := Except.ok.inj h
    exact ⟨hproject, hmarks⟩
  · obtain ⟨transitiveIndexes, -, h⟩ := exists_of_bind_eq_ok h
    obtain rfl := Except.ok.inj h
    refine ⟨project_withTransitive.trans hproject, fun k a hk => hmarks k a ?_⟩
    rwa [unused_withTransitive] at hk

/-! ### Runs -/

lemma result_classify_of_not_carriesClasses
    (hpackaging : project.id.packaging.carriesClasses = false) :
    (classify fs reactor checks project direct transitive).result =
      .ok (Findings.empty project.id) := by
  simp only [classify, hpackaging, Bool.not_false, if_true, Logged.result_bind,
    Logged.result_write, Logged.result_pure]
  rfl

lemma classify_eq_ok_iff (hpackaging : project.id.packaging.carriesClasses = true) :
    (∃ f, (classify fs reactor checks project direct transitive).result = .ok f) ↔
      ¬MustFail fs reactor checks project.outputDir (direct.filter (isRelevant project.id))
        (transitive.filter (isRelevant project.id)) := by
  rw [← classify_eq_error_iff hpackaging]
  cases (classify fs reactor checks project direct transitive).result <;> simp

section Permutations

variable (hdirect : direct.Perm direct') (htransitive : transitive.Perm transitive')
  (hpackaging : project.id.packaging.carriesClasses = true)
  (hf : (classify fs reactor checks project direct transitive).result = .ok f)
  (hg : (classify fs reactor checks project direct' transitive').result = .ok g)

include hdirect htransitive hpackaging hf hg

lemma agree_of_classify : f.Agree g := by
  obtain ⟨scan, hscan, hexact⟩ := isExact_of_classify hpackaging hf
  obtain ⟨scan', hscan', hexact'⟩ := isExact_of_classify hpackaging hg
  obtain rfl : scan = scan' := Except.ok.inj (hscan.symm.trans hscan')
  have hproject : f.project = g.project :=
    (marksOnly_of_classify hpackaging hf).1.trans (marksOnly_of_classify hpackaging hg).1.symm
  exact hexact.agree hexact' hproject (fun _ => (hdirect.filter _).mem_iff)
    fun _ => (htransitive.filter _).mem_iff

lemma eq_of_classify (hdistinct : (direct.map (·.coordinates)).Nodup)
    (hdistinct' : (transitive.map (·.coordinates)).Nodup) : f = g := by
  obtain ⟨_, -, hexact⟩ := isExact_of_classify hpackaging hf
  obtain ⟨_, -, hexact'⟩ := isExact_of_classify hpackaging hg
  refine (agree_of_classify hdirect htransitive hpackaging hf hg).eq
    (marksOnly_of_classify hpackaging hf).2 (marksOnly_of_classify hpackaging hg).2
    hexact.artifacts hexact'.artifacts (fun a b ha hb heq => ?_) fun a b ha hb heq => ?_
  · exact List.inj_on_of_nodup_map hdistinct ha (hdirect.mem_iff.2 hb) heq
  · exact List.inj_on_of_nodup_map hdistinct' (List.mem_of_mem_filter ha)
      (htransitive.mem_iff.2 (List.mem_of_mem_filter hb)) heq

end Permutations

end Classification

open Classification in
/-- The order of dependencies makes no difference to whether classification succeeds, nor to what is
found, artifacts being compared by their coordinates. Where coordinates are distinct in each of the
lists, the artifacts found are the same in all else as well. -/
theorem classify_perm (fs : FileSystem) (reactor : Reactor) (checks : Checks) (project : Project)
    {direct direct' transitive transitive' : List Artifact} (hdirect : direct.Perm direct')
    (htransitive : transitive.Perm transitive') :
    ((∃ f, (classify fs reactor checks project direct transitive).result = .ok f) ↔
      ∃ g, (classify fs reactor checks project direct' transitive').result = .ok g) ∧
    ∀ f g, (classify fs reactor checks project direct transitive).result = .ok f →
      (classify fs reactor checks project direct' transitive').result = .ok g →
      f.Agree g ∧ ((direct.map (·.coordinates)).Nodup → (transitive.map (·.coordinates)).Nodup →
        f = g) := by
  cases hpackaging : project.id.packaging.carriesClasses with
  | false =>
    -- nothing is looked at, so nothing is found
    simp only [result_classify_of_not_carriesClasses hpackaging]
    refine ⟨trivial, fun f g hf hg => ?_⟩
    obtain rfl : f = g := Except.ok.inj (hf.symm.trans hg)
    exact ⟨⟨rfl, fun _ => Iff.rfl, fun _ => rfl⟩, fun _ _ => rfl⟩
  | true =>
    refine ⟨?_, fun f g hf hg => ⟨agree_of_classify hdirect htransitive hpackaging hf hg,
      eq_of_classify hdirect htransitive hpackaging hf hg⟩⟩
    rw [classify_eq_ok_iff hpackaging, classify_eq_ok_iff hpackaging,
      mustFail_congr (fun _ => (hdirect.filter _).mem_iff) fun _ => (htransitive.filter _).mem_iff]

/-! ### Two archives of one class -/

/-- Another dependency whose classes are in the directory `lib`. -/
def libraryCopy : Artifact :=
  ⟨⟨"com.acme", "copy", "1.0", .jar, none⟩, .provided, some ⟨"/lib"⟩⟩

lemma declares_libraryCopy : ClassIndex.Declares sampleFiles .empty libraryCopy ⟨"q.B"⟩ := by
  have hindex : (ClassIndex.ofArtifact sampleFiles .empty libraryCopy).toOption.any
      (·.classes.contains ⟨"q.B"⟩) = true := by decide +kernel
  cases h : ClassIndex.ofArtifact sampleFiles .empty libraryCopy with
  | error failure =>
    rw [h] at hindex
    cases hindex
  | ok index =>
    rw [h] at hindex
    exact ⟨index, h, Std.ExtTreeSet.mem_iff_contains.2 hindex⟩

/-- The class is laid to the copy, whose coordinates come first. -/
lemma records_libraryCopy {scan : DirectoryScan} {f : Findings}
    (hscan : DirectoryScan.ofDirectory sampleFiles ⟨"/out"⟩ = .ok scan)
    (hexact : Classification.IsExact sampleFiles .empty {} [missingDependency]
      [libraryDependency, libraryCopy] scan.referenced f) :
    f.Records libraryCopy.coordinates ⟨"q.B"⟩ := by
  have hreferenced : (DirectoryScan.ofDirectory sampleFiles ⟨"/out"⟩).toOption.any
      (·.referenced.contains ⟨"q.B"⟩) = true := by decide +kernel
  rw [hscan] at hreferenced
  have hmissing : (ClassIndex.ofArtifact sampleFiles .empty missingDependency).toOption.any
      (·.classes.contains ⟨"q.B"⟩) = false := by decide +kernel
  have hleast : ∀ t ∈ [libraryDependency, libraryCopy],
      (compare libraryCopy.coordinates t.coordinates).isLE := by decide
  refine (hexact.recorded _ _).2 ⟨rfl, Std.ExtTreeSet.mem_iff_contains.2 hreferenced, ?_,
    ⟨libraryCopy, by simp, rfl, declares_libraryCopy⟩, fun t ht _ => hleast t ht⟩
  rintro d hd ⟨index, hindex, hmem⟩
  rw [List.mem_singleton.1 hd] at hindex
  rw [hindex] at hmissing
  cases hmissing.symm.trans (Std.ExtTreeSet.mem_iff_contains.1 hmem)

theorem classify_perm_sampleProject :
    [missingDependency].Perm [missingDependency] ∧
    [libraryDependency, libraryCopy].Perm [libraryCopy, libraryDependency] ∧
    ∃ f, (classify sampleFiles .empty {} sampleProject [missingDependency]
        [libraryDependency, libraryCopy]).result = .ok f ∧
      (classify sampleFiles .empty {} sampleProject [missingDependency]
        [libraryCopy, libraryDependency]).result = .ok f ∧
      f.Records libraryCopy.coordinates ⟨"q.B"⟩ := by
  have hdirect : [missingDependency].Perm [missingDependency] := .refl _
  have htransitive : [libraryDependency, libraryCopy].Perm [libraryCopy, libraryDependency] :=
    .swap _ _ _
  obtain ⟨hok, heq⟩ := classify_perm sampleFiles .empty {} sampleProject hdirect htransitive
  have hfound : (classify sampleFiles .empty {} sampleProject [missingDependency]
      [libraryDependency, libraryCopy]).result.toOption.isSome = true := by decide +kernel
  cases hf : (classify sampleFiles .empty {} sampleProject [missingDependency]
      [libraryDependency, libraryCopy]).result with
  | error failure =>
    rw [hf] at hfound
    cases hfound
  | ok f =>
    obtain ⟨g, hg⟩ := hok.1 ⟨f, hf⟩
    obtain rfl : f = g := (heq f g hf hg).2 (by decide) (by decide)
    obtain ⟨scan, hscan, hexact⟩ := Classification.isExact_of_classify rfl hf
    exact ⟨hdirect, htransitive, f, rfl, hg, records_libraryCopy hscan hexact⟩

end ClasspathAudit
