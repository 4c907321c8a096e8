import ClasspathAudit.Classification
import ClasspathAudit.Proofs.ClassFile.WholeFormat
import ClasspathAudit.Proofs.Classification.Indexing
import ClasspathAudit.Proofs.Classification.Recording

/-
# The meaning of a classification

What is found in a project is told here from the classes that it uses and the classes that its
dependencies declare: a set of unused dependencies, and an owner for each class that no direct
dependency declares. The lists of dependencies may hold an artifact several times, in any order.
-/
namespace ClasspathAudit
namespace Classification

open ClassIndex (Declares IsUnreadable)

variable {fs : FileSystem} {reactor : Reactor} {checks : Checks} {id : ProjectId}
  {referenced : ClassSet} {indexes : List ClassIndex} {c c' : ClassName} {k : Coordinates}

/-! ### Direct dependencies -/

lemma usedOf_eq_empty_iff {index : ClassIndex} :
    usedOf referenced index = ∅ ↔ ∀ c ∈ referenced, c ∉ index.classes := by
  rw [usedOf, Std.ExtTreeSet.filter_eq_empty_iff]
  constructor
  · intro h c hc hindex
    have hnot := h c hindex
    rw [Std.ExtTreeSet.get_eq, Std.ExtTreeSet.mem_iff_contains.1 hc] at hnot
    cases hnot
  · intro h c hindex
    rw [Std.ExtTreeSet.get_eq, Bool.eq_false_iff, ne_eq, Std.ExtTreeSet.contains_iff_mem]
    intro hc
    exact h c hc hindex

lemma mem_unused_directFindings : k ∈ (directFindings checks id referenced indexes).unused ↔
    checks.unused = true ∧
      ∃ i ∈ indexes, i.artifact.coordinates = k ∧ ∀ c ∈ referenced, c ∉ i.classes := by
  rw [directFindings]
  by_cases h : checks.unused = true
  · rw [if_pos h, Findings.mem_unused_foldl]
    simp [unusedOf, usedOf_eq_empty_iff, h, Findings.empty, and_left_comm, and_comm]
  · simp [h, Findings.empty]

lemma usedTransitive_directFindings :
    (directFindings checks id referenced indexes).usedTransitive = ∅ := by
  rw [directFindings]
  split
  · exact Findings.usedTransitive_foldl _
  · rfl

lemma mem_undeclared :
    c ∈ undeclared referenced indexes ↔ c ∈ referenced ∧ ∀ i ∈ indexes, c ∉ i.classes := by
  simp [undeclared]

/-! ### Owners -/

lemma owner?_eq_none_iff : owner? (inOrder indexes) c = none ↔ ∀ i ∈ indexes, c ∉ i.classes := by
  simp [owner?, inOrder]

lemma pairwise_inOrder (indexes : List ClassIndex) : (inOrder indexes).Pairwise fun i j =>
    (compare i.artifact.coordinates j.artifact.coordinates).isLE := by
  refine List.pairwise_mergeSort (fun i j l hij hjl => ?_) (fun i j => ?_) indexes
  · exact Std.TransOrd.isLE_trans hij hjl
  rw [Bool.or_eq_true]
  by_cases h : (compare i.artifact.coordinates j.artifact.coordinates).isLE
  · exact .inl h
  · exact .inr (Ordering.isLE_of_eq_lt (Std.OrientedCmp.lt_of_not_isLE h))

/-- The first index in order that declares a class comes before all others that declare it. -/
lemma least_of_owner?_eq_some {a : Artifact} (h : owner? (inOrder indexes) c = some a) :
    (∃ i ∈ indexes, i.artifact = a ∧ c ∈ i.classes) ∧
      ∀ j ∈ indexes, c ∈ j.classes → (compare a.coordinates j.artifact.coordinates).isLE := by
  obtain ⟨i, hi, rfl⟩ := Option.map_eq_some_iff.1 h
  obtain ⟨hc, before, after, hsplit, hbefore⟩ := List.find?_eq_some_iff_append.1 hi
  have hsorted := pairwise_inOrder indexes
  have hmem : ∀ j, j ∈ indexes ↔ j ∈ before ++ i :: after := fun j => by
    rw [← hsplit, inOrder, List.mem_mergeSort]
  refine ⟨⟨i, (hmem i).2 (by simp), rfl, hc⟩, ?_⟩
  intro j hj hcj
  rw [hsplit, List.pairwise_append, List.pairwise_cons] at hsorted
  rcases List.mem_append.1 ((hmem j).1 hj) with hj | hj
  · have hnot := hbefore j hj
    rw [Std.ExtTreeSet.mem_iff_contains.1 hcj] at hnot
    cases hnot
  · rcases List.mem_cons.1 hj with rfl | hj
    · exact Std.ReflCmp.isLE_rfl
    · exact hsorted.2.1.1 j hj

/-- A class has an owner with these coordinates if they are the least of those that declare it. -/
lemma exists_owner?_iff : (∃ a, owner? (inOrder indexes) c = some a ∧ a.coordinates = k) ↔
    (∃ i ∈ indexes, i.artifact.coordinates = k ∧ c ∈ i.classes) ∧
      ∀ j ∈ indexes, c ∈ j.classes → (compare k j.artifact.coordinates).isLE := by
  constructor
  · rintro ⟨a, howner, rfl⟩
    obtain ⟨⟨i, hi, rfl, hc⟩, hleast⟩ := least_of_owner?_eq_some howner
    exact ⟨⟨i, hi, rfl, hc⟩, hleast⟩
  · rintro ⟨⟨i, hi, rfl, hc⟩, hleast⟩
    cases howner : owner? (inOrder indexes) c with
    | none => exact absurd hc (owner?_eq_none_iff.1 howner i hi)
    | some a =>
      obtain ⟨⟨j, hj, rfl, hcj⟩, hleast'⟩ := least_of_owner?_eq_some howner
      have heq := Std.OrientedCmp.isLE_antisymm (hleast' i hi hc) (hleast j hj hcj)
      exact ⟨_, rfl, Std.LawfulEqOrd.eq_of_compare heq⟩

variable {f : Findings}

lemma records_recordOwner : (recordOwner indexes f c).Records k c' ↔
    c = c' ∧ (∃ a, owner? indexes c = some a ∧ a.coordinates = k) ∨ f.Records k c' := by
  rw [recordOwner]
  cases h : owner? indexes c with
  | none => simp
  | some a =>
    rw [Findings.records_recordUse]
    simp [and_comm]

lemma records_foldl (classes : List ClassName) :
    (classes.foldl (recordOwner indexes) f).Records k c ↔
      c ∈ classes ∧ (∃ a, owner? indexes c = some a ∧ a.coordinates = k) ∨ f.Records k c := by
  induction classes generalizing f with
  | nil => simp
  | cons c' classes ih =>
    rw [List.foldl_cons, ih, records_recordOwner, List.mem_cons]
    constructor
    · rintro (⟨hc, howner⟩ | ⟨rfl, howner⟩ | hf)
      · exact .inl ⟨.inr hc, howner⟩
      · exact .inl ⟨.inl rfl, howner⟩
      · exact .inr hf
    · rintro (⟨rfl | hc, howner⟩ | hf)
      · exact .inr (.inl ⟨rfl, howner⟩)
      · exact .inl ⟨hc, howner⟩
      · exact .inr (.inr hf)

lemma recordsOnly_foldl {P : Artifact → Prop} (hP : ∀ c a, owner? indexes c = some a → P a)
    (classes : List ClassName) (hf : f.RecordsOnly P) :
    (classes.foldl (recordOwner indexes) f).RecordsOnly P := by
  induction classes generalizing f with
  | nil => exact hf
  | cons c classes ih =>
    refine ih ?_
    rw [recordOwner]
    cases h : owner? indexes c with
    | none => exact hf
    | some a => exact hf.recordUse (hP c a h)

lemma unused_withTransitive (classes : ClassSet) :
    (withTransitive f classes indexes).unused = f.unused := by
  rw [withTransitive]
  induction classes.toList generalizing f with
  | nil => rfl
  | cons c classes ih =>
    rw [List.foldl_cons, ih, recordOwner]
    split <;> rfl

/-! ### Findings -/

/-- Whether the findings in a project say which of the `direct` dependencies are unused, and lay
each class that only `transitive` ones declare to the least of them. -/
structure IsExact (fs : FileSystem) (reactor : Reactor) (checks : Checks)
    (direct transitive : List Artifact) (referenced : ClassSet) (f : Findings) : Prop where
  unused : ∀ k, k ∈ f.unused ↔ checks.unused = true ∧
    ∃ d ∈ direct, d.coordinates = k ∧ ∀ c ∈ referenced, ¬Declares fs reactor d c
  recorded : ∀ k c, f.Records k c ↔ checks.transitive = true ∧ c ∈ referenced ∧
    (∀ d ∈ direct, ¬Declares fs reactor d c) ∧
    (∃ t ∈ transitive, t.coordinates = k ∧ Declares fs reactor t c) ∧
    ∀ t ∈ transitive, Declares fs reactor t c → (compare k t.coordinates).isLE
  once : ∀ k k' c, f.Records k c → f.Records k' c → k = k'
  artifacts : f.RecordsOnly (· ∈ transitive)

/-- Whether classification has to fail: the scan fails, or an index that is needed does. Transitive
dependencies are indexed only if there is a class to look for. -/
def MustFail (fs : FileSystem) (reactor : Reactor) (checks : Checks) (outputDir : Path)
    (direct transitive : List Artifact) : Prop :=
  (∃ failure, DirectoryScan.ofDirectory fs outputDir = .error failure) ∨
  (∃ d ∈ direct, IsUnreadable fs reactor d) ∨
  checks.transitive = true ∧
    (∃ scan, DirectoryScan.ofDirectory fs outputDir = .ok scan ∧
      ∃ c ∈ scan.referenced, ∀ d ∈ direct, ¬Declares fs reactor d c) ∧
    ∃ t ∈ transitive, IsUnreadable fs reactor t

variable {direct transitive : List Artifact} {directIndexes transitiveIndexes : List ClassIndex}

lemma mem_unused_iff_of_ofArtifacts
    (hdirect : ClassIndex.ofArtifacts fs reactor direct = .ok directIndexes) :
    k ∈ (directFindings checks id referenced directIndexes).unused ↔ checks.unused = true ∧
      ∃ d ∈ direct, d.coordinates = k ∧ ∀ c ∈ referenced, ¬Declares fs reactor d c := by
  rw [mem_unused_directFindings]
  have hindexes := ClassIndex.exists_mem_ofArtifacts hdirect fun a declares =>
    a.coordinates = k ∧ ∀ c ∈ referenced, ¬declares c
  exact and_congr_right fun _ => hindexes

lemma mem_undeclared_iff_of_ofArtifacts
    (hdirect : ClassIndex.ofArtifacts fs reactor direct = .ok directIndexes) :
    c ∈ undeclared referenced directIndexes ↔
      c ∈ referenced ∧ ∀ d ∈ direct, ¬Declares fs reactor d c := by
  rw [mem_undeclared]
  have hindexes := ClassIndex.forall_mem_ofArtifacts hdirect fun _ declares => ¬declares c
  exact and_congr_right fun _ => hindexes

/-- If no class is left to look for, the findings on direct dependencies are all that there is. -/
lemma isExact_directFindings
    (hdirect : ClassIndex.ofArtifacts fs reactor direct = .ok directIndexes)
    (hnone : checks.transitive = true → undeclared referenced directIndexes = ∅) :
    IsExact fs reactor checks direct transitive referenced
      (directFindings checks id referenced directIndexes) := by
  have hempty : (directFindings checks id referenced directIndexes).usedTransitive = ∅ :=
    usedTransitive_directFindings
  have hrecords : ∀ k c, ¬(directFindings checks id referenced directIndexes).Records k c := by
    rintro k c ⟨a, classes, hk, -⟩
    rw [hempty] at hk
    simp at hk
  refine ⟨fun k => mem_unused_iff_of_ofArtifacts hdirect, fun k c => ?_, ?_, ?_⟩
  · constructor
    · exact fun h => absurd h (hrecords k c)
    · rintro ⟨hcheck, hc, hundeclared, -⟩
      have hmem := (mem_undeclared_iff_of_ofArtifacts hdirect).2 ⟨hc, hundeclared⟩
      rw [hnone hcheck] at hmem
      simp at hmem
  · exact fun k k' c h => absurd h (hrecords k c)
  · intro k a classes hk
    rw [hempty] at hk
    simp at hk

lemma isExact_withTransitive (hcheck : checks.transitive = true)
    (hdirect : ClassIndex.ofArtifacts fs reactor direct = .ok directIndexes)
    (htransitive : ClassIndex.ofArtifacts fs reactor transitive = .ok transitiveIndexes) :
    IsExact fs reactor checks direct transitive referenced
      (withTransitive (directFindings checks id referenced directIndexes)
        (undeclared referenced directIndexes) (inOrder transitiveIndexes)) := by
  have hstart : (directFindings checks id referenced directIndexes).usedTransitive = ∅ :=
    usedTransitive_directFindings
  have hrecords : ∀ k c, (withTransitive (directFindings checks id referenced directIndexes)
      (undeclared referenced directIndexes) (inOrder transitiveIndexes)).Records k c ↔
      c ∈ undeclared referenced directIndexes ∧
        ∃ a, owner? (inOrder transitiveIndexes) c = some a ∧ a.coordinates = k := by
    intro k c
    rw [withTransitive, records_foldl, Std.ExtTreeSet.mem_toList]
    simp [Findings.Records, hstart]
  refine ⟨fun k => ?_, fun k c => ?_, ?_, ?_⟩
  · rw [unused_withTransitive]
    exact mem_unused_iff_of_ofArtifacts hdirect
  · have hsome := ClassIndex.exists_mem_ofArtifacts htransitive fun a declares =>
      a.coordinates = k ∧ declares c
    have hall := ClassIndex.forall_mem_ofArtifacts htransitive fun a declares =>
      declares c → (compare k a.coordinates).isLE
    rw [hrecords, mem_undeclared_iff_of_ofArtifacts hdirect, exists_owner?_iff, hsome, hall,
      and_assoc]
    simp [hcheck]
  · intro k k' c h h'
    obtain ⟨-, a, ha, rfl⟩ := (hrecords k c).1 h
    obtain ⟨-, a', ha', rfl⟩ := (hrecords k' c).1 h'
    rw [Option.some.inj (ha.symm.trans ha')]
  · refine recordsOnly_foldl (fun c a howner => ?_) _ ?_
    · obtain ⟨⟨i, hi, rfl, -⟩, -⟩ := least_of_owner?_eq_some howner
      obtain ⟨t, ht, hti⟩ := (mem_of_mapM_eq_ok htransitive i).1 hi
      rwa [ClassIndex.artifact_of_ofArtifact hti]
    · intro k a classes hk
      rw [hstart] at hk
      simp at hk

/-! ### Runs -/

variable {project : Project}

/-- What classification comes to, notes apart. -/
lemma result_classify (hpackaging : project.id.packaging.carriesClasses = true) :
    (classify fs reactor checks project direct transitive).result = (do
      let scan ← DirectoryScan.ofDirectory fs project.outputDir
      let directIndexes ← ClassIndex.ofArtifacts fs reactor
        (direct.filter (isRelevant project.id))
      let findings := directFindings checks project.id scan.referenced directIndexes
      let rest := undeclared scan.referenced directIndexes
      if rest.isEmpty || !checks.transitive then
        return findings
      else
        let transitiveIndexes ← ClassIndex.ofArtifacts fs reactor
          (transitive.filter (isRelevant project.id))
        return withTransitive findings rest (inOrder transitiveIndexes)) := by
  simp only [classify, hpackaging, Bool.not_true, Bool.false_eq_true, if_false, indexRelevant,
    Logged.result_bind, Logged.result_write, Logged.result_ofExcept, Logged.result_pure,
    apply_ite Logged.result]
  rfl

lemma isExact_of_classify (hpackaging : project.id.packaging.carriesClasses = true)
    (h : (classify fs reactor checks project direct transitive).result = .ok f) :
    ∃ scan, DirectoryScan.ofDirectory fs project.outputDir = .ok scan ∧
      IsExact fs reactor checks (direct.filter (isRelevant project.id))
        (transitive.filter (isRelevant project.id)) scan.referenced f := by
  rw [result_classify hpackaging] at h
  cases hscan : DirectoryScan.ofDirectory fs project.outputDir with
  | error e =>
    rw [hscan] at h
    cases h
  | ok scan =>
    refine ⟨scan, rfl, ?_⟩
    cases hdirect : ClassIndex.ofArtifacts fs reactor (direct.filter (isRelevant project.id)) with
    | error e =>
      rw [hscan, hdirect] at h
      cases h
    | ok directIndexes =>
      simp only [hscan, hdirect, bind, Except.bind] at h
      split at h
      · rename_i hnone
        -- nothing is left to look for, or nobody asked for it
        obtain rfl := Except.ok.inj h
        refine isExact_directFindings hdirect fun hcheck => ?_
        simpa [hcheck] using hnone
      · rename_i hsome
        have hcheck : checks.transitive = true := by
          simp only [Bool.or_eq_true, Bool.not_eq_true', not_or, Bool.not_eq_false] at hsome
          exact hsome.2
        cases htransitive : ClassIndex.ofArtifacts fs reactor
            (transitive.filter (isRelevant project.id)) with
        | error e =>
          rw [htransitive] at h
          cases h
        | ok transitiveIndexes =>
          rw [htransitive] at h
          obtain rfl := Except.ok.inj h
          exact isExact_withTransitive hcheck hdirect htransitive

lemma classify_eq_error_iff (hpackaging : project.id.packaging.carriesClasses = true) :
    (∃ failure, (classify fs reactor checks project direct transitive).result = .error failure) ↔
      MustFail fs reactor checks project.outputDir (direct.filter (isRelevant project.id))
        (transitive.filter (isRelevant project.id)) := by
  rw [result_classify hpackaging, MustFail, ← ClassIndex.ofArtifacts_eq_error_iff,
    ← ClassIndex.ofArtifacts_eq_error_iff]
  cases hscan : DirectoryScan.ofDirectory fs project.outputDir with
  | error e => exact ⟨fun _ => .inl ⟨e, rfl⟩, fun _ => ⟨e, rfl⟩⟩
  | ok scan =>
    cases hdirect : ClassIndex.ofArtifacts fs reactor (direct.filter (isRelevant project.id)) with
    | error e => exact ⟨fun _ => .inr (.inl ⟨e, rfl⟩), fun _ => ⟨e, rfl⟩⟩
    | ok directIndexes =>
      -- only the transitive dependencies can still fail, if they are looked at
      have hrest : undeclared scan.referenced directIndexes ≠ ∅ ↔ ∃ c ∈ scan.referenced,
          ∀ d ∈ direct.filter (isRelevant project.id), ¬Declares fs reactor d c := by
        simp only [ne_eq, Std.ExtTreeSet.eq_empty_iff_forall_not_mem, not_forall, not_not,
          mem_undeclared_iff_of_ofArtifacts hdirect]
      have hscanned : ∀ P : DirectoryScan → Prop,
          (∃ s, (Except.ok scan : Except Failure DirectoryScan) = .ok s ∧ P s) ↔ P scan := by
        simp
      rw [hscanned, ← hrest]
      simp only [bind, Except.bind, reduceCtorEq, exists_false, false_or]
      split
      · rename_i hnone
        constructor
        · rintro ⟨e, he⟩
          cases he
        · rintro ⟨hcheck, hne, -⟩
          simp [hcheck, hne] at hnone
      · rename_i hsome
        have hneeded : checks.transitive = true ∧ undeclared scan.referenced directIndexes ≠ ∅ := by
          simpa [and_comm] using hsome
        cases ClassIndex.ofArtifacts fs reactor (transitive.filter (isRelevant project.id)) with
        | error e => exact ⟨fun _ => ⟨hneeded.1, hneeded.2, e, rfl⟩, fun _ => ⟨e, rfl⟩⟩
        | ok transitiveIndexes =>
          constructor
          · rintro ⟨e, he⟩
            cases he
          · rintro ⟨-, -, e, he⟩
            cases he

end Classification

open Classification in
/-- What classification comes to in a project whose packaging has classes: it fails if and only if
something that it needs cannot be read, and else its findings are exact. -/
theorem classify_exact (fs : FileSystem) (reactor : Reactor) (checks : Checks) (project : Project)
    (direct transitive : List Artifact) (hpackaging : project.id.packaging.carriesClasses = true) :
    (∀ f, (classify fs reactor checks project direct transitive).result = .ok f →
      ∃ scan, DirectoryScan.ofDirectory fs project.outputDir = .ok scan ∧
        IsExact fs reactor checks (direct.filter (isRelevant project.id))
          (transitive.filter (isRelevant project.id)) scan.referenced f) ∧
    ((∃ failure, (classify fs reactor checks project direct transitive).result = .error failure) ↔
      MustFail fs reactor checks project.outputDir (direct.filter (isRelevant project.id))
        (transitive.filter (isRelevant project.id))) :=
  ⟨fun _ => isExact_of_classify hpackaging, classify_eq_error_iff hpackaging⟩

/-! ### A project with a dependency of each kind -/

/-- The class `p.A` in the directory `out`, and its superclass `q.B` in the directory `lib`. -/
def sampleFiles : FileSystem where
  entries := .ofList
    [(["out"], Entry.directory),
      (["out", "A.class"],
        Entry.file (ClassFile.CompiledClass.extending "p/A" "q/B").encode.toArray),
      (["lib"], Entry.directory),
      (["lib", "B.class"],
        Entry.file (ClassFile.CompiledClass.extending "q/B" "java/lang/Object").encode.toArray)]
  workingDir := []

/-- A project whose classes are in the directory `out`. -/
def sampleProject : Project where
  id := ⟨"com.acme", "app", "1.0", .jar⟩
  outputDir := ⟨"/out"⟩
  descriptor := none
  direct := []
  transitive := []

/-- A dependency that is nowhere to be found. -/
def missingDependency : Artifact :=
  ⟨⟨"com.acme", "missing", "1.0", .jar, none⟩, .compile, none⟩

/-- A dependency whose classes are in the directory `lib`. -/
def libraryDependency : Artifact :=
  ⟨⟨"com.acme", "library", "1.0", .jar, none⟩, .compile, some ⟨"/lib"⟩⟩

open Classification in
theorem classify_exact_sampleProject :
    sampleProject.id.packaging.carriesClasses = true ∧
    ∃ f, (classify sampleFiles .empty {} sampleProject [missingDependency]
        [libraryDependency]).result = .ok f ∧
      f.unusedList = [missingDependency] ∧ f.usedList = [(libraryDependency, [⟨"q.B"⟩])] ∧
      ∃ scan, DirectoryScan.ofDirectory sampleFiles ⟨"/out"⟩ = .ok scan ∧
        IsExact sampleFiles .empty {} [missingDependency] [libraryDependency] scan.referenced
          f := by
  have hpackaging : sampleProject.id.packaging.carriesClasses = true := rfl
  have hfound : (classify sampleFiles .empty {} sampleProject [missingDependency]
      [libraryDependency]).result.toOption.map (fun f => (f.unusedList, f.usedList)) =
      some ([missingDependency], [(libraryDependency, [⟨"q.B"⟩])]) := by decide +kernel
  cases hresult : (classify sampleFiles .empty {} sampleProject [missingDependency]
      [libraryDependency]).result with
  | error failure =>
    rw [hresult] at hfound
    cases hfound
  | ok f =>
    rw [hresult] at hfound
    obtain ⟨hunused, hused⟩ := Prod.mk.inj (Option.some.inj hfound)
    exact ⟨hpackaging, f, rfl, hunused, hused,
      (classify_exact sampleFiles .empty {} sampleProject [missingDependency]
        [libraryDependency] hpackaging).1 f hresult⟩

end ClasspathAudit
