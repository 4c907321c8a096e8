import ClasspathAudit.Proofs.Artifact.Labels
import ClasspathAudit.Proofs.Descriptor.Entries

/-
# What a descriptor is checked for

A descriptor with a project is refused for its first field that is blank, and otherwise gives a
project. All that is later relied on is checked here: the drafts of artifacts lack nothing, and
every dependency of the project has its place in a repository.

The main result is `toProject_exact`.
-/
namespace ClasspathAudit

/-! ### Blank texts -/

namespace Text

/-- Whether nothing of a text is left after trimming. -/
def IsBlank (text : String) : Prop :=
  trim text = ""

instance (text : String) : Decidable (IsBlank text) :=
  inferInstanceAs (Decidable (trim text = ""))

lemma trimmed_eq_nil_iff {text : List Char} : trimmed text = [] ↔ ∀ c ∈ text, isBlank c = true := by
  rw [trimmed_eq, List.rdropWhile_eq_nil_iff]
  constructor
  · intro h c hc
    rw [← List.takeWhile_append_dropWhile (p := isBlank) (l := text), List.mem_append] at hc
    rcases hc with hc | hc
    · exact List.mem_takeWhile_imp hc
    · exact h c hc
  · exact fun h c hc => h c (List.dropWhile_subset _ hc)

lemma isAllBlank_iff {text : String} : isAllBlank text = true ↔ IsBlank text := by
  rw [IsBlank, trim, isAllBlank, List.all_eq_true, ← trimmed_eq_nil_iff, ← String.toList_inj,
    String.toList_ofList]
  rfl

end Text

/-! ### Entries -/

namespace DependencySpec

/-- Whether group, name or version is blank. -/
def IsIncomplete (spec : DependencySpec) : Prop :=
  Text.IsBlank spec.group ∨ Text.IsBlank spec.name ∨ Text.IsBlank spec.version

/-- What is wrong with an entry, if anything is. -/
def fault? (spec : DependencySpec) : Option DescriptorFault :=
  if Text.IsBlank spec.group ∨ Text.IsBlank spec.name then
    some (.unnamedDependency spec.group spec.name)
  else if Text.IsBlank spec.version then
    some (.unversionedDependency spec.group spec.name)
  else
    none

/-- The artifact that an entry names, if it is complete. -/
def artifact (base : Path) (spec : DependencySpec) : Artifact :=
  ⟨spec.coordinates, spec.scope, spec.path.map base.join⟩

variable {spec : DependencySpec} {base : Path}

lemma fault?_eq_none_iff : spec.fault? = none ↔ ¬spec.IsIncomplete := by
  rw [fault?, IsIncomplete, ← or_assoc]
  split_ifs with hname hversion
  · simp [hname]
  · simp [hversion]
  · simp only [hname, hversion, or_self, not_false_eq_true]

lemma isNamed_iff : spec.coordinates.IsNamed ↔ spec.fault? = none := by
  have hblank : ∀ text : String, Text.isAllBlank text = false ↔ ¬Text.IsBlank text := by
    intro text
    rw [← Text.isAllBlank_iff, Bool.not_eq_true]
  rw [fault?_eq_none_iff, IsIncomplete, not_or, not_or, ← hblank, ← hblank, ← hblank]
  exact ⟨fun h => ⟨h.group, h.name, h.version⟩, fun h => ⟨h.1, h.2.1, h.2.2⟩⟩

lemma toArtifact_eq :
    spec.toArtifact base = spec.fault?.elim (.ok (spec.artifact base)) .error := by
  rw [toArtifact, build_draft, fault?]
  simp only [Bool.or_eq_true, Text.isAllBlank_iff]
  split_ifs <;> rfl

end DependencySpec

/-- Steps for the items of a list fail as the first of them does that has a fault. -/
lemma mapM_eq_elim {ε α β : Type} {f : α → Except ε β} {fault? : α → Option ε} {g : α → β}
    (h : ∀ a, f a = (fault? a).elim (.ok (g a)) .error) (l : List α) :
    l.mapM f = (l.findSome? fault?).elim (.ok (l.map g)) .error := by
  induction l with
  | nil => rfl
  | cons a l ih =>
    rw [List.mapM_cons, List.findSome?_cons, h, ih]
    cases fault? a with
    | some e => rfl
    | none => cases l.findSome? fault? <;> rfl

/-! ### Descriptors -/

namespace ProjectSection

/-- Whether group, name or version is blank. -/
def IsIncomplete (s : ProjectSection) : Prop :=
  Text.IsBlank s.group ∨ Text.IsBlank s.name ∨ Text.IsBlank s.version

/-- What is wrong with the section, if anything is. -/
def fault? (s : ProjectSection) : Option DescriptorFault :=
  [("group", s.group), ("name", s.name), ("version", s.version)].findSome? fun (field, value) =>
    if Text.IsBlank value then some (.blankProjectField field) else none

lemma fault?_eq_none_iff {s : ProjectSection} : s.fault? = none ↔ ¬s.IsIncomplete := by
  simp [fault?, IsIncomplete]

end ProjectSection

namespace Descriptor

variable {d : Descriptor} {s : ProjectSection} {path : Path}

/-- What is wrong with a descriptor that has the section `s`, if anything is: first with the
section, then with its declared dependencies and then with the others, in their order. -/
def fault? (d : Descriptor) (s : ProjectSection) : Option DescriptorFault :=
  s.fault?.or ((d.dependencies ++ d.transitive).findSome? DependencySpec.fault?)

/-- The project that a descriptor with the section `s` describes, if nothing is wrong with it. Its
dependencies are those of the entries; a transitive entry is left out if a declared one has its
coordinates. -/
def described (d : Descriptor) (s : ProjectSection) (path : Path) : Project where
  id := ⟨s.group, s.name, s.version, s.packaging⟩
  outputDir := (baseOf path).join (s.outputDir.getD defaultOutputDir)
  descriptor := some path
  direct := d.dependencies.map (DependencySpec.artifact (baseOf path))
  transitive := (d.transitive.filter fun spec =>
      ∀ declared ∈ d.dependencies, declared.coordinates ≠ spec.coordinates).map
    (DependencySpec.artifact (baseOf path))

lemma fault?_eq_none_iff : d.fault? s = none ↔
    ¬(s.IsIncomplete ∨ ∃ spec ∈ d.dependencies ++ d.transitive, spec.IsIncomplete) := by
  simp only [fault?, Option.or_eq_none_iff, s.fault?_eq_none_iff, List.findSome?_eq_none_iff,
    DependencySpec.fault?_eq_none_iff]
  push Not
  rfl

lemma make_eq_described : Project.make ⟨s.group, s.name, s.version, s.packaging⟩
    ((baseOf path).join (s.outputDir.getD defaultOutputDir)) (some path)
    (d.dependencies.map (DependencySpec.artifact (baseOf path)))
    (d.transitive.map (DependencySpec.artifact (baseOf path))) = d.described s path := by
  have hkept : ∀ spec ∈ d.transitive,
      ((fun a : Artifact => !((d.dependencies.map (DependencySpec.artifact (baseOf path))).map
        (·.coordinates)).contains a.coordinates) ∘ DependencySpec.artifact (baseOf path)) spec =
      decide (∀ declared ∈ d.dependencies, declared.coordinates ≠ spec.coordinates) := by
    intro spec _
    rw [Bool.eq_iff_iff, Function.comp_apply, Bool.not_eq_true', ← Bool.not_eq_true,
      List.contains_iff_mem, decide_eq_true_iff]
    simp [DependencySpec.artifact]
  rw [Project.make, described, List.filter_map, List.filter_congr hkept]

/-- Fields are checked one after the other. -/
lemma checkFields_eq (s : ProjectSection) {α : Type} (next : Except DescriptorFault α) :
    (do
      checkField "group" s.group
      checkField "name" s.name
      checkField "version" s.version
      next) = s.fault?.elim next .error := by
  simp only [checkField, Text.isAllBlank_iff, ProjectSection.fault?, List.findSome?_cons,
    List.findSome?_nil]
  split_ifs <;> rfl

lemma project?_eq (h : d.project = some s) : d.project? path =
    (d.fault? s).elim (.ok (some (d.described s path))) .error := by
  have hmapM := mapM_eq_elim (f := DependencySpec.toArtifact (baseOf path))
    (fun spec => DependencySpec.toArtifact_eq)
  rw [project?, h]
  dsimp only
  rw [checkFields_eq, hmapM, hmapM, fault?, List.findSome?_append]
  cases s.fault? with
  | some fault => rfl
  | none =>
    cases d.dependencies.findSome? DependencySpec.fault? with
    | some fault => rfl
    | none =>
      cases d.transitive.findSome? DependencySpec.fault? with
      | some fault => rfl
      | none => exact congrArg (fun p => Except.ok (some p)) make_eq_described

lemma toProject_eq (h : d.project = some s) : d.toProject path =
    (d.fault? s).elim (.ok (some (d.described s path)))
      fun fault => .error (.descriptor path fault) := by
  rw [toProject, project?_eq h]
  cases d.fault? s <;> rfl

lemma toProject_of_project_eq_none (h : d.project = none) : d.toProject path = .ok none := by
  rw [toProject, project?, h]

/-- The dependencies of a project have names. -/
lemma isNamed_of_toProject {p : Project} (h : d.toProject path = .ok (some p)) {a : Artifact}
    (ha : a ∈ p.direct ++ p.transitive) : a.coordinates.IsNamed := by
  cases hsection : d.project with
  | none =>
    rw [toProject_of_project_eq_none hsection] at h
    cases h
  | some s =>
    rw [toProject_eq hsection] at h
    cases hfault : d.fault? s with
    | some fault =>
      rw [hfault] at h
      cases h
    | none =>
      rw [hfault] at h
      obtain rfl := Option.some.inj (Except.ok.inj h)
      have hentries := List.findSome?_eq_none_iff.1 (Option.or_eq_none_iff.1 hfault).2
      rcases List.mem_append.1 ha with ha | ha
      · obtain ⟨spec, hspec, rfl⟩ := List.mem_map.1 ha
        exact DependencySpec.isNamed_iff.2 (hentries spec (List.mem_append_left _ hspec))
      · obtain ⟨spec, hspec, rfl⟩ := List.mem_map.1 ha
        exact DependencySpec.isNamed_iff.2
          (hentries spec (List.mem_append_right _ (List.mem_filter.1 hspec).1))

/-- A descriptor gives no project if it has no section for one. If it has one, the descriptor is
refused exactly if group, name or version of the project or of an entry is blank, and then for the
first such fault; otherwise it gives the project that it describes. No draft of an entry lacks a
field. A repository resolves each dependency of the project: it gives the dependency a location if
it has none and changes nothing else, so that to resolve it again changes nothing. -/
theorem toProject_exact (d : Descriptor) (path : Path) (r : Repository) :
    (d.toProject path = .ok none ↔ d.project = none) ∧
    (∀ s, d.project = some s →
      ((∃ fault, d.toProject path = .error (.descriptor path fault)) ↔
        s.IsIncomplete ∨ ∃ spec ∈ d.dependencies ++ d.transitive, spec.IsIncomplete) ∧
      (∀ failure, d.toProject path = .error failure ↔
        ∃ fault, d.fault? s = some fault ∧ failure = .descriptor path fault) ∧
      (¬(s.IsIncomplete ∨ ∃ spec ∈ d.dependencies ++ d.transitive, spec.IsIncomplete) →
        d.toProject path = .ok (some (d.described s path)))) ∧
    (∀ spec ∈ d.dependencies ++ d.transitive,
      (spec.draft (baseOf path)).build = .ok (spec.artifact (baseOf path))) ∧
    ∀ p, d.toProject path = .ok (some p) → ∀ a ∈ p.direct ++ p.transitive,
      ∃ b, b = { a with location := some (a.location.getD (r.artifactPath a.coordinates)) } ∧
        r.resolve a = .ok b ∧ r.resolve b = .ok b := by
  refine ⟨?_, fun s hs => ⟨?_, fun failure => ?_, fun hcomplete => ?_⟩,
    fun spec _ => DependencySpec.build_draft, fun p hp a ha => ?_⟩
  · cases hs : d.project with
    | none => simp [toProject_of_project_eq_none hs]
    | some s =>
      rw [toProject_eq hs]
      cases d.fault? s <;> simp
  · rw [← not_iff_not, ← fault?_eq_none_iff, toProject_eq hs]
    cases d.fault? s <;> simp
  · rw [toProject_eq hs]
    cases d.fault? s <;> simp [eq_comm]
  · rw [toProject_eq hs, fault?_eq_none_iff.2 hcomplete]
    rfl
  · exact ⟨_, rfl, r.resolve_eq_ok (isNamed_of_toProject hp ha), rfl⟩

/-- A descriptor in which nothing is blank, with a dependency and one that comes with it. -/
def completeDescriptor : Descriptor where
  project := some ⟨"com.acme", "app", "1.0", .jar, none⟩
  modules := []
  dependencies := [⟨"org.lib", "core", "2.0", .jar, .compile, none, none⟩]
  transitive := [⟨"org.lib", "util", "2.0", .jar, .runtime, some "", some ⟨"libs/util.jar"⟩⟩]

theorem toProject_exact_completeDescriptor : ∃ p,
    completeDescriptor.toProject ⟨"app/depsweep.toml"⟩ = .ok (some p) ∧
    p.direct ++ p.transitive = (completeDescriptor.dependencies ++ completeDescriptor.transitive).map
      (DependencySpec.artifact ⟨"app"⟩) ∧
    ∀ a ∈ p.direct ++ p.transitive, ∃ b,
      (⟨⟨"repository"⟩⟩ : Repository).resolve a = .ok b ∧
        (⟨⟨"repository"⟩⟩ : Repository).resolve b = .ok b := by
  obtain ⟨-, hsection, -, hresolved⟩ :=
    toProject_exact completeDescriptor ⟨"app/depsweep.toml"⟩ ⟨⟨"repository"⟩⟩
  have hfault : completeDescriptor.fault? ⟨"com.acme", "app", "1.0", .jar, none⟩ = none := by
    decide +kernel
  have hproject := (hsection _ rfl).2.2 (fault?_eq_none_iff.1 hfault)
  refine ⟨_, hproject, by decide +kernel, fun a ha => ?_⟩
  obtain ⟨b, -, honce, hagain⟩ := hresolved _ hproject a ha
  exact ⟨b, honce, hagain⟩

end Descriptor
end ClasspathAudit
