import ClasspathAudit.Repository
import ClasspathAudit.Proofs.FileSystem.Lookup

/-
# The layout of a repository

The place of an artifact in a repository tells its coordinates. Hyphens and dots do not tell the
parts of a file name apart, since a name, a version and a classifier may hold both: `lib-core` in
version `1.0` and `lib` in version `core-1.0` lie in files of the same name. But the name and the
version are also directories of their own, the last two on the way, and the directories before them
are the segments of the group. With name and version known, the rest of the file name is a
classifier and an extension, which has no dot in it.

The main result is `artifactPath_eq_iff`, for archives that can hold classes. Paths are compared as
texts, so `.` and `..` are names like others here.
-/
namespace ClasspathAudit
namespace Repository

variable {c d : Coordinates}

/-! ### File names -/

/-- The name of a file before its extension. -/
def stem (c : Coordinates) : String :=
  s!"{c.name}-{c.version}" ++
    (match c.classifier with
      | some classifier => "-" ++ classifier
      | none => "")

lemma toList_fileName (c : Coordinates) :
    (fileName c).toList = (stem c).toList ++ '.' :: c.packaging.fileExtension.toList := by
  have hname : fileName c = stem c ++ "." ++ c.packaging.fileExtension := rfl
  rw [hname, String.toList_append, String.toList_append, List.append_assoc]
  rfl

lemma stem_inj (hname : c.name = d.name) (hversion : c.version = d.version) :
    stem c = stem d ↔ c.classifier = d.classifier := by
  rw [stem, stem, hname, hversion, String.append_right_inj]
  -- a classifier, even an empty one, adds a hyphen
  cases c.classifier <;> cases d.classifier <;> simp [String.append_right_inj]

/-- Of a name and a version, the file names tell apart the classifiers and the extensions. -/
lemma fileName_inj (hname : c.name = d.name) (hversion : c.version = d.version)
    (hc : '.' ∉ c.packaging.fileExtension.toList) (hd : '.' ∉ d.packaging.fileExtension.toList) :
    fileName c = fileName d ↔
      c.classifier = d.classifier ∧ c.packaging.fileExtension = d.packaging.fileExtension := by
  rw [← String.toList_inj, toList_fileName, toList_fileName, Text.append_cons_inj_of_notMem hc hd,
    String.toList_inj, String.toList_inj, stem_inj hname hversion]

-- a type without rules of its own may have a dot in its extension, which a classifier may have too
example : fileName ⟨"com.acme", "lib", "1", .other "b.jar", some "a"⟩ =
    fileName ⟨"com.acme", "lib", "1", .jar, some "a.b"⟩ := by decide

/-! ### Directories -/

/-- Whether each part of coordinates can stand in a path by itself, and their type is one of those
that can hold classes. -/
structure IsPlaceable (c : Coordinates) : Prop where
  packaging : c.packaging ∈ [.jar, .war, .ejb]
  group : '/' ∉ c.group.toList
  segments : ∀ segment ∈ Text.splitOnChar '.' c.group, segment ≠ ""
  name : c.name ≠ "" ∧ '/' ∉ c.name.toList
  version : c.version ≠ "" ∧ '/' ∉ c.version.toList
  classifier : ∀ classifier ∈ c.classifier, '/' ∉ classifier.toList

namespace IsPlaceable

lemma fileExtension_eq (h : IsPlaceable c) :
    c.packaging.fileExtension = if c.packaging = .war then "war" else "jar" := by
  have hall : ∀ packaging ∈ [Packaging.jar, .war, .ejb],
      packaging.fileExtension = if packaging = .war then "war" else "jar" := by decide
  exact hall _ h.packaging

lemma fileExtension_inj (hc : IsPlaceable c) (hd : IsPlaceable d) :
    c.packaging.fileExtension = d.packaging.fileExtension ↔
      (c.packaging = .war ↔ d.packaging = .war) := by
  rw [hc.fileExtension_eq, hd.fileExtension_eq]
  by_cases hwar : c.packaging = .war <;> by_cases hwar' : d.packaging = .war <;> simp [hwar, hwar']

lemma notMem_fileExtension (h : IsPlaceable c) {mark : Char} (hmark : mark = '.' ∨ mark = '/') :
    mark ∉ c.packaging.fileExtension.toList := by
  rw [h.fileExtension_eq]
  rcases hmark with rfl | rfl <;> split <;> decide

lemma slash_notMem_stem (h : IsPlaceable c) : '/' ∉ (stem c).toList := by
  rw [stem]
  cases hc : c.classifier with
  | none => simp [toString, h.name.2, h.version.2]
  | some classifier =>
    have hclassifier : '/' ∉ classifier.toList := h.classifier classifier hc
    simp [toString, h.name.2, h.version.2, hclassifier]

/-- Each step is a name, so none is passed over and none is taken for two. -/
lemma forall_mem_steps (h : IsPlaceable c) :
    ∀ step ∈ steps c, step ≠ "" ∧ '/' ∉ step.toList := by
  have hfile : fileName c ≠ "" ∧ '/' ∉ (fileName c).toList := by
    rw [← String.toList_inj.ne, toList_fileName]
    have hextension := h.notMem_fileExtension (.inr rfl)
    simp [h.slash_notMem_stem, hextension]
  intro step hstep
  simp only [steps, List.mem_append, List.mem_cons, List.not_mem_nil, or_false] at hstep
  rcases hstep with hsegment | rfl | rfl | rfl
  · exact ⟨h.segments step hsegment, fun hslash =>
      h.group (Text.mem_of_mem_splitOnChar hsegment hslash)⟩
  · exact h.name
  · exact h.version
  · exact hfile

end IsPlaceable

/-- The last three steps are the name, the version and the file, those before them the segments of
the group. -/
lemma steps_inj : steps c = steps d ↔
    c.group = d.group ∧ c.name = d.name ∧ c.version = d.version ∧ fileName c = fileName d := by
  rw [steps, steps]
  constructor
  · intro h
    obtain ⟨hgroup, hlast⟩ := List.append_inj' h rfl
    simp only [List.cons.injEq, and_true] at hlast
    obtain ⟨hname, hversion, hfile⟩ := hlast
    exact ⟨Text.splitOnChar_injective '.' hgroup, hname, hversion, hfile⟩
  · rintro ⟨hgroup, hname, hversion, hfile⟩
    rw [hgroup, hname, hversion, hfile]

lemma steps_ne_nil (c : Coordinates) : steps c ≠ [] := by
  simp [steps]

/-! ### Places -/

/-- Two archives have the same place in a repository if and only if their groups, names, versions
and classifiers are the same and both or neither are web archives, whose extension is `war` where
that of the others is `jar`. -/
theorem artifactPath_eq_iff (r : Repository) (hc : IsPlaceable c) (hd : IsPlaceable d) :
    r.artifactPath c = r.artifactPath d ↔
      c.group = d.group ∧ c.name = d.name ∧ c.version = d.version ∧
      c.classifier = d.classifier ∧ c.packaging.fileExtension = d.packaging.fileExtension ∧
      (c.packaging = .war ↔ d.packaging = .war) := by
  have hpath : r.artifactPath c = r.artifactPath d ↔ steps c = steps d :=
    FileSystem.pathBelow_inj (steps_ne_nil c) (steps_ne_nil d) hc.forall_mem_steps
      hd.forall_mem_steps
  have hdotc := hc.notMem_fileExtension (.inl rfl)
  have hdotd := hd.notMem_fileExtension (.inl rfl)
  rw [hpath, steps_inj]
  constructor
  · rintro ⟨hgroup, hname, hversion, hfile⟩
    obtain ⟨hclassifier, hextension⟩ := (fileName_inj hname hversion hdotc hdotd).1 hfile
    exact ⟨hgroup, hname, hversion, hclassifier, hextension,
      (hc.fileExtension_inj hd).1 hextension⟩
  · rintro ⟨hgroup, hname, hversion, hclassifier, hextension, -⟩
    exact ⟨hgroup, hname, hversion,
      (fileName_inj hname hversion hdotc hdotd).2 ⟨hclassifier, hextension⟩⟩

/-- A library in a bean archive. -/
def sampleLibrary : Coordinates :=
  ⟨"org.acme", "lib", "core-1.0", .ejb, none⟩

/-- A library whose file is called like that of the other. -/
def sampleCore : Coordinates :=
  ⟨"org.acme", "lib-core", "1.0", .jar, none⟩

theorem artifactPath_eq_iff_sampleLibrary :
    IsPlaceable sampleLibrary ∧ IsPlaceable sampleCore ∧
    IsPlaceable { sampleLibrary with packaging := .jar } ∧
    fileName sampleLibrary = fileName sampleCore ∧
    artifactPath ⟨⟨"repository"⟩⟩ sampleLibrary ≠ artifactPath ⟨⟨"repository"⟩⟩ sampleCore ∧
    artifactPath ⟨⟨"repository"⟩⟩ sampleLibrary =
      artifactPath ⟨⟨"repository"⟩⟩ { sampleLibrary with packaging := .jar } := by
  have hlibrary : IsPlaceable sampleLibrary :=
    ⟨by decide, by decide, by decide, by decide, by decide, by decide⟩
  have hcore : IsPlaceable sampleCore :=
    ⟨by decide, by decide, by decide, by decide, by decide, by decide⟩
  have hjar : IsPlaceable { sampleLibrary with packaging := .jar } :=
    ⟨by decide, by decide, by decide, by decide, by decide, by decide⟩
  refine ⟨hlibrary, hcore, hjar, by decide, fun hpath => ?_, ?_⟩
  · obtain ⟨-, hname, -⟩ := (artifactPath_eq_iff _ hlibrary hcore).1 hpath
    exact absurd hname (by decide)
  · exact (artifactPath_eq_iff _ hlibrary hjar).2 (by decide)

end Repository
end ClasspathAudit
