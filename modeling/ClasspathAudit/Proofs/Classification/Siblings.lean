import ClasspathAudit.Proofs.ClassFile.Inversion
import ClasspathAudit.Proofs.Classification.Places
import ClasspathAudit.Proofs.DirectoryScan.Splitting
import ClasspathAudit.Proofs.FileSystem.Lookup

/-
# Classes in an archive and in a directory

The classes that an archive declares are told from the paths of its entries, those that a directory
declares from what the class files in it say. Where both hold the same class files, each under the
name of its class, they declare the same classes. So a dependency may be read from the output
directory of a sibling instead of from its archive, and no findings change.

The main result is `analyze_sibling`.
-/
namespace ClasspathAudit

/-! ### Class files with their names -/

namespace ClassFile

open Decoder

/-- Reads a class file up to the name of the class. -/
def decodeName : Decoder String := do
  decodeMagic
  decodeVersion
  let pool ← ConstantPool.decode
  skip 2
  pool.readClassName

lemma exists_decodeName {w w' : Window} {c : ClassReferences} (h : decode.Gives w c w') :
    ∃ name m, decodeName.Gives w name m ∧ c.className = .ofInternal name := by
  obtain ⟨_, _, hmagic, h⟩ := h.bind
  obtain ⟨_, _, hversion, h⟩ := h.bind
  obtain ⟨pool, _, hpool, h⟩ := h.bind
  obtain ⟨_, _, hskip, h⟩ := h.bind
  obtain ⟨name, m, hname, h⟩ := h.bind
  refine ⟨name, m, hmagic.andThen (hversion.andThen (hpool.andThen (hskip.andThen hname))), ?_⟩
  -- the name of the class is not touched by what is read behind it
  obtain ⟨superclass, _, -, h⟩ := h.bind
  obtain ⟨interfaces, _, -, h⟩ := h.bind
  obtain ⟨fields, _, -, h⟩ := h.bind
  obtain ⟨methods, _, -, h⟩ := h.bind
  obtain ⟨attributes, _, -, h⟩ := h.bind
  obtain ⟨rfl, -⟩ := h.pure
  rfl

/-- Whether bytes start a class file that names its class so. -/
def Names (bytes : Bytes) (name : String) : Prop :=
  ∃ w, decodeName.Gives (Window.ofBytes bytes) name w

instance (bytes : Bytes) (name : String) : Decidable (Names bytes name) :=
  decidable_of_iff ((decodeName (Window.ofBytes bytes)).toOption.map Prod.fst = some name) <| by
    rw [Names]
    cases hname : decodeName (Window.ofBytes bytes) <;>
      simp [Gives, Except.toOption, hname, Prod.ext_iff]

lemma className_of_scan {bytes : Bytes} {c : ClassReferences} {name : String}
    (h : scan bytes = .ok c) (hname : Names bytes name) : c.className = .ofInternal name := by
  obtain ⟨m, hname⟩ := hname
  cases hdecode : decode.run (Window.ofBytes bytes) with
  | error e =>
    rw [scan, hdecode] at h
    cases h
  | ok result =>
    rw [scan, hdecode] at h
    obtain rfl := Except.ok.inj h
    obtain ⟨name', m', hname', hclass⟩ := exists_decodeName hdecode
    obtain ⟨rfl, -⟩ := Prod.mk.inj (Except.ok.inj (hname.symm.trans hname'))
    exact hclass

end ClassFile

/-- A class file that can be scanned, with the name by which it calls its class: segments between
slashes, each of which can be the name of a file. -/
structure NamedClass where
  /-- The name. -/
  name : String
  /-- The bytes of the class file. -/
  content : Array UInt8
  named : ClassFile.Names content.toList name
  scannable : (ClassFile.scan content.toList).isOk = true
  segments : ∀ segment ∈ Text.splitOnChar '/' name, FileSystem.IsName segment

namespace NamedClass

/-- The path under which the class is kept. -/
def path (k : NamedClass) : String :=
  k.name ++ ".class"

/-- The class. -/
def className (k : NamedClass) : ClassName :=
  .ofInternal k.name

lemma name_ne_empty (k : NamedClass) : k.name ≠ "" := by
  intro h
  have hsegments := k.segments
  rw [h] at hsegments
  exact (hsegments "" List.mem_cons_self).empty rfl

lemma splitOnChar_path (k : NamedClass) : ∃ front last,
    Text.splitOnChar '/' k.name = front ++ [last] ∧
    Text.splitOnChar '/' k.path = front ++ [last ++ ".class"] := by
  have hslash : '/' ∉ ".class".toList := by decide
  obtain ⟨front, last, hname, hpath⟩ := Text.exists_splitAtChar_append hslash k.name.toList
  refine ⟨front.map String.ofList, String.ofList last, ?_, ?_⟩
  · rw [Text.splitOnChar, hname, List.map_append, List.map_singleton]
  · rw [Text.splitOnChar, path, String.toList_append, hpath, List.map_append, List.map_singleton,
      String.ofList_append, String.ofList_toList]

/-- The directories on the way to a class are the segments of its name but the last. -/
lemma splitOnChar_path_eq_iff {k : NamedClass} {directories : List String} {stem : String} :
    Text.splitOnChar '/' k.path = directories ++ [stem ++ ".class"] ↔
      Text.splitOnChar '/' k.name = directories ++ [stem] := by
  obtain ⟨front, last, hname, hpath⟩ := k.splitOnChar_path
  rw [hname, hpath, List.append_singleton_inj, List.append_singleton_inj, String.append_left_inj]

lemma isName_of_mem_path {k : NamedClass} {part : String}
    (hpart : part ∈ Text.splitOnChar '/' k.path) : FileSystem.IsName part := by
  have hsegments := k.segments
  obtain ⟨front, last, hname, hpath⟩ := k.splitOnChar_path
  rw [hname] at hsegments
  rw [hpath, List.mem_append, List.mem_singleton] at hpart
  rcases hpart with hpart | rfl
  · exact hsegments part (List.mem_append_left _ hpart)
  · have hlength : 6 ≤ (last ++ ".class").length := by
      rw [String.length_append]
      exact Nat.le_add_left 6 _
    constructor <;> intro h <;> rw [h] at hlength <;> revert hlength <;> decide

/-- The path ends in the name of a class file. -/
lemma isClassName_path (k : NamedClass) :
    (Text.splitOnChar '/' k.path).getLast?.any FileSystem.isClassName = true := by
  obtain ⟨front, last, hname, hpath⟩ := k.splitOnChar_path
  have hlast := k.segments last (by simp [hname])
  rw [hpath, List.getLast?_concat, Option.any_some, FileSystem.isClassName_iff]
  exact ⟨last, hlast.empty, rfl⟩

end NamedClass

/-! ### Archives -/

namespace ClassIndex

variable {fs : FileSystem} {archive root : Path} {classes : List NamedClass} {c : ClassName}

/-- Whether an archive holds these classes and no others, each in an entry of its name. What else
lies in the archive has no path of a class file. -/
def HoldsArchive (fs : FileSystem) (archive : Path) (classes : List NamedClass) : Prop :=
  ∃ content names, fs.readFile archive = .ok content ∧ Archive.fileNames? content = some names ∧
    (∀ k ∈ classes, k.path ∈ names) ∧
    ∀ stem, stem ≠ "" → stem ++ ".class" ∈ names → ∃ k ∈ classes, k.name = stem

lemma ofEntryPath?_eq_some_iff {path : String} : ClassName.ofEntryPath? path = some c ↔
    ∃ stem, stem ≠ "" ∧ path = stem ++ ".class" ∧ ClassName.ofInternal stem = c := by
  have hsuffix : ClassName.fileSuffix = ".class".toList := rfl
  rw [ClassName.ofEntryPath?, Option.ite_none_right_eq_some, Bool.and_eq_true,
    List.isSuffixOf_iff_suffix, decide_eq_true_eq, Option.some.injEq]
  constructor
  · rintro ⟨⟨⟨front, hfront⟩, hlength⟩, rfl⟩
    rw [← hfront, List.length_append] at hlength ⊢
    rw [Nat.add_sub_cancel, List.take_left]
    refine ⟨String.ofList front, fun h => ?_, ?_, rfl⟩
    · rw [String.ofList_eq_empty_iff.1 h, List.length_nil] at hlength
      omega
    · rw [← String.toList_inj, ← hfront, hsuffix]
      simp
  · rintro ⟨stem, hstem, rfl, rfl⟩
    have hlength : 0 < stem.toList.length :=
      List.length_pos_iff.2 fun h => hstem (String.toList_eq_nil_iff.1 h)
    rw [String.toList_append, ← hsuffix, List.length_append, Nat.add_sub_cancel, List.take_left,
      String.ofList_toList]
    exact ⟨⟨List.suffix_append _ _, by omega⟩, rfl⟩

lemma mem_named {classes : List ClassName} :
    c ∈ named classes ↔ c ∈ classes ∧ c.isAnonymous = false := by
  rw [named, Std.ExtTreeSet.mem_ofList, List.contains_iff_mem, List.mem_filter, Bool.not_eq_true']

/-- An archive of classes declares them, but for anonymous ones. -/
lemma HoldsArchive.exists_inArchive (h : HoldsArchive fs archive classes) :
    ∃ declared, inArchive fs archive = .ok declared ∧
      ∀ c, c ∈ declared ↔ (∃ k ∈ classes, k.className = c) ∧ c.isAnonymous = false := by
  obtain ⟨content, names, hread, hnames, hholds, honly⟩ := h
  refine ⟨named (names.filterMap ClassName.ofEntryPath?), ?_, fun c => ?_⟩
  · have hbytes : readArchive fs archive = .ok content := by simp only [readArchive, hread]
    have hdeclared : inArchiveOf archive content =
        .ok (named (names.filterMap ClassName.ofEntryPath?)) := by
      rw [inArchiveOf, hnames, Option.elim_some]
    simp only [inArchive, hbytes, bind, Except.bind, hdeclared]
  · rw [mem_named, List.mem_filterMap]
    refine and_congr_left' ⟨?_, ?_⟩
    · rintro ⟨path, hpath, hc⟩
      obtain ⟨stem, hstem, rfl, rfl⟩ := ofEntryPath?_eq_some_iff.1 hc
      obtain ⟨k, hk, rfl⟩ := honly stem hstem hpath
      exact ⟨k, hk, rfl⟩
    · rintro ⟨k, hk, rfl⟩
      exact ⟨k.path, hholds k hk, ofEntryPath?_eq_some_iff.2 ⟨k.name, k.name_ne_empty, rfl, rfl⟩⟩

/-! ### Directories -/

/-- Whether a directory holds these classes and no others, each in a file of its name. What else
lies in the directory has no name of a class file, and is no link to elsewhere. -/
structure HoldsDirectory (fs : FileSystem) (root : Path) (classes : List NamedClass) : Prop where
  isDirectory : fs.isDirectory root = true
  holds : ∀ k ∈ classes, fs.readFile (root.child k.path) = .ok k.content
  noLinks : ∀ place, fs.locate root = .ok place → fs.HasNoLinks place
  only : ∀ place, fs.locate root = .ok place → ∀ directories stem content, stem ≠ "" →
    fs.entry? (place ++ directories ++ [stem ++ ".class"]) = some (.file content) →
      ∃ k ∈ classes, Text.splitOnChar '/' k.name = directories ++ [stem]

lemma readClass_of_readFile {k : NamedClass} {path : Path} (h : fs.readFile path = .ok k.content) :
    ∃ references, DirectoryScan.readClass fs path = .ok references ∧
      references.className = k.className := by
  cases hscan : ClassFile.scan k.content.toList with
  | error e => simpa [hscan, Except.isOk, Except.toBool] using k.scannable
  | ok references =>
    refine ⟨references, ?_, ClassFile.className_of_scan hscan k.named⟩
    simp only [DirectoryScan.readClass, h, hscan]

/-- What lies below a directory decides whether it holds classes. -/
lemma holdsDirectory_of_below {place : Location} (hroot : fs.isDirectory root = true)
    (hplace : fs.locate root = .ok place)
    (hholds : ∀ k ∈ classes, fs.readFile (root.child k.path) = .ok k.content)
    (hlinks : ∀ part ∈ fs.below place, (part.2 matches .link _) = false)
    (honly : ∀ part ∈ fs.below place, part.1.getLast?.any FileSystem.isClassName = true →
      ∃ k ∈ classes, Text.splitOnChar '/' k.path = part.1) :
    HoldsDirectory fs root classes where
  isDirectory := hroot
  holds := hholds
  noLinks place' hplace' names target hne hentry := by
    obtain rfl := Except.ok.inj (hplace.symm.trans hplace')
    exact absurd (hlinks _ (FileSystem.mem_below_iff.2 ⟨hne, hentry⟩)) (by simp)
  only place' hplace' directories stem content hstem hentry := by
    obtain rfl := Except.ok.inj (hplace.symm.trans hplace')
    rw [List.append_assoc] at hentry
    obtain ⟨k, hk, hpath⟩ := honly _ (FileSystem.mem_below_iff.2 ⟨by simp, hentry⟩) (by
      rw [List.getLast?_concat, Option.any_some, FileSystem.isClassName_iff]
      exact ⟨stem, hstem, rfl⟩)
    exact ⟨k, hk, NamedClass.splitOnChar_path_eq_iff.1 hpath⟩

/-- The walk through a directory of classes finds their files. -/
lemma HoldsDirectory.exists_classFiles (h : HoldsDirectory fs root classes) :
    ∃ files, fs.classFiles root = .ok files ∧
      ∀ path, path ∈ files ↔ ∃ k ∈ classes, root.child k.path = path := by
  obtain ⟨place, hplace⟩ : ∃ place, fs.locate root = .ok place := by
    cases hplace : fs.locate root with
    | ok place => exact ⟨place, rfl⟩
    | error fault => simpa [FileSystem.isDirectory, FileSystem.find?, hplace] using h.isDirectory
  have hfiles := FileSystem.classFiles_eq hplace (h.noLinks place hplace)
  have hpath : ∀ k : NamedClass,
      FileSystem.pathBelow root (Text.splitOnChar '/' k.path) = root.child k.path := fun k =>
    FileSystem.pathBelow_splitOnChar fun part hpart => (k.isName_of_mem_path hpart).empty
  refine ⟨_, hfiles, fun path => ?_⟩
  rw [FileSystem.mem_classFiles hplace (h.noLinks place hplace) hfiles]
  constructor
  · rintro ⟨names, content, hmem, hclass, rfl⟩
    obtain ⟨hne, hentry⟩ := FileSystem.mem_below_iff.1 hmem
    obtain ⟨directories, last, rfl⟩ := (List.eq_nil_or_concat' names).resolve_left hne
    rw [List.getLast?_concat, Option.any_some, FileSystem.isClassName_iff] at hclass
    obtain ⟨stem, hstem, rfl⟩ := hclass
    rw [← List.append_assoc] at hentry
    obtain ⟨k, hk, hname⟩ := h.only place hplace directories stem content hstem hentry
    exact ⟨k, hk, by rw [← hpath, NamedClass.splitOnChar_path_eq_iff.2 hname]⟩
  · rintro ⟨k, hk, rfl⟩
    refine ⟨_, k.content, FileSystem.mem_below_iff.2 ⟨Text.splitOnChar_ne_nil _ _, ?_⟩,
      k.isClassName_path, hpath k⟩
    exact FileSystem.entry?_of_readFile hplace (h.noLinks place hplace)
      (fun part hpart => k.isName_of_mem_path hpart) (h.holds k hk)

/-- A directory of classes declares them, but for anonymous ones. -/
lemma HoldsDirectory.exists_inDirectory (h : HoldsDirectory fs root classes) :
    ∃ declared, inDirectory fs root = .ok declared ∧
      ∀ c, c ∈ declared ↔ (∃ k ∈ classes, k.className = c) ∧ c.isAnonymous = false := by
  obtain ⟨files, hfiles, hmem⟩ := h.exists_classFiles
  have hread : ∀ k ∈ classes, ∃ references,
      DirectoryScan.readClass fs (root.child k.path) = .ok references ∧
        references.className = k.className :=
    fun k hk => readClass_of_readFile (h.holds k hk)
  obtain ⟨scanned, hscanned⟩ : ∃ r, files.mapM (DirectoryScan.readClass fs) = .ok r := by
    refine exists_mapM_eq_ok fun path hpath => ?_
    obtain ⟨k, hk, rfl⟩ := (hmem path).1 hpath
    obtain ⟨references, hreferences, -⟩ := hread k hk
    exact ⟨references, hreferences⟩
  have hdirectory : DirectoryScan.ofDirectory fs root =
      .ok (DirectoryScan.total scanned).external := by
    rw [DirectoryScan.ofDirectory_eq h.isDirectory hfiles, hscanned, ← DirectoryScan.ofClasses_eq]
    rfl
  refine ⟨(DirectoryScan.total scanned).external.declared.filter (!·.isAnonymous), ?_, fun c => ?_⟩
  · rw [inDirectory, hdirectory]
    rfl
  · rw [Std.ExtTreeSet.mem_filter]
    simp only [Std.ExtTreeSet.get_eq, exists_prop, Bool.not_eq_true',
      (DirectoryScan.isScanOf_total scanned).declared, mem_of_mapM_eq_ok hscanned]
    refine and_congr_left' ⟨?_, ?_⟩
    · rintro ⟨references, ⟨path, hpath, hreferences⟩, rfl⟩
      obtain ⟨k, hk, rfl⟩ := (hmem path).1 hpath
      obtain ⟨references', hreferences', hclass⟩ := hread k hk
      obtain rfl := Except.ok.inj (hreferences.symm.trans hreferences')
      exact ⟨k, hk, hclass.symm⟩
    · rintro ⟨k, hk, rfl⟩
      obtain ⟨references, hreferences, hclass⟩ := hread k hk
      exact ⟨references, ⟨_, (hmem _).2 ⟨k, hk, rfl⟩, hreferences⟩, hclass⟩

/-! ### Sources -/

/-- Whether a source holds these classes and no others. -/
def Holds (fs : FileSystem) (classes : List NamedClass) : ClassSource → Prop
  | .archive path => HoldsArchive fs path classes
  | .directory path | .reactor path => HoldsDirectory fs path classes
  | .ignored | .missing => False

variable {source source' : ClassSource}

lemma Holds.exists_classesOf (h : Holds fs classes source) :
    ∃ declared, classesOf fs source = .ok declared ∧
      ∀ c, c ∈ declared ↔ (∃ k ∈ classes, k.className = c) ∧ c.isAnonymous = false := by
  cases source with
  | archive path => exact HoldsArchive.exists_inArchive h
  | directory path => exact HoldsDirectory.exists_inDirectory h
  | reactor path => exact HoldsDirectory.exists_inDirectory h
  | ignored => exact h.elim
  | missing => exact h.elim

/-- Sources that hold the same classes cannot be told apart by what they declare. -/
lemma Holds.classesOf_eq (h : Holds fs classes source) (h' : Holds fs classes source') :
    classesOf fs source = classesOf fs source' := by
  obtain ⟨declared, hclasses, hmem⟩ := h.exists_classesOf
  obtain ⟨declared', hclasses', hmem'⟩ := h'.exists_classesOf
  have heq : declared = declared' :=
    Std.ExtTreeSet.ext_mem fun c => (hmem c).trans (hmem' c).symm
  rw [hclasses, hclasses', heq]

lemma unplaced_ofArtifact (reactor : Reactor) (a : Artifact) :
    (ofArtifact fs reactor a).map unplaced =
      (classesOf fs (sourceOf fs reactor a)).map fun declared =>
        ⟨a.unplaced, .missing, declared⟩ := by
  rw [ofArtifact]
  cases classesOf fs (sourceOf fs reactor a) <;> rfl

end ClassIndex

/-! ### A further project in the reactor -/

namespace Reactor

variable {r : Reactor} {p : Project} {a : Artifact}

lemma outputDir?_insert (h : a.coordinates.moduleKey = p.id.moduleKey) :
    (r.insert p).outputDir? a = some p.outputDir := by
  rw [insert, outputDir?, h]
  exact List.lookup_cons_self

lemma outputDir?_insert_of_ne (h : a.coordinates.moduleKey ≠ p.id.moduleKey) :
    (r.insert p).outputDir? a = r.outputDir? a := by
  rw [insert, outputDir?, outputDir?, List.lookup_cons, beq_false_of_ne h]
  -- a module that is taken out has another key
  show (r.modules.filter _).lookup _ = _
  induction r.modules with
  | nil => rfl
  | cons m modules ih =>
    by_cases hkey : m.1 = p.id.moduleKey
    · have hne : (a.coordinates.moduleKey == m.1) = false := beq_false_of_ne (hkey ▸ h)
      rw [List.filter_cons_of_neg (by simp [hkey]), ih, List.lookup_cons, hne]
    · rw [List.filter_cons_of_pos (by simp [hkey]), List.lookup_cons, List.lookup_cons, ih]

end Reactor

namespace Analyzer

open Classification ClassIndex

variable {z : Analyzer} {project sibling : Project} {a : Artifact}

/-- The analysis in which the classes of a further project are read from its output directory. -/
def withSibling (z : Analyzer) (sibling : Project) : Analyzer :=
  { z with reactor := z.reactor.insert sibling }

lemma unplaced_placed (a : Artifact) : (z.placed a).unplaced = a.unplaced := by
  rcases placed_eq (z := z) a with h | ⟨-, h⟩ <;> rw [h]
  rfl

/-- What an artifact declares, wherever it is placed. -/
def classesOf (z : Analyzer) (a : Artifact) : Except Failure ClassSet :=
  ClassIndex.classesOf z.files (sourceOf z.files z.reactor (z.placed a))

lemma unplacedIndexes_placed (artifacts : List Artifact) (id : ProjectId) :
    unplacedIndexes z.files z.reactor ((artifacts.map z.placed).filter (isRelevant id)) =
      (artifacts.filter (isRelevant id)).mapM fun a =>
        (z.classesOf a).map fun declared => ⟨a.unplaced, .missing, declared⟩ := by
  have hfilter : (artifacts.map z.placed).filter (isRelevant id) =
      (artifacts.filter (isRelevant id)).map z.placed := by
    rw [List.filter_map]
    exact congrArg _ (List.filter_congr fun a _ => isRelevant_placed id a)
  rw [unplacedIndexes, ofArtifacts, map_mapM, hfilter, List.mapM_map]
  refine mapM_congr fun a _ => ?_
  rw [Function.comp_apply, unplaced_ofArtifact, unplaced_placed, classesOf]

lemma outputDir?_placed (r : Reactor) (a : Artifact) :
    r.outputDir? (z.placed a) = r.outputDir? a := by
  rw [Reactor.outputDir?, coordinates_placed, ← Reactor.outputDir?]

/-- Only artifacts of the sibling are read elsewhere. -/
lemma classesOf_withSibling_of_ne
    (h : a.coordinates.packaging.carriesClasses = true →
      a.coordinates.moduleKey ≠ sibling.id.moduleKey) :
    (z.withSibling sibling).classesOf a = z.classesOf a := by
  cases hpackaging : a.coordinates.packaging.carriesClasses with
  | false => simp [classesOf, sourceOf, hpackaging, withSibling]
  | true =>
    have houtput : (z.withSibling sibling).reactor.outputDir? a = z.reactor.outputDir? a :=
      Reactor.outputDir?_insert_of_ne (h hpackaging)
    have hplaced : (z.withSibling sibling).placed a = z.placed a := by
      rw [placed, placed, houtput]
      rfl
    rw [classesOf, classesOf, hplaced, sourceOf, sourceOf, outputDir?_placed, outputDir?_placed,
      houtput]
    rfl

/-- Artifacts of the sibling are read from its output directory. -/
lemma classesOf_withSibling (hpackaging : a.coordinates.packaging.carriesClasses = true)
    (hkey : a.coordinates.moduleKey = sibling.id.moduleKey) :
    (z.withSibling sibling).classesOf a =
      ClassIndex.classesOf z.files (.reactor sibling.outputDir) := by
  have houtput : (z.withSibling sibling).reactor.outputDir? a = some sibling.outputDir :=
    Reactor.outputDir?_insert hkey
  simp [classesOf, sourceOf, outputDir?_placed, hpackaging, houtput]
  rfl

end Analyzer

open Classification ClassIndex in
/-- An archive and a directory that hold the same classes declare the same, all but the anonymous
ones. So where the dependencies of a project on a sibling hold the classes of its output directory,
it makes no difference to the findings, nor to whether and why there are none, that their classes
are read from that directory. -/
theorem analyze_sibling (z : Analyzer) (classes : List NamedClass) (archive : Path)
    (sibling : Project) (harchive : HoldsArchive z.files archive classes)
    (hdirectory : HoldsDirectory z.files sibling.outputDir classes) :
    (∃ declared, inArchive z.files archive = .ok declared ∧
      inDirectory z.files sibling.outputDir = .ok declared ∧
      ∀ c, c ∈ declared ↔ (∃ k ∈ classes, k.className = c) ∧ c.isAnonymous = false) ∧
    ∀ project : Project,
      (∀ a ∈ project.direct ++ project.transitive, isRelevant project.id a = true →
        a.coordinates.packaging.carriesClasses = true →
        a.coordinates.moduleKey = sibling.id.moduleKey →
        Holds z.files classes (sourceOf z.files z.reactor (z.placed a))) →
      ((z.withSibling sibling).analyze project).result.map Findings.unplaced =
        (z.analyze project).result.map Findings.unplaced := by
  have hpacked : Holds z.files classes (.archive archive) := harchive
  have hunpacked : Holds z.files classes (.reactor sibling.outputDir) := hdirectory
  refine ⟨?_, fun project hproject => ?_⟩
  · obtain ⟨declared, hdeclared, hmem⟩ := hpacked.exists_classesOf
    exact ⟨declared, hdeclared, (hpacked.classesOf_eq hunpacked).symm.trans hdeclared, hmem⟩
  · -- artifacts of the sibling are read elsewhere, but the same is read there; others are not
    have hclasses : ∀ a ∈ project.direct ++ project.transitive, isRelevant project.id a = true →
        (z.withSibling sibling).classesOf a = z.classesOf a := by
      intro a ha hrelevant
      by_cases hsibling : a.coordinates.packaging.carriesClasses = true ∧
          a.coordinates.moduleKey = sibling.id.moduleKey
      · obtain ⟨hpackaging, hkey⟩ := hsibling
        have hholds := hproject a ha hrelevant hpackaging hkey
        rw [Analyzer.classesOf_withSibling hpackaging hkey, Analyzer.classesOf]
        exact hunpacked.classesOf_eq hholds
      · exact Analyzer.classesOf_withSibling_of_ne fun hpackaging hkey =>
          hsibling ⟨hpackaging, hkey⟩
    have hindexes : ∀ artifacts : List Artifact, artifacts ⊆ project.direct ++ project.transitive →
        unplacedIndexes z.files (z.withSibling sibling).reactor
            ((artifacts.map (z.withSibling sibling).placed).filter (isRelevant project.id)) =
          unplacedIndexes z.files z.reactor
            ((artifacts.map z.placed).filter (isRelevant project.id)) := by
      intro artifacts hsub
      rw [Analyzer.unplacedIndexes_placed]
      refine ((z.withSibling sibling).unplacedIndexes_placed artifacts project.id).trans ?_
      refine mapM_congr fun a ha => ?_
      rw [hclasses a (hsub (List.mem_of_mem_filter ha)) (List.of_mem_filter ha)]
    rw [Analyzer.result_analyze, Analyzer.result_analyze]
    exact classify_congr (hindexes _ (List.subset_append_left _ _))
      (hindexes _ (List.subset_append_right _ _))

/-! ### A library in both forms -/

namespace Archive

/-- A number in as many bytes, the least significant byte first. -/
def littleEndian : Nat → Nat → List UInt8
  | 0, _ => []
  | width + 1, n => UInt8.ofNat n :: littleEndian width (n / 256)

/-- Numbers one after the other, each behind its width. -/
def numbers (fields : List (Nat × Nat)) : List UInt8 :=
  fields.flatMap fun (width, n) => littleEndian width n

/-- A file that an archive holds as it is. -/
structure StoredFile where
  /-- Its name. -/
  name : String
  /-- Its bytes. -/
  data : List UInt8

namespace StoredFile

/-- What the header of a file and its entry in the directory have in common. -/
def fields (f : StoredFile) : List (Nat × Nat) :=
  [(2, 10), (2, 0), (2, storedMethod), (2, 0), (2, 0x21), (4, Crc32.ofBytes f.data),
    (4, f.data.length), (4, f.data.length), (2, (Utf8.encode f.name).length), (2, 0)]

/-- A file behind its header. -/
def packed (f : StoredFile) : List UInt8 :=
  numbers ((4, headerMark) :: f.fields) ++ Utf8.encode f.name ++ f.data

/-- The entry of a file whose header is at `offset`. -/
def listing (f : StoredFile) (offset : Nat) : List UInt8 :=
  numbers ((4, entryMark) :: (2, 10) :: f.fields ++
    [(2, 0), (2, 0), (2, 0), (4, 0), (4, offset)]) ++ Utf8.encode f.name

end StoredFile

/-- An archive of files. -/
def ofFiles (files : List StoredFile) : List UInt8 :=
  let packed := files.map StoredFile.packed
  let offsets := packed.scanl (fun n bytes => n + bytes.length) 0
  let directory := (files.zipWith StoredFile.listing offsets).flatten
  packed.flatten ++ directory ++ endMark ++
    numbers [(2, 0), (2, 0), (2, files.length), (2, files.length), (4, directory.length),
      (4, packed.flatten.length), (2, 0)]

end Archive

/-- The class `q.B` of a library. -/
def libraryClass : NamedClass where
  name := "q/B"
  content := (ClassFile.CompiledClass.extending "q/B" "r/C").encode.toArray
  named := by decide +kernel
  scannable := by decide +kernel
  segments := by decide

/-- An anonymous class in it. -/
def anonymousClass : NamedClass where
  name := "q/B$1"
  content := (ClassFile.CompiledClass.extending "q/B$1" "q/B").encode.toArray
  named := by decide +kernel
  scannable := by decide +kernel
  segments := by decide

/-- The library as an archive, with an entry for a directory. -/
def libraryArchive : Array UInt8 :=
  (Archive.ofFiles [⟨"q/", []⟩, ⟨libraryClass.path, libraryClass.content.toList⟩,
    ⟨anonymousClass.path, anonymousClass.content.toList⟩]).toArray

/-- The library as an archive and as a directory, and the classes of a project that uses it. -/
def libraryFiles : FileSystem where
  entries := .ofList
    [(["lib.jar"], Entry.file libraryArchive),
      (["lib"], Entry.directory),
      (["lib", "q"], Entry.directory),
      (["lib", "q", "B.class"], Entry.file libraryClass.content),
      (["lib", "q", "B$1.class"], Entry.file anonymousClass.content),
      (["lib", "q", "B.txt"], Entry.file #[]),
      (["out"], Entry.directory),
      (["out", "A.class"],
        Entry.file (ClassFile.CompiledClass.extending "p/A" "q/B").encode.toArray)]
  workingDir := []

lemma holdsArchive_libraryFiles :
    ClassIndex.HoldsArchive libraryFiles ⟨"/lib.jar"⟩ [libraryClass, anonymousClass] := by
  refine ⟨libraryArchive, [libraryClass.path, anonymousClass.path], rfl, by decide +kernel,
    by simp, fun stem hstem hmem => ?_⟩
  rw [List.mem_pair] at hmem
  rcases hmem with hmem | hmem
  · exact ⟨libraryClass, by simp, ((String.append_left_inj ".class").1 hmem).symm⟩
  · exact ⟨anonymousClass, by simp, ((String.append_left_inj ".class").1 hmem).symm⟩

lemma holdsDirectory_libraryFiles :
    ClassIndex.HoldsDirectory libraryFiles ⟨"/lib"⟩ [libraryClass, anonymousClass] := by
  have hplace : libraryFiles.locate ⟨"/lib"⟩ = .ok ["lib"] := by decide +kernel
  exact ClassIndex.holdsDirectory_of_below (by decide +kernel) hplace (by decide +kernel)
    (by decide +kernel) (by decide +kernel)

/-- The library, which comes from an archive. -/
def packedDependency : Artifact :=
  ⟨⟨"com.acme", "library", "1.0", .jar, none⟩, .compile, some ⟨"/lib.jar"⟩⟩

/-- The project that the library comes from. -/
def libraryProject : Project where
  id := ⟨"com.acme", "library", "1.0", .jar⟩
  outputDir := ⟨"/lib"⟩
  descriptor := none
  direct := []
  transitive := []

/-- A project that uses the library without declaring it. -/
def libraryUser : Project :=
  { sampleProject with transitive := [packedDependency] }

/-- The analysis in which the library comes from its archive. -/
def packedAnalyzer : Analyzer where
  files := libraryFiles
  repository := ⟨⟨"/repository"⟩⟩

theorem analyze_sibling_libraryUser :
    ∃ f f', (packedAnalyzer.analyze libraryUser).result = .ok f ∧
      ((packedAnalyzer.withSibling libraryProject).analyze libraryUser).result = .ok f' ∧
      f'.unplaced = f.unplaced ∧ f'.usedList = [(packedDependency, [⟨"q.B"⟩])] ∧
      ∃ declared, ClassIndex.inArchive libraryFiles ⟨"/lib.jar"⟩ = .ok declared ∧
        ClassIndex.inDirectory libraryFiles ⟨"/lib"⟩ = .ok declared ∧
        ∀ c, c ∈ declared ↔
          (∃ k ∈ [libraryClass, anonymousClass], k.className = c) ∧ c.isAnonymous = false := by
  obtain ⟨hdeclared, hfindings⟩ := analyze_sibling packedAnalyzer [libraryClass, anonymousClass]
    ⟨"/lib.jar"⟩ libraryProject holdsArchive_libraryFiles holdsDirectory_libraryFiles
  have hsource : ClassIndex.sourceOf libraryFiles .empty (packedAnalyzer.placed packedDependency) =
      .archive ⟨"/lib.jar"⟩ := by decide +kernel
  have hsame := hfindings libraryUser fun a ha _ _ _ => by
    obtain rfl := List.mem_singleton.1 ha
    show ClassIndex.Holds libraryFiles _ (ClassIndex.sourceOf libraryFiles .empty _)
    rw [hsource]
    exact holdsArchive_libraryFiles
  have hfound : ((packedAnalyzer.withSibling libraryProject).analyze
      libraryUser).result.toOption.map (·.usedList) =
      some [(packedDependency, [⟨"q.B"⟩])] := by decide +kernel
  cases hf' : ((packedAnalyzer.withSibling libraryProject).analyze libraryUser).result with
  | error failure =>
    rw [hf'] at hfound
    cases hfound
  | ok f' =>
    cases hf : (packedAnalyzer.analyze libraryUser).result with
    | error failure =>
      rw [hf, hf'] at hsame
      cases hsame
    | ok f =>
      rw [hf, hf'] at hsame
      rw [hf'] at hfound
      exact ⟨f, f', rfl, rfl, Except.ok.inj hsame, Option.some.inj hfound, hdeclared⟩

end ClasspathAudit
