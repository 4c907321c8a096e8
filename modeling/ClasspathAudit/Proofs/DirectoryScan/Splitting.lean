import Mathlib.Data.List.Perm.Basic
import ClasspathAudit.DirectoryScan
import ClasspathAudit.Proofs.ClassFile.WholeFormat
import ClasspathAudit.Proofs.Steps

/-
# Splitting the scan of a directory

The files of a directory may be scanned in parts, in any order and at the same time, and the parts
be merged two by two. Scans form a commutative monoid under merging, so a split that succeeds comes
to the scan of all classes together: every class declared, every class that a well-formed mention
names and no file of the directory declares, and the number of malformed mentions. If a file cannot
be read, each split fails, and with the failure of such a file.

The main result is `split_exact`.
-/
namespace ClasspathAudit

/-! ### What a class names -/

namespace ClassReferences

variable {k : ClassReferences} {mention : TypeUse} {r : Reference} {c : ClassName}

/-- Whether a well-formed mention of a class names another. -/
def Names (k : ClassReferences) (c : ClassName) : Prop :=
  ∃ mention ∈ k.typeUses, ∃ names, mention.classNames = .ok names ∧ c ∈ names

/-- Whether the text of a type use is malformed. -/
def isMalformed (mention : TypeUse) : Bool :=
  !mention.classNames.isOk

lemma ok_mem_expand : .ok r ∈ expand mention ↔
    r.kind = mention.kind ∧ ∃ names, mention.classNames = .ok names ∧ r.className ∈ names := by
  rw [expand]
  cases mention.classNames with
  | error e => simp
  | ok names =>
    obtain ⟨kind, name⟩ := r
    simp [and_comm, eq_comm]

lemma exists_ok_mem_references :
    (∃ r, .ok r ∈ k.references ∧ r.className = c) ↔ k.Names c := by
  simp only [references, List.mem_flatMap, ok_mem_expand, Names]
  constructor
  · rintro ⟨r, ⟨mention, hmention, -, names, hnames, hr⟩, rfl⟩
    exact ⟨mention, hmention, names, hnames, hr⟩
  · rintro ⟨mention, hmention, names, hnames, hc⟩
    exact ⟨⟨mention.kind, c⟩, ⟨mention, hmention, rfl, names, hnames, hc⟩, rfl⟩

lemma mem_referencedClasses :
    c ∈ k.referencedClasses.classes ↔ k.Names c ∧ k.isExternal c = true := by
  rw [← exists_ok_mem_references, referencedClasses, Std.ExtTreeSet.mem_ofList,
    List.contains_iff_mem, List.mem_filterMap]
  constructor
  · rintro ⟨reference, hreference, hc⟩
    cases reference with
    | error e => cases hc
    | ok r =>
      obtain ⟨hexternal, hc⟩ := Option.ite_none_right_eq_some.1 hc
      obtain rfl := Option.some.inj hc
      exact ⟨⟨r, hreference, rfl⟩, hexternal⟩
  · rintro ⟨⟨r, hr, rfl⟩, hexternal⟩
    exact ⟨.ok r, hr, if_pos hexternal⟩

lemma length_skipped :
    k.referencedClasses.skipped.length = k.typeUses.countP isMalformed := by
  simp only [referencedClasses, references]
  induction k.typeUses with
  | nil => rfl
  | cons mention mentions ih =>
    rw [List.flatMap_cons, List.filterMap_append, List.length_append, ih, List.countP_cons,
      Nat.add_comm, expand, isMalformed]
    cases mention.classNames <;> simp [Except.isOk, Except.toBool]

end ClassReferences

/-! ### Merging -/

namespace DirectoryScan

lemma eq_of_mem {a b : DirectoryScan} (hdeclared : ∀ c, c ∈ a.declared ↔ c ∈ b.declared)
    (hreferenced : ∀ c, c ∈ a.referenced ↔ c ∈ b.referenced)
    (hskipped : a.skippedSignatures = b.skippedSignatures) : a = b := by
  cases a
  cases b
  rw [DirectoryScan.mk.injEq]
  exact ⟨Std.ExtTreeSet.ext_mem hdeclared, Std.ExtTreeSet.ext_mem hreferenced, hskipped⟩

lemma merge_comm (a b : DirectoryScan) : a.merge b = b.merge a := by
  refine eq_of_mem (fun c => ?_) (fun c => ?_) (Nat.add_comm _ _) <;> simp [merge, or_comm]

lemma merge_assoc (a b c : DirectoryScan) : (a.merge b).merge c = a.merge (b.merge c) := by
  refine eq_of_mem (fun c => ?_) (fun c => ?_) (Nat.add_assoc _ _ _) <;> simp [merge, or_assoc]

lemma empty_merge (a : DirectoryScan) : empty.merge a = a := by
  refine eq_of_mem (fun c => ?_) (fun c => ?_) (Nat.zero_add _) <;> simp [merge, empty]

/-- The scans of several classes, merged one after the other. -/
def total (classes : List ClassReferences) : DirectoryScan :=
  classes.foldr (fun c scan => (ofClass c).merge scan) empty

lemma total_append (classes classes' : List ClassReferences) :
    total (classes ++ classes') = (total classes).merge (total classes') := by
  induction classes with
  | nil => exact (empty_merge _).symm
  | cons c classes ih =>
    show (ofClass c).merge (total (classes ++ classes')) = _
    rw [ih, ← merge_assoc]
    rfl

lemma total_perm {classes classes' : List ClassReferences} (h : classes.Perm classes') :
    total classes = total classes' := by
  have hcomm : LeftCommutative fun c scan => (ofClass c).merge scan :=
    ⟨fun c c' scan => by rw [← merge_assoc, merge_comm (ofClass c), merge_assoc]⟩
  exact h.foldr_eq empty

lemma ofClasses_eq (classes : List ClassReferences) :
    ofClasses classes = (total classes).external := by
  have hfoldl : ∀ scan : DirectoryScan,
      classes.foldl (fun scan c => scan.merge (ofClass c)) scan = scan.merge (total classes) := by
    induction classes with
    | nil =>
      intro scan
      show scan = scan.merge empty
      rw [merge_comm, empty_merge]
    | cons c classes ih =>
      intro scan
      rw [List.foldl_cons, ih, merge_assoc]
      rfl
  rw [ofClasses, hfoldl, empty_merge]

/-! ### The scan of several classes -/

/-- Whether a scan says what classes that make up a directory declare together, what they use and
do not declare, and how many of their mentions are malformed. -/
structure IsScanOf (classes : List ClassReferences) (scan : DirectoryScan) : Prop where
  declared : ∀ c, c ∈ scan.declared ↔ ∃ k ∈ classes, k.className = c
  referenced : ∀ c, c ∈ scan.referenced ↔
    (∃ k ∈ classes, k.Names c) ∧ (∀ k ∈ classes, k.className ≠ c) ∧ c.isAnonymous = false
  skipped : scan.skippedSignatures =
    (classes.flatMap (·.typeUses)).countP ClassReferences.isMalformed

variable {classes : List ClassReferences} {c : ClassName}

lemma mem_declared_total : c ∈ (total classes).declared ↔ ∃ k ∈ classes, k.className = c := by
  induction classes with
  | nil => simp [total, empty]
  | cons k classes ih =>
    have hcons : c ∈ (total (k :: classes)).declared ↔
        c ∈ (ofClass k).declared ∨ c ∈ (total classes).declared := Std.ExtTreeSet.mem_union_iff
    have hone : c ∈ (ofClass k).declared ↔ k.className = c := by
      rw [ofClass, Std.ExtTreeSet.mem_ofList, List.contains_iff_mem, List.mem_singleton, eq_comm]
    rw [hcons, hone, ih]
    simp

lemma mem_referenced_total :
    c ∈ (total classes).referenced ↔ ∃ k ∈ classes, k.Names c ∧ k.isExternal c = true := by
  induction classes with
  | nil => simp [total, empty]
  | cons k classes ih =>
    have hcons : c ∈ (total (k :: classes)).referenced ↔
        c ∈ (ofClass k).referenced ∨ c ∈ (total classes).referenced :=
      Std.ExtTreeSet.mem_union_iff
    rw [hcons, ih, ofClass, ClassReferences.mem_referencedClasses]
    simp

lemma skippedSignatures_total :
    (total classes).skippedSignatures =
      (classes.flatMap (·.typeUses)).countP ClassReferences.isMalformed := by
  induction classes with
  | nil => rfl
  | cons k classes ih =>
    rw [List.flatMap_cons, List.countP_append, ← ih, ← ClassReferences.length_skipped]
    rfl

/-- A class that is taken out of what one file uses, because it is that file's own, is taken out of
what the directory uses as well. -/
lemma isScanOf_total (classes : List ClassReferences) :
    IsScanOf classes (total classes).external where
  declared _ := mem_declared_total
  referenced c := by
    have hexternal : c ∈ (total classes).external.referenced ↔
        c ∈ (total classes).referenced ∧ c ∉ (total classes).declared := by
      rw [external, Std.ExtTreeSet.mem_filter]
      simp only [Std.ExtTreeSet.get_eq, exists_prop, Bool.not_eq_true', ← Bool.not_eq_true,
        Std.ExtTreeSet.contains_iff_mem]
    rw [hexternal, mem_referenced_total, mem_declared_total]
    simp only [ClassReferences.isExternal, Bool.and_eq_true, bne_iff_ne, Bool.not_eq_true']
    constructor
    · rintro ⟨⟨k, hk, hnames, -, hanonymous⟩, hdeclared⟩
      exact ⟨⟨k, hk, hnames⟩, fun k' hk' heq => hdeclared ⟨k', hk', heq⟩, hanonymous⟩
    · rintro ⟨⟨k, hk, hnames⟩, hdeclared, hanonymous⟩
      refine ⟨⟨k, hk, hnames, (hdeclared k hk).symm, hanonymous⟩, ?_⟩
      rintro ⟨k', hk', heq⟩
      exact hdeclared k' hk' heq
  skipped := skippedSignatures_total

/-! ### Splits -/

/-- A way to split the scan of some files into parts that are merged two by two. Parts without a
file may stand anywhere. -/
inductive Split
  /-- No file. -/
  | nothing
  /-- A file. -/
  | file (path : Path)
  /-- Two parts, whose scans are merged. -/
  | both (first second : Split)

namespace Split

variable {fs : FileSystem} {split : Split} {scan : DirectoryScan} {failure : Failure}

/-- The files of a split, from the first to the last. -/
def files : Split → List Path
  | nothing => []
  | file path => [path]
  | both first second => first.files ++ second.files

/-- What a split may come to. Parts are scanned at the same time: if one of them fails, its failure
may be reported whatever the other comes to, and if both do, either may. -/
inductive ComesTo (fs : FileSystem) : Split → Except Failure DirectoryScan → Prop
  | nothing : ComesTo fs nothing (.ok empty)
  | file (path : Path) : ComesTo fs (file path) ((readClass fs path).map ofClass)
  | both {first second : Split} {a b : DirectoryScan} :
    ComesTo fs first (.ok a) → ComesTo fs second (.ok b) →
      ComesTo fs (both first second) (.ok (a.merge b))
  | firstFails {first second : Split} {failure : Failure} :
    ComesTo fs first (.error failure) → ComesTo fs (both first second) (.error failure)
  | secondFails {first second : Split} {failure : Failure} :
    ComesTo fs second (.error failure) → ComesTo fs (both first second) (.error failure)

lemma comesTo_file_iff {path : Path} {result : Except Failure DirectoryScan} :
    (file path).ComesTo fs result ↔ (readClass fs path).map ofClass = result := by
  constructor
  · rintro ⟨⟩
    rfl
  · rintro rfl
    exact .file path

/-- A split that succeeds has read all its files and comes to their classes together. -/
lemma comesTo_ok_iff : split.ComesTo fs (.ok scan) ↔
    ∃ classes, split.files.mapM (readClass fs) = .ok classes ∧ total classes = scan := by
  induction split generalizing scan with
  | nothing =>
    constructor
    · rintro ⟨⟩
      exact ⟨[], rfl, rfl⟩
    · rintro ⟨classes, hread, rfl⟩
      obtain rfl : [] = classes := Except.ok.inj hread
      exact .nothing
  | file path =>
    have hone : ∀ c, total [c] = ofClass c := fun c => by
      show (ofClass c).merge empty = _
      rw [merge_comm, empty_merge]
    rw [comesTo_file_iff, files, List.mapM_cons]
    cases readClass fs path with
    | error failure => simp [Except.map, bind, Except.bind]
    | ok c => simp [Except.map, bind, Except.bind, pure, Except.pure, hone]
  | both first second ihfirst ihsecond =>
    rw [files, List.mapM_append]
    constructor
    · rintro ⟨⟩
      rename_i a b hfirst hsecond
      obtain ⟨classes, hread, rfl⟩ := ihfirst.1 hfirst
      obtain ⟨classes', hread', rfl⟩ := ihsecond.1 hsecond
      exact ⟨classes ++ classes', by rw [hread, hread']; rfl, total_append _ _⟩
    · rintro ⟨classes, hread, rfl⟩
      obtain ⟨classes₁, hfirst, hread⟩ := exists_of_bind_eq_ok hread
      obtain ⟨classes₂, hsecond, hread⟩ := exists_of_bind_eq_ok hread
      obtain rfl : classes₁ ++ classes₂ = classes := Except.ok.inj hread
      rw [total_append]
      exact .both (ihfirst.2 ⟨_, hfirst, rfl⟩) (ihsecond.2 ⟨_, hsecond, rfl⟩)

/-- A split may fail as each of its files does, and in no other way. -/
lemma comesTo_error_iff : split.ComesTo fs (.error failure) ↔
    ∃ path ∈ split.files, readClass fs path = .error failure := by
  induction split with
  | nothing =>
    constructor
    · rintro ⟨⟩
    · rintro ⟨path, hpath, -⟩
      cases hpath
  | file path =>
    rw [comesTo_file_iff]
    simp only [files, List.mem_singleton, exists_eq_left]
    cases readClass fs path <;> simp [Except.map]
  | both first second ihfirst ihsecond =>
    simp only [files, List.mem_append, or_and_right, exists_or, ← ihfirst, ← ihsecond]
    constructor
    · rintro (_ | _ | _ | h | h)
      · exact .inl h
      · exact .inr h
    · rintro (h | h)
      · exact .firstFails h
      · exact .secondFails h

end Split

/-! ### The scan of a directory -/

lemma ofDirectory_eq {fs : FileSystem} {root : Path} {files : List Path}
    (hroot : fs.isDirectory root = true) (hfiles : fs.classFiles root = .ok files) :
    ofDirectory fs root = (files.mapM (readClass fs)).map ofClasses := by
  rw [ofDirectory, if_pos hroot, hfiles]
  show (files.mapM (readClass fs) >>= fun classes => pure (ofClasses classes)) = _
  cases files.mapM (readClass fs) <;> rfl

/-- However the scan of files is split, and in whatever order they come, it succeeds if and only if
each of them can be read, and comes to the scan of the classes in them; and it fails as one of the
files does. The scan of a directory is one of these. -/
theorem split_exact (fs : FileSystem) (split : Split) (files : List Path)
    (h : split.files.Perm files) :
    ((∃ scan, split.ComesTo fs (.ok scan)) ↔ ∀ path ∈ files, ∃ c, readClass fs path = .ok c) ∧
    (∀ scan, split.ComesTo fs (.ok scan) → ∃ classes,
      files.mapM (readClass fs) = .ok classes ∧ IsScanOf classes scan.external) ∧
    (∀ failure, split.ComesTo fs (.error failure) ↔
      ∃ path ∈ files, readClass fs path = .error failure) ∧
    ∀ root, fs.isDirectory root = true → fs.classFiles root = .ok files →
      ∃ result, split.ComesTo fs result ∧ ofDirectory fs root = result.map external := by
  have hok : ∀ scan, split.ComesTo fs (.ok scan) ↔
      ∃ classes, files.mapM (readClass fs) = .ok classes ∧ total classes = scan := by
    intro scan
    rw [Split.comesTo_ok_iff]
    constructor
    · rintro ⟨classes, hread, rfl⟩
      obtain ⟨classes', hread', hperm⟩ := exists_perm_of_mapM_eq_ok h hread
      exact ⟨classes', hread', total_perm hperm⟩
    · rintro ⟨classes, hread, rfl⟩
      obtain ⟨classes', hread', hperm⟩ := exists_perm_of_mapM_eq_ok h.symm hread
      exact ⟨classes', hread', total_perm hperm⟩
  have herror : ∀ failure, split.ComesTo fs (.error failure) ↔
      ∃ path ∈ files, readClass fs path = .error failure := by
    intro failure
    rw [Split.comesTo_error_iff]
    simp only [h.mem_iff]
  refine ⟨?_, fun scan hscan => ?_, herror, fun root hroot hfiles => ?_⟩
  · simp only [hok]
    constructor
    · rintro ⟨scan, classes, hread, -⟩ path hpath
      exact exists_of_mapM_eq_ok hread hpath
    · intro hread
      obtain ⟨classes, hclasses⟩ := exists_mapM_eq_ok hread
      exact ⟨_, classes, hclasses, rfl⟩
  · obtain ⟨classes, hread, rfl⟩ := (hok scan).1 hscan
    exact ⟨classes, hread, isScanOf_total classes⟩
  · rw [ofDirectory_eq hroot hfiles]
    cases hread : files.mapM (readClass fs) with
    | ok classes =>
      exact ⟨_, (hok _).2 ⟨classes, hread, rfl⟩, congrArg Except.ok (ofClasses_eq classes)⟩
    | error failure =>
      exact ⟨.error failure, (herror failure).2 (exists_of_mapM_eq_error hread), rfl⟩

/-! ### A directory of two classes -/

/-- The class `p.A` and its superclass `p.B`, which itself extends a class from elsewhere. -/
def samplePackage : FileSystem where
  entries := .ofList
    [(["out"], Entry.directory),
      (["out", "A.class"],
        Entry.file (ClassFile.CompiledClass.extending "p/A" "p/B").encode.toArray),
      (["out", "B.class"],
        Entry.file (ClassFile.CompiledClass.extending "p/B" "q/C").encode.toArray)]
  workingDir := []

/-- The second class first, with an empty part in between. -/
def sampleSplit : Split :=
  .both (.file ⟨"/out/B.class"⟩) (.both .nothing (.file ⟨"/out/A.class"⟩))

theorem split_exact_samplePackage :
    sampleSplit.files.Perm [⟨"/out/A.class"⟩, ⟨"/out/B.class"⟩] ∧
    samplePackage.isDirectory ⟨"/out"⟩ = true ∧
    samplePackage.classFiles ⟨"/out"⟩ = .ok [⟨"/out/A.class"⟩, ⟨"/out/B.class"⟩] ∧
    ∃ scan classes, sampleSplit.ComesTo samplePackage (.ok scan) ∧
      ofDirectory samplePackage ⟨"/out"⟩ = .ok scan.external ∧
      IsScanOf classes scan.external ∧ scan.external.referenced.toList = [⟨"q.C"⟩] := by
  have hperm : sampleSplit.files.Perm [⟨"/out/A.class"⟩, ⟨"/out/B.class"⟩] := by decide +kernel
  have hroot : samplePackage.isDirectory ⟨"/out"⟩ = true := by decide +kernel
  have hfiles : samplePackage.classFiles ⟨"/out"⟩ = .ok [⟨"/out/A.class"⟩, ⟨"/out/B.class"⟩] := by
    decide +kernel
  have hfound : (ofDirectory samplePackage ⟨"/out"⟩).toOption.map (·.referenced.toList) =
      some [⟨"q.C"⟩] := by decide +kernel
  obtain ⟨-, hok, -, hdirectory⟩ := split_exact samplePackage sampleSplit _ hperm
  obtain ⟨result, hresult, hscan⟩ := hdirectory _ hroot hfiles
  rw [hscan] at hfound
  cases result with
  | error failure => cases hfound
  | ok scan =>
    obtain ⟨classes, -, hexact⟩ := hok scan hresult
    exact ⟨hperm, hroot, hfiles, scan, classes, hresult, hscan, hexact, Option.some.inj hfound⟩

end DirectoryScan
end ClasspathAudit
