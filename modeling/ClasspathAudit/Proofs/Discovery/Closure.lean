import Mathlib.Data.Finset.Card
import Mathlib.Data.List.Nodup
import Mathlib.Data.List.Perm.Basic
import Mathlib.Tactic.Common
import ClasspathAudit.Discovery
import ClasspathAudit.Proofs.Descriptor.Entries

/-
# What a search for projects finds

A search reads the descriptors at its start paths, then the modules that these list, round by round,
until a round brings up nothing new. Modules may list one another, themselves, or the descriptor
that lists them, and one file may be met under many paths; it is read under the first of them. The
search comes to an end because each round but the first reads a file that no round before it has
read, and there are no more rounds than files.

What is read is then the closure of the start paths: all files that are reached from them through
lists of modules, and no others. The main result is `ofPaths_closure`.
-/
namespace ClasspathAudit
namespace Discovery

variable {fs : FileSystem} {d d' found : Discovery} {path : Path} {pending read : List Path}

/-! ### What a descriptor gives -/

/-- The modules that the descriptor at a path lists; a file that is no descriptor lists none. -/
def modulesAt (fs : FileSystem) (path : Path) : List Path :=
  match Descriptor.ofFile fs path with
  | .ok descriptor => (loadDescriptor fs path descriptor).modules
  | .error _ => []

/-- The project that the descriptor at a path describes, if it is a descriptor and describes one. -/
def projectAt? (fs : FileSystem) (path : Path) : Option Project :=
  match Descriptor.ofFile fs path with
  | .ok descriptor =>
    match descriptor.toProject path with
    | .ok project => project
    | .error _ => none
  | .error _ => none

lemma modules_load (fs : FileSystem) (path : Path) :
    (load fs path).modules = modulesAt fs path := by
  rw [load, modulesAt]
  cases Descriptor.ofFile fs path <;> rfl

lemma project_load (fs : FileSystem) (path : Path) :
    (load fs path).project = projectAt? fs path := by
  rw [load, projectAt?]
  cases Descriptor.ofFile fs path with
  | error failure => rfl
  | ok descriptor =>
    dsimp only [loadDescriptor]
    cases descriptor.toProject path <;> rfl

/-- A project knows the path of its descriptor. -/
lemma descriptor_of_projectAt? {p : Project} (h : projectAt? fs path = some p) :
    p.descriptor = some path := by
  rw [projectAt?] at h
  cases hfile : Descriptor.ofFile fs path with
  | error failure =>
    rw [hfile] at h
    cases h
  | ok descriptor =>
    rw [hfile] at h
    dsimp only at h
    cases hproject : descriptor.toProject path with
    | error failure =>
      rw [hproject] at h
      cases h
    | ok project =>
      rw [hproject] at h
      obtain rfl : project = some p := h
      exact Descriptor.descriptor_of_toProject hproject

/-! ### Files -/

/-- The paths from the root to all that lies in the file system. -/
def places (fs : FileSystem) : List Path :=
  fs.entries.toList.map fun entry => FileSystem.pathOf entry.1

lemma canonical_mem_places (h : fs.isFile path = true) : fs.canonical path ∈ places fs := by
  rw [FileSystem.isFile, FileSystem.find?] at h
  rw [FileSystem.canonical]
  cases hplace : fs.locate path with
  | error fault => simp [hplace] at h
  | ok place =>
    rw [hplace] at h
    dsimp only at h ⊢
    cases hentry : fs.entry? place with
    | none => simp [hentry] at h
    | some entry =>
      rw [hentry] at h
      rw [FileSystem.entry?] at hentry
      split at hentry
      · obtain rfl := Option.some.inj hentry
        cases h
      · have hmem := Std.ExtTreeMap.mem_toList_iff_getElem?_eq_some.2 hentry
        exact List.mem_map.2 ⟨(place, entry), hmem, rfl⟩

lemma isFile_of_moduleDescriptor? {dir : Path} (h : moduleDescriptor? fs dir = some path) :
    fs.isFile path = true := by
  obtain ⟨hfile, heq⟩ := Option.ite_none_right_eq_some.1 h
  exact Option.some.inj heq ▸ hfile

lemma isFile_of_mem_expandModule {root m : Path} {entry : String} {paths : List Path}
    (h : expandModule fs root entry = .ok paths) (hm : m ∈ paths) : fs.isFile m = true := by
  rw [expandModule] at h
  split at h
  · split at h
    · obtain rfl := Except.ok.inj h
      obtain ⟨dir, -, hdir⟩ := List.mem_filterMap.1 hm
      exact isFile_of_moduleDescriptor? hdir
    · cases h
  · split at h
    · rename_i hdir
      obtain rfl := Except.ok.inj h
      obtain rfl := List.mem_singleton.1 hm
      exact isFile_of_moduleDescriptor? hdir
    · cases h

/-- Each module that a descriptor gives comes from one of the entries that list its modules. -/
lemma exists_of_mem_modules {m : Path} {d : Descriptor}
    (h : m ∈ (loadDescriptor fs path d).modules) : ∃ entry ∈ d.modules, ∃ paths,
      expandModule fs (Descriptor.baseOf path) entry = .ok paths ∧ m ∈ paths := by
  dsimp only [loadDescriptor] at h
  -- The modules are the same whether or not the descriptor gives a project.
  cases hproject : d.toProject path
  all_goals
    rw [hproject] at h
    obtain ⟨expansion, hexpansion, hm⟩ := List.mem_flatMap.1 h
    obtain ⟨entry, hentry, rfl⟩ := List.mem_map.1 hexpansion
    cases hpaths : expandModule fs (Descriptor.baseOf path) entry with
    | error note =>
      rw [hpaths] at hm
      cases hm
    | ok paths =>
      rw [hpaths] at hm
      exact ⟨entry, hentry, paths, hpaths, hm⟩

/-- Each module that a descriptor lists has a descriptor file. -/
lemma isFile_of_mem_modulesAt {m : Path} (h : m ∈ modulesAt fs path) : fs.isFile m = true := by
  rw [modulesAt] at h
  cases hfile : Descriptor.ofFile fs path with
  | error failure =>
    rw [hfile] at h
    cases h
  | ok descriptor =>
    rw [hfile] at h
    obtain ⟨entry, -, paths, hpaths, hm⟩ := exists_of_mem_modules h
    exact isFile_of_mem_expandModule hpaths hm

lemma forall_isFile_modules (fresh : List Path) :
    ∀ m ∈ fresh.flatMap (modulesAt fs), fs.isFile m = true := by
  intro m hm
  obtain ⟨p, -, hm⟩ := List.mem_flatMap.1 hm
  exact isFile_of_mem_modulesAt hm

/-! ### Paths that are new -/

lemma mem_of_mem_unseen {seen : List Path} (h : path ∈ unseen fs seen pending) :
    path ∈ pending := by
  induction pending generalizing seen with
  | nil => exact h
  | cons p pending ih =>
    dsimp only [unseen] at h
    split at h
    · exact List.mem_cons_of_mem _ (ih h)
    · exact (List.mem_cons.1 h).elim (fun heq => heq ▸ List.mem_cons_self)
        fun h => List.mem_cons_of_mem _ (ih h)

lemma canonical_notMem_of_mem_unseen {seen : List Path} (h : path ∈ unseen fs seen pending) :
    fs.canonical path ∉ seen := by
  induction pending generalizing seen with
  | nil => cases h
  | cons p pending ih =>
    dsimp only [unseen] at h
    split at h
    · exact ih h
    · rename_i hnew
      rcases List.mem_cons.1 h with rfl | h
      · simpa using hnew
      · exact fun hseen => ih h (List.mem_append_left _ hseen)

lemma nodup_unseen {seen : List Path} (h : seen.Nodup) :
    (seen ++ (unseen fs seen pending).map fs.canonical).Nodup := by
  induction pending generalizing seen with
  | nil => simpa [unseen] using h
  | cons p pending ih =>
    dsimp only [unseen]
    split
    · exact ih h
    · rename_i hnew
      have hplace : (seen ++ [fs.canonical p]).Nodup := by
        rw [List.nodup_append_comm]
        exact List.nodup_cons.2 ⟨by simpa using hnew, h⟩
      simpa using ih hplace

/-- Each of the paths leads to what has been seen before, or to what is seen now. -/
lemma canonical_mem_unseen {seen : List Path} (h : path ∈ pending) :
    fs.canonical path ∈ seen ++ (unseen fs seen pending).map fs.canonical := by
  induction pending generalizing seen with
  | nil => cases h
  | cons p pending ih =>
    dsimp only [unseen]
    split
    · rename_i hseen
      rcases List.mem_cons.1 h with rfl | h
      · exact List.mem_append_left _ (by simpa using hseen)
      · exact ih h
    · rcases List.mem_cons.1 h with rfl | h
      · simp
      · have hmem : fs.canonical path ∈ (seen ++ [fs.canonical p]) ++
            (unseen fs (seen ++ [fs.canonical p]) pending).map fs.canonical := ih h
        simpa using hmem

/-! ### Rounds -/

/-- What is known once some descriptors have been read. -/
def readAll (fs : FileSystem) (d : Discovery) (fresh : List Path) : Discovery :=
  d.addAll fs fresh (fresh.map (load fs))

@[simp] lemma seen_readAll (fresh : List Path) :
    (readAll fs d fresh).seen = d.seen ++ fresh.map fs.canonical := rfl

lemma projects_readAll (fresh : List Path) :
    (readAll fs d fresh).projects = d.projects ++ fresh.filterMap (projectAt? fs) := by
  simp only [readAll, addAll, List.filterMap_map, ← project_load]
  rfl

lemma readAll_nil : readAll fs d [] = d := by
  simp [readAll, addAll]

/-- The rounds of a search from some pending descriptors to the end: those that are new are read,
and the modules that they list are pending in the next round. The paths under which descriptors are
read are listed in order. -/
inductive Rounds (fs : FileSystem) : Discovery → List Path → List Path → Discovery → Prop
  | done (d : Discovery) : Rounds fs d [] [] d
  | round {d found : Discovery} {pending read : List Path} : pending ≠ [] →
    Rounds fs (readAll fs d (unseen fs d.seen pending))
      ((unseen fs d.seen pending).flatMap (modulesAt fs)) read found →
    Rounds fs d pending (unseen fs d.seen pending ++ read) found

/-- The search at each of some start paths, one after the other. -/
inductive Searches (fs : FileSystem) : Discovery → List Path → List Path → Discovery → Prop
  | done (d : Discovery) : Searches fs d [] [] d
  | missing {d found : Discovery} {path : Path} {paths read : List Path} :
    fs.contains path = false →
    Searches fs { d with notes := d.notes ++ [.warning s!"Path '{path.text}' does not exist"] }
      paths read found →
    Searches fs d (path :: paths) read found
  | path {d d' found : Discovery} {path : Path} {paths read read' : List Path} :
    fs.contains path = true → Rounds fs d (startingAt fs path) read d' →
    Searches fs d' paths read' found → Searches fs d (path :: paths) (read ++ read') found

/-! ### The search comes to an end -/

lemma rounds_of_unseen_eq_nil (h : unseen fs d.seen pending = []) : Rounds fs d pending [] d := by
  cases pending with
  | nil => exact .done d
  | cons path pending =>
    have hround : Rounds fs d (path :: pending) (unseen fs d.seen (path :: pending) ++ []) d := by
      refine .round (List.cons_ne_nil _ _) ?_
      rw [h, readAll_nil]
      exact .done d
    rwa [h] at hround

/-- A round that reads `fresh`. -/
lemma Rounds.of_unseen_eq {fresh : List Path} (hfresh : unseen fs d.seen pending = fresh)
    (hpending : pending ≠ [])
    (h : Rounds fs (readAll fs d fresh) (fresh.flatMap (modulesAt fs)) read found) :
    Rounds fs d pending (fresh ++ read) found := by
  subst hfresh
  exact .round hpending h

lemma follow_succ_of_unseen_ne_nil {budget : Nat} (h : unseen fs d.seen pending ≠ []) :
    follow fs (budget + 1) d pending =
      follow fs budget (readAll fs d (unseen fs d.seen pending))
        ((unseen fs d.seen pending).flatMap (modulesAt fs)) := by
  rw [follow]
  split
  · contradiction
  · simp only [List.flatMap_map, modules_load]
    rfl

/-- A round that reads a file is followed by those that go on from its modules. -/
lemma exists_rounds_succ {budget : Nat} (hne : unseen fs d.seen pending ≠ [])
    (h : ∃ read, Rounds fs (readAll fs d (unseen fs d.seen pending))
      ((unseen fs d.seen pending).flatMap (modulesAt fs)) read
      (follow fs budget (readAll fs d (unseen fs d.seen pending))
        ((unseen fs d.seen pending).flatMap (modulesAt fs)))) :
    ∃ read, Rounds fs d pending read (follow fs (budget + 1) d pending) := by
  obtain ⟨read, hread⟩ := h
  rw [follow_succ_of_unseen_ne_nil hne]
  exact ⟨_, .round (fun hnil => hne (by rw [hnil]; rfl)) hread⟩

/-- The places that have not been seen. -/
def unseenPlaces (fs : FileSystem) (seen : List Path) : Finset Path :=
  (places fs).toFinset \ seen.toFinset

/-- A round that reads a file leaves fewer places that have not been seen. -/
lemma card_unseenPlaces_lt (hfiles : ∀ p ∈ pending, fs.isFile p = true)
    (h : unseen fs d.seen pending ≠ []) :
    (unseenPlaces fs (readAll fs d (unseen fs d.seen pending)).seen).card <
      (unseenPlaces fs d.seen).card := by
  obtain ⟨p, hp⟩ := List.exists_mem_of_ne_nil _ h
  have hplace : fs.canonical p ∈ places fs := canonical_mem_places (hfiles p (mem_of_mem_unseen hp))
  have hnew : fs.canonical p ∉ d.seen := canonical_notMem_of_mem_unseen hp
  refine Finset.card_lt_card ((Finset.ssubset_iff_of_subset fun q hq => ?_).2
    ⟨fs.canonical p, ?_, ?_⟩)
  · simp only [unseenPlaces, Finset.mem_sdiff, List.mem_toFinset, seen_readAll, List.mem_append,
      not_or] at hq ⊢
    exact ⟨hq.1, hq.2.1⟩
  · simp [unseenPlaces, hplace, hnew]
  · simp only [unseenPlaces, Finset.mem_sdiff, List.mem_toFinset, seen_readAll, List.mem_append,
      not_and, not_not]
    exact fun _ => .inr (List.mem_map_of_mem hp)

/-- Where only files are pending, a budget of one round for each place that has not been seen is
enough. -/
lemma exists_rounds_of_isFile {budget : Nat} (hfiles : ∀ p ∈ pending, fs.isFile p = true)
    (hbudget : (unseenPlaces fs d.seen).card ≤ budget) :
    ∃ read, Rounds fs d pending read (follow fs budget d pending) := by
  induction budget generalizing d pending with
  | zero =>
    refine ⟨[], rounds_of_unseen_eq_nil ?_⟩
    by_contra hne
    exact absurd (card_unseenPlaces_lt hfiles hne) (by omega)
  | succ budget ih =>
    by_cases hne : unseen fs d.seen pending = []
    · rw [follow, hne]
      exact ⟨[], rounds_of_unseen_eq_nil hne⟩
    · have hfewer := card_unseenPlaces_lt hfiles hne
      exact exists_rounds_succ hne (ih (forall_isFile_modules _) (by omega))

/-- What is pending in the first round may be no file; from then on only files are. -/
lemma exists_rounds (d : Discovery) (pending : List Path) :
    ∃ read, Rounds fs d pending read (follow fs (fs.entries.size + 1) d pending) := by
  by_cases hne : unseen fs d.seen pending = []
  · rw [follow, hne]
    exact ⟨[], rounds_of_unseen_eq_nil hne⟩
  · have hplaces : ∀ seen, (unseenPlaces fs seen).card ≤ fs.entries.size := fun seen =>
      calc (unseenPlaces fs seen).card
        _ ≤ (places fs).toFinset.card := Finset.card_le_card Finset.sdiff_subset
        _ ≤ (places fs).length := List.toFinset_card_le _
        _ = fs.entries.size := by rw [places, List.length_map, Std.ExtTreeMap.length_toList]
    exact exists_rounds_succ hne (exists_rounds_of_isFile (forall_isFile_modules _) (hplaces _))

lemma exists_searches (fs : FileSystem) (d : Discovery) (paths : List Path) :
    ∃ read, Searches fs d paths read (paths.foldl (addPath fs) d) := by
  induction paths generalizing d with
  | nil => exact ⟨[], .done d⟩
  | cons path paths ih =>
    rw [List.foldl_cons, addPath]
    split
    · rename_i hthere
      obtain ⟨read, hread⟩ := exists_rounds d (startingAt fs path)
      obtain ⟨read', hread'⟩ := ih (follow fs (fs.entries.size + 1) d (startingAt fs path))
      exact ⟨read ++ read', .path hthere hread hread'⟩
    · rename_i hmissing
      obtain ⟨read, hread⟩ := ih
        { d with notes := d.notes ++ [.warning s!"Path '{path.text}' does not exist"] }
      exact ⟨read, .missing (Bool.not_eq_true _ ▸ hmissing) hread⟩

/-! ### What a search has read -/

/-- What a search from some descriptors has come to when it ends. -/
structure Extends (fs : FileSystem) (d : Discovery) (starts read : List Path) (found : Discovery) :
    Prop where
  /-- What is read is seen. -/
  seen : found.seen = d.seen ++ read.map fs.canonical
  /-- Each descriptor that is read gives its project, if it has one. -/
  projects : found.projects = d.projects ++ read.filterMap (projectAt? fs)
  /-- Nothing is read twice. -/
  nodup : d.seen.Nodup → found.seen.Nodup
  /-- All descriptors from which the search started are seen. -/
  startsSeen : ∀ p ∈ starts, fs.canonical p ∈ found.seen
  /-- All modules of descriptors that are read are seen. -/
  modulesSeen : ∀ p ∈ read, ∀ m ∈ modulesAt fs p, fs.canonical m ∈ found.seen
  /-- What is read was among the first descriptors, or is a module of one that is read. -/
  origin : ∀ P : Path → Prop, (∀ p ∈ starts, P (fs.canonical p)) →
    (∀ p ∈ read, P (fs.canonical p) → ∀ m ∈ modulesAt fs p, P (fs.canonical m)) →
    ∀ p ∈ read, P (fs.canonical p)

namespace Extends

variable {starts starts' read' : List Path}

lemma refl (d : Discovery) : Extends fs d [] [] d := by
  refine ⟨by simp, by simp, id, by simp, by simp, by simp⟩

lemma seen_subset (h : Extends fs d starts read found) : d.seen ⊆ found.seen := by
  rw [h.seen]
  exact List.subset_append_left _ _

lemma append (h : Extends fs d starts read d') (h' : Extends fs d' starts' read' found) :
    Extends fs d (starts ++ starts') (read ++ read') found where
  seen := by rw [h'.seen, h.seen, List.map_append, List.append_assoc]
  projects := by rw [h'.projects, h.projects, List.filterMap_append, List.append_assoc]
  nodup hd := h'.nodup (h.nodup hd)
  startsSeen p hp := (List.mem_append.1 hp).elim
    (fun hp => h'.seen_subset (h.startsSeen p hp)) (h'.startsSeen p)
  modulesSeen p hp m hm := (List.mem_append.1 hp).elim
    (fun hp => h'.seen_subset (h.modulesSeen p hp m hm)) (fun hp => h'.modulesSeen p hp m hm)
  origin P hstarts hmodules p hp := by
    rcases List.mem_append.1 hp with hp | hp
    · exact h.origin P (fun p hp => hstarts p (List.mem_append_left _ hp))
        (fun p hp => hmodules p (List.mem_append_left _ hp)) p hp
    · exact h'.origin P (fun p hp => hstarts p (List.mem_append_right _ hp))
        (fun p hp => hmodules p (List.mem_append_right _ hp)) p hp

end Extends

/-- A round reads what is pending and new; the rest of the search starts from its modules. -/
lemma Rounds.extends (h : Rounds fs d pending read found) : Extends fs d pending read found := by
  induction h with
  | done d => exact .refl d
  | @round d found pending read _ _ ih =>
    set fresh := unseen fs d.seen pending with hfresh
    refine ⟨?_, ?_, fun hd => ih.nodup (nodup_unseen hd), fun p hp => ?_, fun p hp m hm => ?_,
      fun P hpending hmodules p hp => ?_⟩
    · rw [ih.seen, seen_readAll, List.map_append, List.append_assoc]
    · rw [ih.projects, projects_readAll, List.filterMap_append, List.append_assoc]
    · exact ih.seen_subset (canonical_mem_unseen hp)
    · rcases List.mem_append.1 hp with hp | hp
      · exact ih.startsSeen m (List.mem_flatMap.2 ⟨p, hp, hm⟩)
      · exact ih.modulesSeen p hp m hm
    · have hfreshP : ∀ p ∈ fresh, P (fs.canonical p) :=
        fun p hp => hpending p (mem_of_mem_unseen hp)
      rcases List.mem_append.1 hp with hp | hp
      · exact hfreshP p hp
      · refine ih.origin P (fun m hm => ?_)
          (fun p hp => hmodules p (List.mem_append_right _ hp)) p hp
        obtain ⟨p, hp, hm⟩ := List.mem_flatMap.1 hm
        exact hmodules p (List.mem_append_left _ hp) (hfreshP p hp) m hm

/-- The descriptors from which a search at some paths starts. -/
def startsOf (fs : FileSystem) (paths : List Path) : List Path :=
  (paths.filter fs.contains).flatMap (startingAt fs)

lemma Searches.extends {paths : List Path} (h : Searches fs d paths read found) :
    Extends fs d (startsOf fs paths) read found := by
  induction h with
  | done d => exact .refl d
  | missing hmissing _ ih =>
    rw [startsOf, List.filter_cons_of_neg (by simp [hmissing])]
    exact ⟨ih.seen, ih.projects, ih.nodup, ih.startsSeen, ih.modulesSeen, ih.origin⟩
  | path hthere hrounds _ ih =>
    rw [startsOf, List.filter_cons_of_pos hthere, List.flatMap_cons]
    exact hrounds.extends.append ih

/-! ### Reachable files -/

/-- Whether the descriptor at a path lists the modules that `lists` says its file lists. -/
def ListsAs (fs : FileSystem) (lists : Path → Path → Prop) (path : Path) : Prop :=
  ∀ file, lists (fs.canonical path) file ↔ ∃ m ∈ modulesAt fs path, fs.canonical m = file

/-- The files that are reached from some descriptors through lists of modules. -/
inductive Reachable (fs : FileSystem) (lists : Path → Path → Prop) (starts : List Path) :
    Path → Prop
  | start {path : Path} : path ∈ starts → Reachable fs lists starts (fs.canonical path)
  | module {file module : Path} : Reachable fs lists starts file → lists file module →
    Reachable fs lists starts module

/-- A search from nothing reads the files that are reachable, and no others. -/
lemma Extends.mem_read_iff {lists : Path → Path → Prop} {starts : List Path} {file : Path}
    (h : Extends fs empty starts read found) (hlists : ∀ p ∈ read, ListsAs fs lists p) :
    file ∈ read.map fs.canonical ↔ Reachable fs lists starts file := by
  have hseen : found.seen = read.map fs.canonical := by simpa [empty] using h.seen
  constructor
  · intro hfile
    obtain ⟨p, hp, rfl⟩ := List.mem_map.1 hfile
    exact h.origin (Reachable fs lists starts) (fun p hp => .start hp)
      (fun p hp hreach m hm => hreach.module ((hlists p hp _).2 ⟨m, hm, rfl⟩)) p hp
  · intro hfile
    rw [← hseen]
    induction hfile with
    | start hstart => exact h.startsSeen _ hstart
    | @module file module _ hmodule ih =>
      rw [hseen] at ih
      obtain ⟨p, hp, rfl⟩ := List.mem_map.1 ih
      obtain ⟨m, hm, rfl⟩ := (hlists p hp _).1 hmodule
      exact h.modulesSeen p hp m hm

lemma reachable_perm {lists : Path → Path → Prop} {paths paths' : List Path} {file : Path}
    (h : paths'.Perm paths) (hfile : Reachable fs lists (startsOf fs paths') file) :
    Reachable fs lists (startsOf fs paths) file := by
  induction hfile with
  | start hstart => exact .start ((((h.filter _).flatMap_right _).mem_iff).1 hstart)
  | module _ hmodule ih => exact ih.module hmodule

/-! ### The order of projects -/

instance : Std.TransOrd Path.Component :=
  inferInstanceAs (Std.TransCmp (compareLex (compareOn Path.Component.rank)
    (compareOn Path.Component.text)))

/-- Whether a project comes before another by the paths of their descriptors. -/
def ComesBefore (p q : Project) : Prop :=
  ∃ a b, p.descriptor = some a ∧ q.descriptor = some b ∧ (a.compareByComponents b).isLE = true

lemma pairwise_projectLE (projects : List Project) :
    (projects.mergeSort projectLE).Pairwise fun p q => projectLE p q = true := by
  refine List.pairwise_mergeSort (fun p q r hpq hqr => ?_) (fun p q => ?_) projects
  · rw [projectLE] at *
    cases hp : p.descriptor <;> cases hq : q.descriptor <;> cases hr : r.descriptor <;>
      simp_all [Path.compareByComponents]
    exact Std.TransOrd.isLE_trans hpq hqr
  · rw [Bool.or_eq_true, projectLE, projectLE]
    cases hp : p.descriptor <;> cases hq : q.descriptor <;> simp [Path.compareByComponents]
    rename_i a b
    by_cases hab : (compare a.components b.components).isLE
    · exact .inl hab
    · exact .inr (Ordering.isLE_of_eq_lt (Std.OrientedCmp.lt_of_not_isLE hab))

/-- Projects that know the paths of their descriptors are put in the order of these. -/
lemma pairwise_comesBefore {projects : List Project}
    (h : ∀ p ∈ projects, ∃ path, p.descriptor = some path) :
    (projects.mergeSort projectLE).Pairwise ComesBefore := by
  refine (pairwise_projectLE projects).imp_of_mem fun {p q} hp hq hle => ?_
  obtain ⟨a, ha⟩ := h p (List.mem_mergeSort.1 hp)
  obtain ⟨b, hb⟩ := h q (List.mem_mergeSort.1 hq)
  rw [projectLE, ha, hb] at hle
  exact ⟨a, b, ha, hb, hle⟩

/-! ### The search -/

/-- A search comes to an end. It reads no file twice, gives one project for each descriptor read
that describes one, and puts these in the order of their descriptors. If the modules that a
descriptor lists depend on its file only, as `lists` says, then the files read are those reachable
from the start paths, in whatever order these come. -/
theorem ofPaths_closure (fs : FileSystem) (paths : List Path) :
    (∃ read found projects, Searches fs empty paths read found ∧
      ofPaths fs paths = { found with projects } ∧
      (read.map fs.canonical).Nodup ∧
      projects.Perm (read.filterMap (projectAt? fs)) ∧ projects.Pairwise ComesBefore) ∧
    ∀ (lists : Path → Path → Prop) (paths' read : List Path) (found : Discovery),
      paths'.Perm paths → Searches fs empty paths' read found →
      (∀ p ∈ read, ListsAs fs lists p) →
      ∀ file, file ∈ read.map fs.canonical ↔ Reachable fs lists (startsOf fs paths) file := by
  refine ⟨?_, fun lists paths' read found hperm hsearch hlists file => ?_⟩
  · obtain ⟨read, hsearch⟩ := exists_searches fs empty paths
    have hfound := hsearch.extends
    have hseen : (paths.foldl (addPath fs) empty).seen = read.map fs.canonical := hfound.seen
    have hprojects : (paths.foldl (addPath fs) empty).projects = read.filterMap (projectAt? fs) :=
      hfound.projects
    refine ⟨read, _, _, hsearch, rfl, hseen ▸ hfound.nodup List.nodup_nil, ?_, ?_⟩
    · rw [hprojects]
      exact List.mergeSort_perm _ _
    · refine pairwise_comesBefore fun p hp => ?_
      rw [hprojects] at hp
      obtain ⟨path, -, hpath⟩ := List.mem_filterMap.1 hp
      exact ⟨path, descriptor_of_projectAt? hpath⟩
  · rw [hsearch.extends.mem_read_iff hlists]
    exact ⟨reachable_perm hperm, reachable_perm hperm.symm⟩

/-! ### Two descriptors that list each other -/

/-- The directory `/a`, which lists itself and the module `b` in it, and `b`, which lists its
parent. -/
def sampleSuite : FileSystem where
  entries := .ofList
    [(["a"], Entry.directory),
      (["a", "depsweep.toml"], Entry.file "modules=[\".\",\"b\"]".toUTF8.data),
      (["a", "b"], Entry.directory),
      (["a", "b", "depsweep.toml"], Entry.file "modules=[\"..\"]".toUTF8.data)]
  workingDir := []

/-- Which of the two lists which. -/
def sampleLists (file module : Path) : Prop :=
  (file, module) ∈ [(⟨"/a/depsweep.toml"⟩, ⟨"/a/depsweep.toml"⟩),
    (⟨"/a/depsweep.toml"⟩, ⟨"/a/b/depsweep.toml"⟩), (⟨"/a/b/depsweep.toml"⟩, ⟨"/a/depsweep.toml"⟩)]

/-- The modules of `b`, and those of its parent as it is met from there. -/
lemma modulesAt_sampleSuite :
    modulesAt sampleSuite ⟨"/a/b/depsweep.toml"⟩ = [⟨"/a/b/../depsweep.toml"⟩] ∧
    modulesAt sampleSuite ⟨"/a/b/../depsweep.toml"⟩ =
      [⟨"/a/b/.././depsweep.toml"⟩, ⟨"/a/b/../b/depsweep.toml"⟩] := by
  decide +kernel

/-- The files of the two descriptors, under all paths that lead to them. -/
lemma canonical_sampleSuite :
    sampleSuite.canonical ⟨"/a/b/depsweep.toml"⟩ = ⟨"/a/b/depsweep.toml"⟩ ∧
    sampleSuite.canonical ⟨"/a/b/../depsweep.toml"⟩ = ⟨"/a/depsweep.toml"⟩ ∧
    sampleSuite.canonical ⟨"/a/b/.././depsweep.toml"⟩ = ⟨"/a/depsweep.toml"⟩ ∧
    sampleSuite.canonical ⟨"/a/b/../b/depsweep.toml"⟩ = ⟨"/a/b/depsweep.toml"⟩ := by
  decide +kernel

/-- A search at the file of `b` reads its parent under the path that leads there from `b`. -/
lemma exists_searches_sampleSuite : ∃ found, Searches sampleSuite empty [⟨"/a/b/depsweep.toml"⟩]
    [⟨"/a/b/depsweep.toml"⟩, ⟨"/a/b/../depsweep.toml"⟩] found := by
  obtain ⟨hmodules, hmodulesUp⟩ := modulesAt_sampleSuite
  obtain ⟨hplace, hplaceUp, hplaceSelf, hplaceDown⟩ := canonical_sampleSuite
  have hthere : sampleSuite.contains ⟨"/a/b/depsweep.toml"⟩ = true ∧
      startingAt sampleSuite ⟨"/a/b/depsweep.toml"⟩ = [⟨"/a/b/depsweep.toml"⟩] := by
    decide +kernel
  -- Two rounds read a file each; the third brings up nothing new.
  let d := readAll sampleSuite empty [⟨"/a/b/depsweep.toml"⟩]
  let found := readAll sampleSuite d [⟨"/a/b/../depsweep.toml"⟩]
  have hend : unseen sampleSuite found.seen
      [⟨"/a/b/.././depsweep.toml"⟩, ⟨"/a/b/../b/depsweep.toml"⟩] = [] := by
    simp [unseen, found, d, empty, hplace, hplaceUp, hplaceSelf, hplaceDown]
  have hsecond : Rounds sampleSuite d [⟨"/a/b/../depsweep.toml"⟩]
      [⟨"/a/b/../depsweep.toml"⟩] found := by
    have hfresh : unseen sampleSuite d.seen [⟨"/a/b/../depsweep.toml"⟩] =
        [⟨"/a/b/../depsweep.toml"⟩] := by simp [unseen, d, empty, hplace, hplaceUp]
    refine .of_unseen_eq hfresh (List.cons_ne_nil _ _) ?_
    rw [List.flatMap_singleton, hmodulesUp]
    exact rounds_of_unseen_eq_nil hend
  have hfirst : Rounds sampleSuite empty [⟨"/a/b/depsweep.toml"⟩]
      ([⟨"/a/b/depsweep.toml"⟩] ++ [⟨"/a/b/../depsweep.toml"⟩]) found := by
    have hfresh : unseen sampleSuite empty.seen [⟨"/a/b/depsweep.toml"⟩] =
        [⟨"/a/b/depsweep.toml"⟩] := by simp [unseen, empty]
    refine .of_unseen_eq hfresh (List.cons_ne_nil _ _) ?_
    rw [List.flatMap_singleton, hmodules]
    exact hsecond
  exact ⟨found, .path hthere.1 (hthere.2 ▸ hfirst) (.done found)⟩

/-- Both descriptors list what `sampleLists` says. -/
lemma listsAs_sampleSuite : ∀ p ∈ [⟨"/a/b/depsweep.toml"⟩, ⟨"/a/b/../depsweep.toml"⟩],
    ListsAs sampleSuite sampleLists p := by
  obtain ⟨hmodules, hmodulesUp⟩ := modulesAt_sampleSuite
  obtain ⟨hplace, hplaceUp, hplaceSelf, hplaceDown⟩ := canonical_sampleSuite
  rw [List.forall_mem_cons, List.forall_mem_singleton]
  constructor <;> intro file
  · simp [sampleLists, hplace, hmodules, hplaceUp, eq_comm]
  · simp [sampleLists, hplaceUp, hmodulesUp, hplaceSelf, hplaceDown, eq_comm]

theorem ofPaths_closure_sampleSuite : ∃ read found,
    Searches sampleSuite empty [⟨"/a/b/depsweep.toml"⟩] read found ∧
    ∀ file, file ∈ read.map sampleSuite.canonical ↔
      Reachable sampleSuite sampleLists (startsOf sampleSuite [⟨"/a/b/depsweep.toml"⟩]) file := by
  obtain ⟨found, hsearch⟩ := exists_searches_sampleSuite
  exact ⟨_, found, hsearch, (ofPaths_closure sampleSuite [⟨"/a/b/depsweep.toml"⟩]).2 sampleLists
    _ _ found (.refl _) hsearch listsAs_sampleSuite⟩

end Discovery
end ClasspathAudit
