import Mathlib.Data.List.TakeWhile
import ClasspathAudit.FileSystem.Walk
import ClasspathAudit.Proofs.Steps
import ClasspathAudit.Proofs.Text.Parts

/-
# Looking up what lies below a directory

A lookup goes step by step, so a path that continues another is looked up from where that one leads.
Where no link lies below a directory, the steps from there are just the names on the way. So the
walk through such a directory, which goes by locations, and the lookup of a path, which goes by
texts, find the same files.
-/
namespace ClasspathAudit

/-! ### Paths that continue -/

namespace Path

variable {root : Path} {name text : String}

/-- What stands before a name in the text of the path of a child. -/
def directoryText (p : Path) : String :=
  if p.text.toList.getLast? = none ∨ p.text.toList.getLast? = some '/' then p.text
  else p.text ++ "/"

lemma isAbsolute_eq_false (h : '/' ∉ name.toList) : isAbsolute ⟨name⟩ = false := by
  rw [isAbsolute, beq_eq_false_iff_ne]
  exact fun hhead => h (List.mem_of_head? hhead)

lemma child_eq (h : isAbsolute ⟨name⟩ = false) (root : Path) :
    root.child name = ⟨root.directoryText ++ name⟩ := by
  rw [child, join, if_neg (by simp [h]), directoryText]
  split <;> simp_all

/-- A child of a child is a child, called by both names. -/
lemma child_child (hname : name ≠ "") (hslash : '/' ∉ name.toList)
    (htext : isAbsolute ⟨text⟩ = false) :
    (root.child name).child text = root.child (name ++ "/" ++ text) := by
  obtain ⟨c, hlast, hmem⟩ : ∃ c, name.toList.getLast? = some c ∧ c ∈ name.toList := by
    cases hlast : name.toList.getLast? with
    | none => exact absurd (String.toList_eq_nil_iff.1 (List.getLast?_eq_none_iff.1 hlast)) hname
    | some c => exact ⟨c, rfl, List.mem_of_getLast? hlast⟩
  have hc : c ≠ '/' := fun h => hslash (h ▸ hmem)
  have hboth : isAbsolute ⟨name ++ "/" ++ text⟩ = false := by
    have hne : name.toList ≠ [] := fun h => hname (String.toList_eq_nil_iff.1 h)
    have habsolute := isAbsolute_eq_false hslash
    rw [isAbsolute] at habsolute ⊢
    simp only [String.toList_append, List.append_assoc]
    rwa [List.head?_append_of_ne_nil _ hne]
  have hdirectory : directoryText ⟨root.directoryText ++ name⟩ =
      root.directoryText ++ name ++ "/" := by
    have hend : (root.directoryText ++ name).toList.getLast? = some c := by
      rw [String.toList_append, List.getLast?_append, hlast]
      rfl
    rw [directoryText, hend]
    simp [hc]
  rw [child_eq hboth, child_eq (isAbsolute_eq_false hslash), child_eq htext, hdirectory]
  simp [String.append_assoc]

lemma isAbsolute_child (hroot : root.text ≠ "") (htext : isAbsolute ⟨text⟩ = false) :
    (root.child text).isAbsolute = root.isAbsolute := by
  have hne : root.text.toList ≠ [] := fun h => hroot (String.toList_eq_nil_iff.1 h)
  rw [child_eq htext, directoryText]
  split <;> simp [isAbsolute, List.head?_append_of_ne_nil _ hne]

/-- A path and its directory have the same parts, but for an empty one at the end. -/
lemma exists_directoryText_eq (hroot : root.text ≠ "") :
    ∃ front last, root.directoryText = front ++ "/" ∧ (last = [] ∨ last = [""]) ∧
      Text.splitOnChar '/' root.text = Text.splitOnChar '/' front ++ last := by
  rw [directoryText]
  split
  · rename_i hlast
    have hslash : root.text.toList.getLast? = some '/' :=
      hlast.resolve_left fun h => hroot (String.toList_eq_nil_iff.1 (List.getLast?_eq_none_iff.1 h))
    obtain ⟨front, hfront⟩ := List.getLast?_eq_some_iff.1 hslash
    have htext : root.text = String.ofList front ++ "/" := by
      rw [← String.toList_inj, hfront]
      simp
    refine ⟨String.ofList front, [""], htext, .inr rfl, ?_⟩
    have hsplit := Text.splitOnChar_append '/' (String.ofList front) ""
    rw [String.append_empty] at hsplit
    rw [htext]
    exact hsplit
  · exact ⟨root.text, [], rfl, .inl rfl, (List.append_nil _).symm⟩

lemma splitOnChar_of_isAbsolute (h : isAbsolute ⟨text⟩ = true) :
    ∃ rest, Text.splitOnChar '/' text = "" :: rest := by
  rw [isAbsolute, beq_iff_eq] at h
  obtain ⟨rest, hrest⟩ := List.head?_eq_some_iff.1 h
  refine ⟨(Text.splitAtChar '/' rest).map String.ofList, ?_⟩
  have hsplit : Text.splitAtChar '/' ('/' :: rest) = [] :: Text.splitAtChar '/' rest := if_pos rfl
  rw [Text.splitOnChar, hrest, hsplit, List.map_cons, String.ofList_nil]

lemma isAbsolute_eq_false_of_parts (h : ∀ part ∈ Text.splitOnChar '/' text, part ≠ "") :
    isAbsolute ⟨text⟩ = false := by
  rw [← Bool.not_eq_true]
  intro habsolute
  obtain ⟨rest, hrest⟩ := splitOnChar_of_isAbsolute habsolute
  rw [hrest] at h
  exact h "" List.mem_cons_self rfl

end Path

namespace FileSystem

/-- The names between slashes lead to the same path as their text. -/
lemma pathBelow_splitOnChar {root : Path} {text : String}
    (h : ∀ part ∈ Text.splitOnChar '/' text, part ≠ "") :
    pathBelow root (Text.splitOnChar '/' text) = root.child text := by
  obtain ⟨chars, rfl⟩ : ∃ chars, String.ofList chars = text := ⟨text.toList, String.ofList_toList⟩
  rw [Text.splitOnChar, String.toList_ofList] at h ⊢
  -- the induction is on the parts, each of which is a further child
  induction hparts : Text.splitAtChar '/' chars generalizing chars root with
  | nil => exact absurd hparts (Text.splitAtChar_ne_nil '/' chars)
  | cons first rest ih =>
    obtain ⟨hfirst, ⟨rfl, rfl⟩ | ⟨behind, rfl, hbehind⟩⟩ := Text.eq_of_splitAtChar_eq_cons hparts
    · rfl
    · rw [hparts, List.map_cons, List.forall_mem_cons] at h
      have hrest : ∀ part ∈ (Text.splitAtChar '/' behind).map String.ofList, part ≠ "" := by
        rw [hbehind]
        exact h.2
      have habsolute : Path.isAbsolute ⟨String.ofList behind⟩ = false :=
        Path.isAbsolute_eq_false_of_parts (by rwa [Text.splitOnChar, String.toList_ofList])
      rw [List.map_cons, pathBelow, List.foldl_cons, ← pathBelow, ih behind hrest hbehind,
        Path.child_child h.1 (by simpa using hfirst) habsolute]
      simp [String.append_assoc]

section Names

variable {root : Path} {names names' : List String}

/-- Names lead to the path of the text in which they stand between slashes. -/
lemma pathBelow_eq (hne : names ≠ []) (h : ∀ name ∈ names, name ≠ "" ∧ '/' ∉ name.toList) :
    pathBelow root names = ⟨root.directoryText ++ (String.singleton '/').intercalate names⟩ := by
  have hsplit := Text.splitOnChar_intercalate hne fun name hname => (h name hname).2
  have hparts : ∀ part ∈ Text.splitOnChar '/' ((String.singleton '/').intercalate names),
      part ≠ "" := by
    rw [hsplit]
    exact fun name hname => (h name hname).1
  rw [← Path.child_eq (Path.isAbsolute_eq_false_of_parts hparts), ← pathBelow_splitOnChar hparts,
    hsplit]

/-- A path tells which names lead to it from a directory. -/
lemma pathBelow_inj (hne : names ≠ []) (hne' : names' ≠ [])
    (h : ∀ name ∈ names, name ≠ "" ∧ '/' ∉ name.toList)
    (h' : ∀ name ∈ names', name ≠ "" ∧ '/' ∉ name.toList) :
    pathBelow root names = pathBelow root names' ↔ names = names' := by
  refine ⟨fun heq => ?_, congrArg _⟩
  rw [pathBelow_eq hne h, pathBelow_eq hne' h', Path.mk.injEq, String.append_right_inj] at heq
  rw [← Text.splitOnChar_intercalate hne fun name hname => (h name hname).2, heq,
    Text.splitOnChar_intercalate hne' fun name hname => (h' name hname).2]

end Names

/-! ### Steps -/

lemma stepsOf_eq (p : Path) : stepsOf p =
    if p.isAbsolute then (Text.splitOnChar '/' p.text).tail else Text.splitOnChar '/' p.text := by
  rw [stepsOf]
  split
  · rename_i rest hrest
    rw [hrest]
    rfl
  · rename_i hne
    cases habsolute : p.isAbsolute with
    | false => rfl
    | true =>
      obtain ⟨rest, hrest⟩ := Path.splitOnChar_of_isAbsolute habsolute
      exact absurd hrest (hne rest)

/-- The steps of a child are those of the path, without an empty one at the end, and then those of
its text. -/
lemma exists_stepsOf_child {root : Path} {text : String} (hroot : root.text ≠ "")
    (htext : Path.isAbsolute ⟨text⟩ = false) :
    ∃ front last, stepsOf root = front ++ last ∧ (last = [] ∨ last = [""]) ∧
      stepsOf (root.child text) = front ++ Text.splitOnChar '/' text := by
  obtain ⟨front, last, hdirectory, hlast, hsplit⟩ := Path.exists_directoryText_eq hroot
  have hchild : Text.splitOnChar '/' (root.child text).text =
      Text.splitOnChar '/' front ++ Text.splitOnChar '/' text := by
    rw [Path.child_eq htext, hdirectory]
    exact Text.splitOnChar_append '/' front text
  rw [stepsOf_eq, stepsOf_eq, Path.isAbsolute_child hroot htext, hsplit, hchild]
  split
  · have hne := Text.splitOnChar_ne_nil '/' front
    exact ⟨_, last, List.tail_append_of_ne_nil hne, hlast, List.tail_append_of_ne_nil hne⟩
  · exact ⟨_, last, rfl, hlast, rfl⟩

variable {fs : FileSystem} {start place found : Location} {front steps : List String}

/-- A lookup leads through the place that its first steps lead to. -/
lemma exists_walkSteps_append {jump : Location → List String → Except FileFault Location}
    (hjump : ∀ {start front}, jump start (front ++ steps) = .ok found →
      ∃ links middle, jump start front = .ok middle ∧ walkFrom fs links middle steps = .ok found)
    (hend : ∀ {start}, walkSteps fs jump start steps = .ok found →
      ∃ links, walkFrom fs links start steps = .ok found) :
    ∀ {front start}, walkSteps fs jump start (front ++ steps) = .ok found →
      ∃ links middle, walkSteps fs jump start front = .ok middle ∧
        walkFrom fs links middle steps = .ok found
  | [], start, h => by
    obtain ⟨links, hlinks⟩ := hend h
    exact ⟨links, start, rfl, hlinks⟩
  | step :: front, start, h => by
    rw [List.cons_append, walkSteps] at h
    rw [walkSteps]
    split_ifs at h ⊢
    · exact exists_walkSteps_append hjump hend h
    · exact exists_walkSteps_append hjump hend h
    · split at h
      · cases h
      · rw [← List.append_assoc] at h
        exact hjump h
      · exact exists_walkSteps_append hjump hend h

lemma exists_walkFrom_append : ∀ {links : Nat} {start : Location} {front : List String},
    walkFrom fs links start (front ++ steps) = .ok found →
    ∃ links' middle, walkFrom fs links start front = .ok middle ∧
      walkFrom fs links' middle steps = .ok found
  | 0, _, _, h => exists_walkSteps_append (fun h => by cases h) (fun h => ⟨0, h⟩) h
  | links + 1, _, _, h =>
    exists_walkSteps_append exists_walkFrom_append (fun h => ⟨links + 1, h⟩) h

/-- An empty step stays where it is. -/
lemma eq_of_walkFrom_empty {links : Nat} (h : walkFrom fs links start [""] = .ok found) :
    start = found := by
  have hsteps : ∀ jump, walkSteps fs jump start [""] = .ok found → start = found := by
    intro jump h
    rw [walkSteps, if_pos (Or.inl rfl)] at h
    split at h
    · cases h
    · exact Except.ok.inj h
  cases links <;> exact hsteps _ h

/-- Whether a step goes to what is called so. -/
structure IsName (step : String) : Prop where
  empty : step ≠ ""
  current : step ≠ "."
  parent : step ≠ ".."

instance : DecidablePred IsName := fun step =>
  decidable_of_iff (step ≠ "" ∧ step ≠ "." ∧ step ≠ "..")
    ⟨fun ⟨hempty, hcurrent, hparent⟩ => ⟨hempty, hcurrent, hparent⟩,
      fun ⟨hempty, hcurrent, hparent⟩ => ⟨hempty, hcurrent, hparent⟩⟩

/-- Whether no link lies below a place. -/
def HasNoLinks (fs : FileSystem) (place : Location) : Prop :=
  ∀ names target, names ≠ [] → fs.entry? (place ++ names) ≠ some (.link target)

/-- Without links, the names on the way are the place. -/
lemma eq_append_of_walkFrom {links : Nat} : ∀ {names : List String} {place : Location},
    (∀ name ∈ names, IsName name) → fs.HasNoLinks place →
    walkFrom fs links place names = .ok found → found = place ++ names := by
  have hsteps : ∀ (jump : Location → List String → Except FileFault Location)
      (names : List String) (place : Location), (∀ name ∈ names, IsName name) →
      fs.HasNoLinks place → walkSteps fs jump place names = .ok found → found = place ++ names := by
    intro jump names
    induction names with
    | nil =>
      intro place _ _ h
      rw [List.append_nil]
      exact (Except.ok.inj h).symm
    | cons name names ih =>
      intro place hnames hlinks h
      rw [List.forall_mem_cons] at hnames
      obtain ⟨⟨hempty, hcurrent, hparent⟩, hnames⟩ := hnames
      have hname : ¬(name = "" ∨ name = ".") := not_or.2 ⟨hempty, hcurrent⟩
      rw [walkSteps, if_neg hname, if_neg hparent] at h
      split_ifs at h
      split at h
      · cases h
      · rename_i target htarget
        exact absurd htarget (hlinks [name] target (List.cons_ne_nil _ _))
      · have hbelow : fs.HasNoLinks (place ++ [name]) := by
          intro more target _
          rw [List.append_assoc]
          exact hlinks _ target (List.cons_ne_nil _ _)
        rw [ih _ hnames hbelow h, List.append_assoc, List.singleton_append]
  intro names place hnames hlinks h
  cases links <;> exact hsteps _ names place hnames hlinks h

/-! ### Files below a directory -/

variable {root : Path} {text : String} {content : Array UInt8}

lemma walkFrom_of_locate {p : Path} (h : fs.locate p = .ok place) :
    p.text ≠ "" ∧ walkFrom fs maxLinks (startOf p fs.workingDir) (stepsOf p) = .ok place := by
  rw [locate] at h
  split_ifs at h with hempty
  exact ⟨hempty, h⟩

/-- A path that continues another is looked up from where that one leads. -/
lemma exists_walkFrom_of_locate (hroot : fs.locate root = .ok place)
    (htext : Path.isAbsolute ⟨text⟩ = false) (h : fs.locate (root.child text) = .ok found) :
    ∃ links, walkFrom fs links place (Text.splitOnChar '/' text) = .ok found := by
  obtain ⟨hempty, hroot⟩ := walkFrom_of_locate hroot
  obtain ⟨front, last, hsteps, hlast, hchild⟩ := exists_stepsOf_child hempty htext
  have hwalk := (walkFrom_of_locate h).2
  rw [startOf, Path.isAbsolute_child hempty htext, ← startOf, hchild] at hwalk
  obtain ⟨links, middle, hfront, hmore⟩ := exists_walkFrom_append hwalk
  rw [hsteps] at hroot
  obtain ⟨links', middle', hfront', hrest⟩ := exists_walkFrom_append hroot
  obtain rfl : middle = middle' := Except.ok.inj (hfront.symm.trans hfront')
  -- an empty step at the end of the root's text leads nowhere else
  rcases hlast with rfl | rfl
  · obtain rfl : middle = place := by
      cases links' <;> exact Except.ok.inj hrest
    exact ⟨links, hmore⟩
  · obtain rfl := eq_of_walkFrom_empty hrest
    exact ⟨links, hmore⟩

/-- A file that is read below a directory lies where its names say. -/
lemma entry?_of_readFile (hroot : fs.locate root = .ok place) (hlinks : fs.HasNoLinks place)
    (hnames : ∀ name ∈ Text.splitOnChar '/' text, IsName name)
    (h : fs.readFile (root.child text) = .ok content) :
    fs.entry? (place ++ Text.splitOnChar '/' text) = some (.file content) := by
  obtain ⟨found, hfound, h⟩ := exists_of_bind_eq_ok h
  have htext := Path.isAbsolute_eq_false_of_parts fun part hpart => (hnames part hpart).empty
  obtain ⟨links, hwalk⟩ := exists_walkFrom_of_locate hroot htext hfound
  rw [← eq_append_of_walkFrom hnames hlinks hwalk]
  split at h
  · rename_i content' hentry
    obtain rfl := Except.ok.inj h
    exact hentry
  all_goals cases h

lemma mem_below_iff {names : List String} {entry : Entry} :
    (names, entry) ∈ fs.below place ↔ names ≠ [] ∧ fs.entry? (place ++ names) = some entry := by
  rw [below, List.mem_filterMap]
  constructor
  · rintro ⟨⟨other, entry'⟩, hmem, h⟩
    rw [Std.ExtTreeMap.mem_toList_iff_getElem?_eq_some] at hmem
    dsimp only at h
    split_ifs at h with hbelow
    obtain ⟨rfl, rfl⟩ := Prod.mk.inj (Option.some.inj h)
    rw [Bool.and_eq_true, List.isPrefixOf_iff_prefix, decide_eq_true_eq] at hbelow
    obtain ⟨⟨rest, rfl⟩, hlength⟩ := hbelow
    have hne : rest ≠ [] := by
      rintro rfl
      simp at hlength
    rw [List.drop_left]
    exact ⟨hne, by rw [FileSystem.entry?, if_neg (by simp [hne]), hmem]⟩
  · rintro ⟨hne, hentry⟩
    rw [FileSystem.entry?, if_neg (by simp [hne])] at hentry
    have hlength : 0 < names.length := List.length_pos_iff.2 hne
    exact ⟨(place ++ names, entry), Std.ExtTreeMap.mem_toList_iff_getElem?_eq_some.2 hentry, by
      simp [hlength]⟩

/-- The path of what lies below a directory, if it is a compiled class. -/
def classPath? (root : Path) : List String × Entry → Option Path
  | (names, .file _) =>
    if names.getLast?.any isClassName then some (pathBelow root names) else none
  | _ => none

/-- Where no link lies below a directory, the walk for compiled classes finds those that lie there.
-/
lemma classFiles_eq (hroot : fs.locate root = .ok place) (hlinks : fs.HasNoLinks place) :
    fs.classFiles root = .ok ((fs.below place).filterMap (classPath? root)) := by
  rw [classFiles, hroot]
  show classFilesBelow fs (fs.entries.size + 1) [] place root = _
  rw [classFilesBelow, mapM_eq_ok_map (g := fun part => (classPath? root part).toList)]
  · rw [List.filterMap_eq_flatMap_toList]
    rfl
  · rintro ⟨names, entry⟩ hmem
    cases entry with
    | file content =>
      rw [classPath?]
      show Except.ok (if _ then _ else _) = _
      split <;> rfl
    | directory => rfl
    | link target =>
      obtain ⟨hne, hentry⟩ := mem_below_iff.1 hmem
      exact absurd hentry (hlinks names target hne)

lemma mem_classFiles {files : List Path} {path : Path} (hroot : fs.locate root = .ok place)
    (hlinks : fs.HasNoLinks place) (h : fs.classFiles root = .ok files) :
    path ∈ files ↔ ∃ names content, (names, .file content) ∈ fs.below place ∧
      names.getLast?.any isClassName = true ∧ pathBelow root names = path := by
  obtain rfl := Except.ok.inj ((classFiles_eq hroot hlinks).symm.trans h)
  rw [List.mem_filterMap]
  constructor
  · rintro ⟨⟨names, entry⟩, hmem, hpath⟩
    cases entry with
    | file content =>
      obtain ⟨hclass, hpath⟩ := Option.ite_none_right_eq_some.1 hpath
      exact ⟨names, content, hmem, hclass, Option.some.inj hpath⟩
    | directory => cases hpath
    | link target => cases hpath
  · rintro ⟨names, content, hmem, hclass, rfl⟩
    exact ⟨_, hmem, if_pos hclass⟩

/-- A file is one of a compiled class if something stands before the ending of its name. -/
lemma isClassName_iff {name : String} :
    isClassName name = true ↔ ∃ stem, stem ≠ "" ∧ name = stem ++ ".class" := by
  have hclass : '.' ∉ classExtension.toList := by decide
  rw [isClassName, beq_iff_eq, Path.extensionOf?, Option.ite_none_right_eq_some]
  constructor
  · rintro ⟨hlength, hextension⟩
    have hdot : '.' ∈ name.toList := by
      by_contra hdot
      have hall : ∀ c ∈ name.toList.reverse, (c != '.') = true := by
        intro c hc
        rw [bne_iff_ne]
        rintro rfl
        exact hdot (List.mem_reverse.1 hc)
      rw [List.takeWhile_eq_self_iff.2 hall, List.length_reverse] at hlength
      omega
    obtain ⟨front, hfront⟩ := Text.exists_eq_append_takeWhile_reverse hdot
    have hending : (name.toList.reverse.takeWhile (· != '.')).reverse = classExtension.toList := by
      rw [← Option.some.inj hextension, String.toList_ofList]
    rw [hending] at hfront
    refine ⟨String.ofList front, fun hempty => ?_, ?_⟩
    · obtain rfl : front = [] := String.ofList_eq_empty_iff.1 hempty
      rw [hfront, List.nil_append] at hlength
      exact absurd hlength (by decide)
    · rw [← String.toList_inj, hfront]
      simp [classExtension]
  · rintro ⟨stem, hstem, rfl⟩
    have htext : (stem ++ ".class").toList = stem.toList ++ '.' :: classExtension.toList := by
      simp [classExtension]
    have hlength : 0 < stem.toList.length :=
      List.length_pos_iff.2 fun h => hstem (String.toList_eq_nil_iff.1 h)
    rw [htext, Text.takeWhile_reverse_append hclass, List.reverse_reverse, String.ofList_toList]
    refine ⟨?_, rfl⟩
    rw [List.length_append, List.length_cons, List.length_reverse]
    omega

end FileSystem
end ClasspathAudit
