import ClasspathAudit.ReferenceListing
import ClasspathAudit.Proofs.Reference.Names
import ClasspathAudit.Proofs.Report.Verdict

/-
# Listings with and without kinds

A listing is read back here: the lines that stand below a class, or the items of its document, tell
the classes that are listed for it, and with kinds the kind of place too. Both forms list the same.
With kinds, a class is listed with exactly the kinds of the mentions that name it.

The two listings of a class differ in its anonymous classes: the listing of kinds has them, the
plain one does not. The main result is `listings_exact`.
-/
namespace ClasspathAudit

namespace ReferenceKind

lemma ofLabel?_label (kind : ReferenceKind) : ofLabel? kind.label = some kind := by
  cases kind <;> decide +kernel

lemma label_injective : Function.Injective label := by
  intro kind kind' h
  have hkind := ofLabel?_label kind
  rw [h, ofLabel?_label] at hkind
  exact (Option.some.inj hkind).symm

lemma blank_notMem_label : ∀ kind ∈ all, ' ' ∉ kind.label.toList := by
  decide +kernel

end ReferenceKind

namespace ReferenceListing

/-! ### Reading listings back -/

/-- What a listing has below a class: a class and, in a listing of kinds, the kind of place. -/
abbrev Entry := ClassName × Option ReferenceKind

/-- A form of listings. -/
inductive Form
  /-- Lines for people. -/
  | people (colors : Bool)
  /-- A document for programs. -/
  | programs

/-- A kind as it stands at the end of a line. -/
def kindMark (colors : Bool) (kind : ReferenceKind) : String :=
  Style.dim.apply colors ("(" ++ kind.label ++ ")")

/-- The kind that stands at the end of a line. -/
def ofKindMark? (colors : Bool) (mark : List Char) : Option ReferenceKind :=
  ReferenceKind.all.find? fun kind => (kindMark colors kind).toList == mark

/-- The entry that the text of a line gives. With kinds, the last blank divides the class from the
kind. -/
def ofLineText? (colors kinds : Bool) (text : List Char) : Option Entry :=
  if kinds then do
    let mark := (text.reverse.takeWhile (· != ' ')).reverse
    let kind ← ofKindMark? colors mark
    return (⟨String.ofList (text.take (text.length - (mark.length + 1)))⟩, some kind)
  else
    some (⟨String.ofList text⟩, none)

/-- The entry that a line gives. -/
def ofLine? (colors kinds : Bool) (line : String) : Option Entry :=
  let start := (referenceLine colors "").toList
  if start.isPrefixOf line.toList then ofLineText? colors kinds (line.toList.drop start.length)
  else none

/-- The entry that an item of a document gives. -/
def ofItem? (item : Json) : Option Entry :=
  match item, item.field? "class_name", item.field? "kind" with
  | .text name, _, _ => some (⟨name⟩, none)
  | _, some (.text name), some (.text label) =>
    (ReferenceKind.ofLabel? label).map fun kind => (⟨name⟩, some kind)
  | _, _, _ => none

/-- The entries that a form of listing has for a class. -/
def listed (kinds : Bool) (c : ClassReferences) : Form → List Entry
  | .people colors => (classLines colors kinds c).tail.filterMap (ofLine? colors kinds)
  | .programs => ((classJson kinds c).itemsOf "references").filterMap ofItem?

/-! ### Both forms list the same -/

/-- The entries of a class. -/
def entries (kinds : Bool) (c : ClassReferences) : List Entry :=
  if kinds then (kinded c).map fun r => (r.className, some r.kind)
  else c.referencedClasses.classes.toList.map fun name => (name, none)

/-- What stands around the name of a kind has no blank. -/
lemma exists_toList_kindMark (colors : Bool) : ∃ before behind : List Char,
    ' ' ∉ before ∧ ' ' ∉ behind ∧
      ∀ kind, (kindMark colors kind).toList = before ++ kind.label.toList ++ behind := by
  cases colors with
  | false =>
    refine ⟨['('], [')'], by decide, by decide, fun kind => ?_⟩
    simp [kindMark, Style.apply]
  | true =>
    refine ⟨(String.join (Style.dim.opening.map Style.sequence)).toList ++ ['('],
      ')' :: (Style.sequence 0).toList, by decide +kernel, by decide +kernel, fun kind => ?_⟩
    have hopening : Style.dim.opening.isEmpty = false := by decide
    simp [kindMark, Style.apply, hopening]

lemma blank_notMem_kindMark (colors : Bool) (kind : ReferenceKind) :
    ' ' ∉ (kindMark colors kind).toList := by
  obtain ⟨before, behind, hbefore, hbehind, hmark⟩ := exists_toList_kindMark colors
  rw [hmark, List.mem_append, List.mem_append, not_or, not_or]
  exact ⟨⟨hbefore, ReferenceKind.blank_notMem_label kind kind.mem_all⟩, hbehind⟩

lemma ofKindMark?_kindMark (colors : Bool) (kind : ReferenceKind) :
    ofKindMark? colors (kindMark colors kind).toList = some kind := by
  rw [ofKindMark?]
  cases hfound : ReferenceKind.all.find? _ with
  | none =>
    have hnone := List.find?_eq_none.1 hfound kind kind.mem_all
    exact absurd (beq_self_eq_true _) hnone
  | some found =>
    obtain ⟨before, behind, -, -, hmark⟩ := exists_toList_kindMark colors
    have hsame := List.find?_some hfound
    rw [beq_iff_eq, hmark, hmark] at hsame
    have hlabel := List.append_cancel_left (List.append_cancel_right hsame)
    rw [ReferenceKind.label_injective (String.toList_inj.1 hlabel)]

lemma ofLineText?_kindMark (colors : Bool) (name : ClassName) (kind : ReferenceKind) :
    ofLineText? colors true (name.text.toList ++ ' ' :: (kindMark colors kind).toList) =
      some (name, some kind) := by
  have hmark := Text.takeWhile_reverse_append (blank_notMem_kindMark colors kind) name.text.toList
  have hname : name.text.toList.length + ((kindMark colors kind).toList.length + 1) -
      ((kindMark colors kind).toList.length + 1) = name.text.toList.length := by omega
  simp only [ofLineText?, if_true, hmark, List.reverse_reverse, ofKindMark?_kindMark,
    List.length_append, List.length_cons, hname, List.take_left, String.ofList_toList]
  rfl

lemma ofLine?_referenceLine (colors kinds : Bool) (text : String) :
    ofLine? colors kinds (referenceLine colors text) = ofLineText? colors kinds text.toList := by
  have hline : (referenceLine colors text).toList =
      (referenceLine colors "").toList ++ text.toList := by
    simp [referenceLine]
  rw [ofLine?, hline, if_pos (by simp), List.drop_left]

lemma filterMap_map_of_eq_some {α β γ : Type} {f : α → β} {g : β → Option γ} {h : α → γ}
    (hfg : ∀ a, g (f a) = some (h a)) (l : List α) : (l.map f).filterMap g = l.map h := by
  rw [List.filterMap_map, ← List.filterMap_eq_map]
  exact List.filterMap_congr fun a _ => hfg a

/-- What a form lists can be read back from it. -/
lemma listed_eq (kinds : Bool) (c : ClassReferences) (form : Form) :
    listed kinds c form = entries kinds c := by
  cases form with
  | people colors =>
    cases kinds with
    | true =>
      refine filterMap_map_of_eq_some (fun r => ?_) _
      rw [ofLine?_referenceLine, String.toList_append, String.toList_append, List.append_assoc]
      exact ofLineText?_kindMark colors r.className r.kind
    | false =>
      refine filterMap_map_of_eq_some (fun name => ?_) _
      rw [ofLine?_referenceLine, ofLineText?, if_neg (by simp), String.ofList_toList]
  | programs =>
    cases kinds with
    | true =>
      refine filterMap_map_of_eq_some (fun r => ?_) _
      show (ReferenceKind.ofLabel? r.kind.label).map _ = _
      rw [r.kind.ofLabel?_label]
      rfl
    | false =>
      show ((c.referencedClasses.classes.toList.map (·.text)).map Json.text).filterMap ofItem? = _
      rw [List.map_map]
      exact filterMap_map_of_eq_some (f := fun name : ClassName => Json.text name.text)
        (g := ofItem?) (fun _ => rfl) _

/-! ### What is listed -/

variable {c : ClassReferences} {name : ClassName} {kind : ReferenceKind}

/-- Whether a well-formed mention of the given kind names a class. -/
def NamesAs (c : ClassReferences) (kind : ReferenceKind) (name : ClassName) : Prop :=
  ∃ mention ∈ c.typeUses, mention.kind = kind ∧
    ∃ names, mention.classNames = .ok names ∧ name ∈ names

lemma names_iff_exists_namesAs : c.Names name ↔ ∃ kind, NamesAs c kind name := by
  constructor
  · rintro ⟨mention, hmention, hnames⟩
    exact ⟨_, mention, hmention, rfl, hnames⟩
  · rintro ⟨_, mention, hmention, -, hnames⟩
    exact ⟨mention, hmention, hnames⟩

lemma mem_kinded_iff {r : Reference} :
    r ∈ kinded c ↔ NamesAs c r.kind r.className ∧ r.className ≠ c.className := by
  simp only [kinded, List.mem_mergeSort, List.mem_eraseDups, List.mem_filterMap, NamesAs]
  constructor
  · rintro ⟨reference, hreference, hr⟩
    cases reference with
    | error e => cases hr
    | ok r' =>
      obtain ⟨hother, hr⟩ := Option.ite_none_left_eq_some.1 hr
      obtain rfl := Option.some.inj hr
      obtain ⟨mention, hmention, hexpand⟩ := List.mem_flatMap.1 hreference
      obtain ⟨hkind, hnames⟩ := ClassReferences.ok_mem_expand.1 hexpand
      exact ⟨⟨mention, hmention, hkind.symm, hnames⟩, hother⟩
  · rintro ⟨⟨mention, hmention, hkind, hnames⟩, hother⟩
    refine ⟨.ok r, List.mem_flatMap.2 ⟨mention, hmention, ?_⟩, if_neg hother⟩
    exact ClassReferences.ok_mem_expand.2 ⟨hkind.symm, hnames⟩

lemma mem_entries_kinds {o : Option ReferenceKind} : (name, o) ∈ entries true c ↔
    ∃ kind, o = some kind ∧ NamesAs c kind name ∧ name ≠ c.className := by
  simp only [entries, if_true, List.mem_map, mem_kinded_iff, Prod.mk.injEq]
  constructor
  · rintro ⟨r, ⟨hnames, hother⟩, rfl, rfl⟩
    exact ⟨r.kind, rfl, hnames, hother⟩
  · rintro ⟨kind, rfl, hnames, hother⟩
    exact ⟨⟨kind, name⟩, ⟨hnames, hother⟩, rfl, rfl⟩

lemma mem_entries_plain {o : Option ReferenceKind} : (name, o) ∈ entries false c ↔
    o = none ∧ c.Names name ∧ name ≠ c.className ∧ ¬name.EndsInNumber := by
  rw [← c.mem_classes_iff, ← Std.ExtTreeSet.mem_toList, entries, if_neg (by simp), List.mem_map]
  constructor
  · rintro ⟨name', hname, heq⟩
    cases heq
    exact ⟨rfl, hname⟩
  · rintro ⟨rfl, hname⟩
    exact ⟨name, hname, rfl⟩

/-- Whether a class is listed, with a kind or without. -/
def Lists (kinds : Bool) (c : ClassReferences) (form : Form) (name : ClassName) : Prop :=
  ∃ o, (name, o) ∈ listed kinds c form

lemma lists_kinds_iff {form : Form} :
    Lists true c form name ↔ c.Names name ∧ name ≠ c.className := by
  simp only [Lists, listed_eq, mem_entries_kinds, names_iff_exists_namesAs]
  constructor
  · rintro ⟨_, kind, -, hnames, hother⟩
    exact ⟨⟨kind, hnames⟩, hother⟩
  · rintro ⟨⟨kind, hnames⟩, hother⟩
    exact ⟨_, kind, rfl, hnames, hother⟩

lemma lists_plain_iff {form : Form} :
    Lists false c form name ↔ c.Names name ∧ name ≠ c.className ∧ ¬name.EndsInNumber := by
  simp only [Lists, listed_eq, mem_entries_plain, exists_eq_left]

/-- Whatever their forms, the plain listing of a class has all that its listing of kinds has, apart
from anonymous classes. So both list the same classes if and only if no mention names an anonymous
class other than the class itself. Each entry with a kind is one for which there is a well-formed
mention of that kind, and each such mention gives its entries, unless it names the class itself. -/
theorem listings_exact (c : ClassReferences) (form form' : Form) :
    (∀ name, Lists false c form name ↔ Lists true c form' name ∧ ¬name.EndsInNumber) ∧
    ((∀ name, Lists true c form' name ↔ Lists false c form name) ↔
      ∀ name, c.Names name → name ≠ c.className → ¬name.EndsInNumber) ∧
    ∀ name o, (name, o) ∈ listed true c form' ↔
      ∃ kind, o = some kind ∧ NamesAs c kind name ∧ name ≠ c.className := by
  refine ⟨fun name => ?_, ?_, fun name o => ?_⟩
  · rw [lists_plain_iff, lists_kinds_iff, and_assoc]
  · constructor
    · intro hsame name hnames hother
      exact (lists_plain_iff.1 ((hsame name).1 (lists_kinds_iff.2 ⟨hnames, hother⟩))).2.2
    · intro hnone name
      rw [lists_plain_iff, lists_kinds_iff]
      exact ⟨fun h => ⟨h.1, h.2, hnone name h.1 h.2⟩, fun h => ⟨h.1, h.2.1⟩⟩
  · rw [listed_eq, mem_entries_kinds]

/-- An anonymous class is listed with kinds and not without. -/
theorem listings_differ :
    ¬∀ (c : ClassReferences) (form : Form) (name : ClassName),
      Lists true c form name ↔ Lists false c form name := by
  intro h
  let c : ClassReferences := ⟨⟨"p.A"⟩, [.internalName .instructionOperand "p/A$1"]⟩
  have hkinds : listed true c .programs = [(⟨"p.A.1"⟩, some .instructionOperand)] := by
    decide +kernel
  have hplain : listed false c .programs = [] := by decide +kernel
  obtain ⟨o, ho⟩ := (h c .programs ⟨"p.A.1"⟩).1 ⟨_, by rw [hkinds]; exact List.mem_singleton_self _⟩
  rw [hplain] at ho
  cases ho

end ReferenceListing
end ClasspathAudit
