import Mathlib.Data.List.Forall2
import ClasspathAudit.Proofs.Report.Escaping
import ClasspathAudit.Proofs.Report.TestCases

/-
# Test results that can be read back

A report on a run as test results is a document from which a reader gets what was put into it: one
test case for each project, with its name and, if the project violates the policy, the list of all
findings. Labels and messages are escaped, so it does not matter what characters are in them, as
long as a document can hold these at all. Names of classes are written as they are. So a report is
a document if no class has a name that reads as markup; this is `report_readable`. A class of such a
name spoils the report.
-/
namespace ClasspathAudit
namespace JUnitReport

open Xml (Content Attribute)

/-! ### Texts that are written as they should be -/

/-- Whether a document can hold a label as the value of an attribute, and gives it back: each blank
character would be read as a space. -/
def IsPlainLabel (text : String) : Prop :=
  ∀ c ∈ text.toList, Xml.isChar c = true ∧ (Xml.isBlank c = true → c = ' ')

/-- Whether a document can hold a text between tags, and gives it back: a carriage return would be
read as a line feed. -/
def IsPlainText (text : String) : Prop :=
  ∀ c ∈ text.toList, Xml.isChar c = true ∧ c ≠ '\r'

/-- Whether a document can hold a message as the value of an attribute. -/
def IsPlainMessage (text : String) : Prop :=
  ∀ c ∈ text.toList, Xml.isChar c = true

/-- Whether the name of a class can be written without being escaped. -/
structure IsPlainName (c : ClassName) : Prop where
  text : IsPlainText c.text
  noMarkup : '&' ∉ c.text.toList ∧ '<' ∉ c.text.toList
  noSectionEnd : ¬[']', ']', '>'] <:+: c.text.toList

/-- Whether a document can hold the findings on a project, and gives them back. -/
structure IsPlainFindings (f : Findings) : Prop where
  unused : ∀ a ∈ f.unusedList, IsPlainText a.label
  used : ∀ use ∈ f.usedList, IsPlainText use.1.label ∧ ∀ c ∈ use.2, IsPlainName c

/-- Whether a document can hold what the report on a run says, and gives it back. -/
structure IsPlain (s : RunSummary) : Prop where
  results : ∀ f ∈ s.results, IsPlainLabel f.project.label
  findings : ∀ f ∈ s.results, s.policy.isViolatedBy f = true → IsPlainFindings f
  failures : ∀ failure ∈ s.failures,
    IsPlainLabel failure.project.label ∧ IsPlainMessage failure.report.message

-- The text is looked through, and not all characters that there are.
instance (text : String) : Decidable (IsPlainLabel text) :=
  decidable_of_iff (text.toList.Forall _) List.forall_iff_forall_mem

instance (text : String) : Decidable (IsPlainText text) :=
  decidable_of_iff (text.toList.Forall _) List.forall_iff_forall_mem

instance (text : String) : Decidable (IsPlainMessage text) :=
  decidable_of_iff (text.toList.Forall _) List.forall_iff_forall_mem

instance (c : ClassName) : Decidable (IsPlainName c) :=
  decidable_of_iff (IsPlainText c.text ∧ ('&' ∉ c.text.toList ∧ '<' ∉ c.text.toList) ∧
      ¬[']', ']', '>'] <:+: c.text.toList)
    ⟨fun ⟨htext, hmarkup, hend⟩ => ⟨htext, hmarkup, hend⟩,
      fun h => ⟨h.text, h.noMarkup, h.noSectionEnd⟩⟩

instance (f : Findings) : Decidable (IsPlainFindings f) :=
  decidable_of_iff ((∀ a ∈ f.unusedList, IsPlainText a.label) ∧
      ∀ use ∈ f.usedList, IsPlainText use.1.label ∧ ∀ c ∈ use.2, IsPlainName c)
    ⟨fun ⟨hunused, hused⟩ => ⟨hunused, hused⟩, fun h => ⟨h.unused, h.used⟩⟩

instance (s : RunSummary) : Decidable (IsPlain s) :=
  decidable_of_iff ((∀ f ∈ s.results, IsPlainLabel f.project.label) ∧
      (∀ f ∈ s.results, s.policy.isViolatedBy f = true → IsPlainFindings f) ∧
      ∀ failure ∈ s.failures,
        IsPlainLabel failure.project.label ∧ IsPlainMessage failure.report.message)
    ⟨fun ⟨hresults, hfindings, hfailures⟩ => ⟨hresults, hfindings, hfailures⟩,
      fun h => ⟨h.results, h.findings, h.failures⟩⟩

section Texts

variable {text raw : String}

lemma decode?_escape (h : ∀ c ∈ text.toList, Xml.isChar c = true) :
    Xml.decode? (escape text).toList = some text.toList := by
  have hchar : ∀ c ∈ text.toList, Xml.decode? (escapeChar c) = some [c] := by
    intro c hc
    have hchar := h c hc
    rw [escapeChar]
    split_ifs with hamp hlt hgt hquot hapos
    · subst hamp; rfl
    · subst hlt; rfl
    · subst hgt; rfl
    · subst hquot; rfl
    · subst hapos; rfl
    · exact Xml.decode?_eq_self (by simp [hchar, hamp, hlt])
  rw [toList_escape, Xml.decode?_flatMap hchar, List.flatMap_singleton']

/-- Nothing that delimits a value or ends a section is left by escaping. -/
lemma notMem_escape {c : Char} (hc : c = '"' ∨ c = '>') : c ∉ (escape text).toList := by
  rw [toList_escape, flatMap_escapeChar]
  rcases hc with rfl | rfl <;> exact Text.Escapes.notMem_write _ (by decide) (by decide)

end Texts

/-! ### Attributes -/

/-- Texts as they are read back. -/
def Style.read : Style := ⟨fun text => String.ofList (Xml.spaced text.toList), id⟩

/-- Texts as they are. -/
def Style.plain : Style := ⟨id, id⟩

lemma isName_of_forall {name : List Char} (hstart : name.head?.any Xml.isNameStart = true)
    (hrest : name.tail.all Xml.isNameChar = true) : Xml.IsName name := by
  cases name with
  | nil => cases hstart
  | cons c rest => exact ⟨c, rest, rfl, hstart, List.all_eq_true.1 hrest⟩

lemma attributeFor_escape {name : List Char} {text : String} (hname : Xml.IsName name)
    (h : ∀ c ∈ text.toList, Xml.isChar c = true) :
    Xml.AttributeFor (name, (escape text).toList) (name, (Style.read.value text).toList) where
  name := rfl
  isName := hname
  quote := notMem_escape (.inl rfl)
  value := by
    rw [Xml.attributeValue?, decode?_escape h, Style.read, String.toList_ofList]
    rfl

/-- Whether a character is itself in the value of an attribute. -/
def IsVerbatim (c : Char) : Prop :=
  (Xml.isChar c = true ∧ c ≠ '&' ∧ c ≠ '<') ∧ c ≠ '"' ∧ (Xml.isBlank c = true → c = ' ')

instance : DecidablePred IsVerbatim :=
  fun c => inferInstanceAs (Decidable (_ ∧ c ≠ '"' ∧ _))

lemma attributeFor_self {name value : List Char} (hname : Xml.IsName name)
    (h : value.Forall IsVerbatim) : Xml.AttributeFor (name, value) (name, value) where
  name := rfl
  isName := hname
  quote := fun hmem => (List.forall_iff_forall_mem.1 h _ hmem).2.1 rfl
  value := by
    rw [List.forall_iff_forall_mem] at h
    rw [Xml.attributeValue?, Xml.decode?_eq_self fun c hc => (h c hc).1, Option.map_some,
      Xml.spaced_eq_self fun c hc => (h c hc).2.2]

lemma attributeFor_toString {name : List Char} (hname : Xml.IsName name) (n : Nat) :
    Xml.AttributeFor (name, (toString n).toList) (name, (toString n).toList) := by
  refine attributeFor_self hname (List.forall_iff_forall_mem.2 fun c hc => ?_)
  have hdigit : c.isDigit = true :=
    Nat.isDigit_of_mem_toDigits (by decide) (by decide) (Nat.toList_repr ▸ hc)
  have hrange : 48 ≤ c.toNat ∧ c.toNat ≤ 57 := by
    simpa [Char.isDigit, UInt32.le_iff_toNat_le] using hdigit
  refine ⟨⟨?_, ?_, ?_⟩, ?_, fun hblank => ?_⟩
  · simp [Xml.isChar]
    omega
  · rintro rfl
    cases hdigit
  · rintro rfl
    cases hdigit
  · rintro rfl
    cases hdigit
  · simp only [Xml.isBlank, Bool.or_eq_true, beq_iff_eq] at hblank
    obtain ((rfl | rfl) | rfl) | rfl := hblank <;> cases hdigit

lemma countAttributes_for {name : String} (c : Counts) (h : name.toList.Forall IsVerbatim) :
    List.Forall₂ Xml.AttributeFor (countAttributes name c) (countAttributes name c) :=
  .cons (attributeFor_self (isName_of_forall rfl rfl) h) <|
    .cons (attributeFor_toString (isName_of_forall rfl rfl) _) <|
    .cons (attributeFor_toString (isName_of_forall rfl rfl) _) <|
    .cons (attributeFor_toString (isName_of_forall rfl rfl) _) .nil

lemma nodup_countAttributes (name : String) (c : Counts) :
    ((countAttributes name c).map Prod.fst).Nodup :=
  (by decide : ["name".toList, "tests".toList, "failures".toList, "errors".toList].Nodup)

lemma caseAttributes_for {project : ProjectId}
    (h : ∀ c ∈ project.label.toList, Xml.isChar c = true) :
    List.Forall₂ Xml.AttributeFor (caseAttributes .written project)
      (caseAttributes .read project) :=
  .cons (attributeFor_escape (isName_of_forall rfl rfl) h) <|
    .cons (attributeFor_self (isName_of_forall rfl rfl) (by decide)) .nil

/-! ### The list of findings -/

/-- Whether a line is read as another. -/
structure LineFor (raw text : String) : Prop where
  decode : Xml.decode? raw.toList = some text.toList
  noSectionEnd : ¬[']', ']', '>'] <:+: raw.toList
  noReturn : '\r' ∉ text.toList

lemma LineFor.label {what : String} {a : Artifact} (h : IsPlainText a.label)
    (hwhat : what.toList.Forall fun c =>
      (Xml.isChar c = true ∧ c ≠ '&' ∧ c ≠ '<') ∧ c ≠ '>' ∧ c ≠ '\r') :
    LineFor (what ++ Style.written.text a.label) (what ++ Style.read.text a.label) where
  decode := by
    rw [List.forall_iff_forall_mem] at hwhat
    rw [String.toList_append, String.toList_append,
      Xml.decode?_append (Xml.decode?_eq_self fun c hc => (hwhat c hc).1)]
    exact congrArg (Option.map _) (decode?_escape fun c hc => (h c hc).1)
  noSectionEnd hinfix := by
    have hmem : '>' ∈ (what ++ Style.written.text a.label).toList := hinfix.subset (by simp)
    rw [String.toList_append, List.mem_append] at hmem
    rw [List.forall_iff_forall_mem] at hwhat
    exact hmem.elim (fun hmem => (hwhat _ hmem).2.1 rfl) (notMem_escape (.inr rfl))
  noReturn hmem := by
    rw [String.toList_append, List.mem_append] at hmem
    rw [List.forall_iff_forall_mem] at hwhat
    exact hmem.elim (fun hmem => (hwhat _ hmem).2.2 rfl) fun hmem => (h _ hmem).2 rfl

lemma LineFor.use {c : ClassName} (h : IsPlainName c) :
    LineFor ("  " ++ c.text) ("  " ++ c.text) where
  decode := by
    have htext : Xml.decode? c.text.toList = some c.text.toList := Xml.decode?_eq_self fun d hd =>
      ⟨(h.text d hd).1, fun heq => h.noMarkup.1 (heq ▸ hd), fun heq => h.noMarkup.2 (heq ▸ hd)⟩
    rw [String.toList_append, Xml.decode?_append (by decide : _ = some "  ".toList), htext]
    rfl
  noSectionEnd hinfix := by
    rw [String.toList_append] at hinfix
    refine h.noSectionEnd (Xml.infix_of_infix_append "  ".toList hinfix ?_)
    decide
  noReturn hmem := by
    rw [String.toList_append, List.mem_append] at hmem
    exact hmem.elim (by decide) fun hmem => (h.text _ hmem).2 rfl

section Listing

variable {raws texts : List String} {rest : List Char}

lemma decode?_broken (h : List.Forall₂ LineFor raws texts) :
    Xml.decode? (broken raws ++ rest) = (Xml.decode? rest).map (broken texts ++ ·) := by
  induction h with
  | nil => exact Option.map_id'.symm
  | @cons raw text raws texts hline _ ih =>
    have hbreak : Xml.decode? ('\n' :: raw.toList) = some ('\n' :: text.toList) := by
      rw [Xml.decode?_cons (by decide), hline.decode]
      rfl
    rw [broken, List.flatMap_cons, List.append_assoc, Xml.decode?_append hbreak]
    change ((Xml.decode? (broken raws ++ rest)).map _) = _
    rw [ih, Option.map_map]
    simp [broken, Function.comp_def]

lemma exists_broken_append (lines : List String) (rest : List Char) :
    ∃ others, broken lines ++ '\n' :: rest = '\n' :: others := by
  cases lines <;> exact ⟨_, rfl⟩

lemma noSectionEnd_broken (h : List.Forall₂ LineFor raws texts)
    (hrest : ¬[']', ']', '>'] <:+: rest) : ¬[']', ']', '>'] <:+: broken raws ++ '\n' :: rest := by
  induction h with
  | nil =>
    exact fun hinfix => hrest (Xml.infix_of_infix_append ['\n'] hinfix (by decide))
  | @cons raw text raws texts hline _ ih =>
    intro hinfix
    obtain ⟨others, hothers⟩ := exists_broken_append raws rest
    have hlines : [']', ']', '>'] <:+: raw.toList ++ '\n' :: others := by
      rw [← hothers]
      refine Xml.infix_of_infix_append ['\n'] ?_ (by decide)
      simpa [broken] using hinfix
    rcases Xml.infix_or_infix hlines (by decide) with hraw | hrest
    · exact hline.noSectionEnd hraw
    · exact ih (hothers ▸ hrest.trans (List.suffix_cons _ _).isInfix)

lemma notMem_broken (h : List.Forall₂ LineFor raws texts) : '\r' ∉ broken texts := by
  induction h with
  | nil => simp [broken]
  | @cons raw text raws texts hline _ ih =>
    rw [broken, List.flatMap_cons, List.mem_append, List.mem_cons, not_or, not_or]
    exact ⟨⟨by decide, hline.noReturn⟩, ih⟩

end Listing

lemma listing_for {f : Findings} (h : IsPlainFindings f) :
    List.Forall₂ LineFor (listing .written f) (listing .read f) := by
  refine List.rel_append ?_ (List.rel_flatMap (R := fun use use' => use = use' ∧ use ∈ f.usedList)
    (List.forall₂_same.2 fun use huse => ⟨rfl, huse⟩) ?_)
  · rw [List.forall₂_map_left_iff, List.forall₂_map_right_iff, List.forall₂_same]
    exact fun a ha => .label (h.unused a ha) (by decide)
  · rintro ⟨a, classes⟩ _ ⟨rfl, huse⟩
    obtain ⟨ha, hclasses⟩ := h.used _ huse
    refine .cons (.label ha (by decide)) ?_
    rw [List.forall₂_map_left_iff, List.forall₂_map_right_iff, List.forall₂_same]
    exact fun c hc => .use (hclasses c hc)

/-- The text of a failure is read back, with every label and every class in it. -/
lemma contentText?_failureText {f : Findings} (h : IsPlainFindings f) :
    Xml.contentText? (failureText .written f).toList = some (failureText .read f).toList := by
  have hlisting := listing_for h
  have hend : "\n      ".toList = '\n' :: "      ".toList := rfl
  have hreturn : '\r' ∉ broken (listing .read f) ++ '\n' :: "      ".toList := by
    rw [List.mem_append, not_or]
    exact ⟨notMem_broken hlisting, by decide⟩
  rw [toList_failureText, toList_failureText, hend, Xml.contentText?,
    if_neg (noSectionEnd_broken hlisting (by decide)), decode?_broken hlisting,
    (by decide : Xml.decode? ('\n' :: "      ".toList) = some ('\n' :: "      ".toList)),
    Option.map_some, Option.map_some, Xml.lineEnds_eq_self hreturn]

/-! ### The tree of a report -/

lemma verdict_for {policy : Policy} {f : Findings}
    (h : policy.isViolatedBy f = true → IsPlainFindings f) :
    Xml.StandsFor (verdict .written policy f) (verdict .read policy f) := by
  rw [verdict, verdict]
  split
  · rename_i hviolated
    refine .element (by decide) (isName_of_forall rfl rfl)
      (.cons (attributeFor_self (isName_of_forall rfl rfl) (by decide)) .nil) (by decide)
      (.text (contentText?_failureText (h hviolated))) (.text (by decide))
  · exact .text rfl

lemma fault_for {failure : ProjectFailure} (h : IsPlainMessage failure.report.message) :
    Xml.StandsFor (fault .written failure) (fault .read failure) :=
  .element (by decide) (isName_of_forall rfl rfl)
    (.cons (attributeFor_escape (isName_of_forall rfl rfl) h) .nil) (by simp)
    (.text rfl) (.text (by decide))

lemma testCase_for {project : ProjectId} {rawInner inner rawAfter after : Content}
    (h : ∀ c ∈ project.label.toList, Xml.isChar c = true) (hinner : Xml.StandsFor rawInner inner)
    (hafter : Xml.StandsFor rawAfter after) :
    Xml.StandsFor (testCase .written project rawInner rawAfter)
      (testCase .read project inner after) :=
  .element (by decide) (isName_of_forall rfl rfl) (caseAttributes_for h)
    (by decide : ["name".toList, "classname".toList].Nodup) hinner hafter

lemma foldr_for {α : Type} {items : List α} {rawAdd add : α → Content → Content}
    {rawAfter after : Content} (hadd : ∀ item ∈ items, ∀ rawAfter after,
      Xml.StandsFor rawAfter after → Xml.StandsFor (rawAdd item rawAfter) (add item after))
    (hafter : Xml.StandsFor rawAfter after) :
    Xml.StandsFor (items.foldr rawAdd rawAfter) (items.foldr add after) := by
  induction items with
  | nil => exact hafter
  | cons item items ih =>
    rw [List.forall_mem_cons] at hadd
    exact hadd.1 _ _ (ih hadd.2)

lemma testCases_for {s : RunSummary} (h : IsPlain s) :
    Xml.StandsFor (testCases .written s) (testCases .read s) := by
  refine foldr_for (fun f hf rawAfter after hafter => ?_)
    (foldr_for (fun failure hfailure rawAfter after hafter => ?_) (.text (by decide)))
  · exact testCase_for (fun c hc => (h.results f hf c hc).1) (verdict_for (h.findings f hf)) hafter
  · obtain ⟨hlabel, hmessage⟩ := h.failures failure hfailure
    exact testCase_for (fun c hc => (hlabel c hc).1) (fault_for hmessage) hafter

lemma suites_for {s : RunSummary} (h : IsPlain s) :
    Xml.StandsFor (suites .written s) (suites .read s) :=
  .element (by decide) (isName_of_forall rfl rfl) (countAttributes_for _ (by decide))
    (nodup_countAttributes _ _)
    (.element (by decide) (isName_of_forall rfl rfl) (countAttributes_for _ (by decide))
    (nodup_countAttributes _ _)
      (testCases_for h) (.text (by decide)))
    (.text (by decide))

/-! ### Test cases that are read back -/

/-- What a reader takes from a test case: its name, and the texts of its failures. -/
def readCase (e : Xml.Element) : Option String × List String :=
  (e.attribute? "name", (e.elements "failure").map (·.text))

lemma readCase_testCase {project : ProjectId} (inner : Content) (h : IsPlainLabel project.label) :
    readCase ⟨"testcase".toList, caseAttributes .read project, inner⟩ =
      (some project.label, (inner.elements "failure").map (·.text)) := by
  have hlabel : Style.read.value project.label = project.label := by
    have hspaced : Xml.spaced project.label.toList = project.label.toList :=
      Xml.spaced_eq_self fun c hc => (h c hc).2
    exact (congrArg String.ofList hspaced).trans String.ofList_toList
  rw [readCase, Xml.Element.attribute?, caseAttributes, List.lookup_cons_self, hlabel,
    Option.map_some, String.ofList_toList]
  rfl

/-- A report on a run is a document, if no class has a name that reads as markup and all texts are
of characters that a document can hold. What is read from it are the names of all projects, and for
each project that violates the policy the list of all findings, unchanged. -/
theorem report_readable (s : RunSummary) (h : IsPlain s) :
    ∃ document, Xml.parse? (report s) = some document ∧
      (document.elements "testcase").map readCase =
        s.results.map (fun f => (some f.project.label,
          if s.policy.isViolatedBy f then [failureText .plain f] else [])) ++
        s.failures.map fun failure => (some failure.project.label, []) := by
  have hparse := Xml.parse?_write (suites_for h) (by decide) (by decide)
  refine ⟨_, (report_eq_suites s).symm ▸ hparse, ?_⟩
  rw [Xml.Element.elements, testcases_suite, List.map_append, List.map_map, List.map_map]
  refine congrArg₂ _ (List.map_congr_left fun f hf => ?_) (List.map_congr_left fun failure hf => ?_)
  · rw [Function.comp_apply, readCase_testCase _ (h.results f hf), failures_verdict]
    split
    · simp [Xml.Element.text, Content.ownText]
      rfl
    · rfl
  · rw [Function.comp_apply, readCase_testCase _ (h.failures failure hf).1]
    rfl

/-! ### A report that can be read back, and one that cannot -/

/-- The run over a single project, which uses one class of a transitive dependency. -/
def sampleRun (use : ClassName) : RunSummary where
  results := [((Findings.empty ⟨"com.acme", "<app>", "1.0", .jar⟩).markUnused
    ⟨⟨"com.acme", "a&b", "1.0", .jar, none⟩, .compile, none⟩).recordUse
      ⟨⟨"com.acme", "library", "1.0", .jar, none⟩, .compile, none⟩ use]
  failures := [⟨⟨"com.acme", "broken", "1.0", .jar⟩, ⟨"archive <lib.jar> is corrupt", []⟩⟩]
  policy := { failIfUsedTransitive := true }
  stoppedEarly := false

theorem report_readable_sampleRun :
    IsPlain (sampleRun ⟨"q.B>\"C"⟩) ∧ ∃ document,
      Xml.parse? (report (sampleRun ⟨"q.B>\"C"⟩)) = some document ∧
      (document.elements "testcase").map readCase =
        [(some "com.acme:<app>:jar:1.0",
          ["\nunused direct dependency: com.acme:a&b:jar:1.0:compile\n" ++
            "used transitive dependency: com.acme:library:jar:1.0:compile\n" ++
            "  q.B>\"C\n      "]),
          (some "com.acme:broken:jar:1.0", [])] := by
  have hplain : IsPlain (sampleRun ⟨"q.B>\"C"⟩) := by decide +kernel
  refine ⟨hplain, ?_⟩
  obtain ⟨document, hparse, hcases⟩ := report_readable (sampleRun ⟨"q.B>\"C"⟩) hplain
  refine ⟨document, hparse, hcases.trans ?_⟩
  decide +kernel

/-- Archives and class files can share the name `q.B<C`; a report that lists it is no document. -/
theorem report_unreadable :
    ClassName.ofEntryPath? "q/B<C.class" = some ⟨"q.B<C"⟩ ∧
    ClassName.ofInternal "q/B<C" = ⟨"q.B<C"⟩ ∧
    Xml.parse? (report (sampleRun ⟨"q.B<C"⟩)) = none := by
  refine ⟨by decide +kernel, by decide +kernel, ?_⟩
  rw [report_eq_suites, Xml.parse?_declaration]
  decide +kernel

end JUnitReport
end ClasspathAudit
