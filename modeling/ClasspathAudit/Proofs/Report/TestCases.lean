import ClasspathAudit.Report.JUnit
import ClasspathAudit.Proofs.Report.Xml
import ClasspathAudit.Proofs.Text.Parts

/-
# Test results as a document

The report on a run as test results is a tree that is written out: the elements that stand for the
run, for its projects and for what is found in them. How a label is written in an attribute or in a
text is a parameter of the tree, so that the same tree is written and read back.
-/
namespace ClasspathAudit
namespace JUnitReport

open Xml (Content Attribute)

/-! ### The tree of a report -/

/-- How texts stand in a tree. -/
structure Style where
  /-- As the value of an attribute. -/
  value : String → String
  /-- In a text between tags. -/
  text : String → String

/-- Texts as they are written. -/
def Style.written : Style := ⟨escape, escape⟩

section Tree

variable (style : Style)

/-- The lines that list the findings on a project. -/
def listing (f : Findings) : List String :=
  f.unusedList.map (fun artifact => "unused direct dependency: " ++ style.text artifact.label) ++
    f.usedList.flatMap fun (artifact, classes) =>
      ("used transitive dependency: " ++ style.text artifact.label) ::
        classes.map ("  " ++ ·.text)

/-- The text of a failure. -/
def failureText (f : Findings) : String :=
  "\n" ++ Text.unlines (listing style f) ++ "      "

/-- What the test case of a project holds that could be analysed. -/
def verdict (policy : Policy) (f : Findings) : Content :=
  if policy.isViolatedBy f then
    .element "\n      ".toList "failure".toList
      [("message".toList, "Dependency problems detected".toList)]
      (.text (failureText style f).toList) (.text "\n    ".toList)
  else .text []

/-- What the test case of a project holds that could not. -/
def fault (failure : ProjectFailure) : Content :=
  .element "\n      ".toList "error".toList
    [("message".toList, (style.value failure.report.message).toList)] (.text [])
    (.text "\n    ".toList)

/-- The attributes of a test case. -/
def caseAttributes (project : ProjectId) : List Attribute :=
  [("name".toList, (style.value project.label).toList),
    ("classname".toList, "depsweep".toList)]

/-- A test case, with what it holds and what comes after it. -/
def testCase (project : ProjectId) (inner after : Content) : Content :=
  .element "\n    ".toList "testcase".toList (caseAttributes style project) inner after

/-- All test cases. -/
def testCases (s : RunSummary) : Content :=
  s.results.foldr (fun f => testCase style f.project (verdict style s.policy f)) <|
    s.failures.foldr (fun failure => testCase style failure.project (fault style failure)) <|
      .text "\n  ".toList

/-- The counts of a run, after the name of the element that they are attributes of. -/
def countAttributes (name : String) (c : Counts) : List Attribute :=
  [("name".toList, name.toList), ("tests".toList, (toString c.tests).toList),
    ("failures".toList, (toString c.failures).toList),
    ("errors".toList, (toString c.errors).toList)]

/-- What the root of a document holds. -/
def suite (s : RunSummary) : Content :=
  .element "\n  ".toList "testsuite".toList (countAttributes "dependency-usage" (counts s))
    (testCases style s) (.text "\n".toList)

/-- What follows the declaration. -/
def suites (s : RunSummary) : Content :=
  .element "\n".toList "testsuites".toList (countAttributes "depsweep" (counts s))
    (suite style s) (.text "\n".toList)

end Tree

/-! ### The tree is what is written -/

/-- Lines, each of them after the end of the line before. -/
def broken (lines : List String) : List Char :=
  lines.flatMap fun line => '\n' :: line.toList

lemma broken_append (lines others : List String) :
    broken (lines ++ others) = broken lines ++ broken others :=
  List.flatMap_append

lemma toList_unlines (lines : List String) :
    '\n' :: (Text.unlines lines).toList = broken lines ++ ['\n'] := by
  induction lines with
  | nil => rfl
  | cons line lines ih =>
    rw [Text.toList_unlines_cons, ih, broken, broken, List.flatMap_cons, List.cons_append,
      List.cons_append, List.append_assoc]

lemma toList_failureText (style : Style) (f : Findings) :
    (failureText style f).toList = broken (listing style f) ++ "\n      ".toList := by
  have hlines := toList_unlines (listing style f)
  simp only [failureText, String.toList_append]
  change '\n' :: (Text.unlines (listing style f)).toList ++ _ = _
  rw [hlines, List.append_assoc]
  rfl

lemma write_countAttributes (name : String) (c : Counts) :
    (countAttributes name c).flatMap Xml.writeAttribute =
      (s!" name=\"{name}\" {c.attributes}").toList := by
  simp [countAttributes, Xml.writeAttribute, Counts.attributes, toString]

lemma write_verdict_of_isViolatedBy {policy : Policy} {f : Findings}
    (h : policy.isViolatedBy f = true) :
    (verdict .written policy f).write = broken
      (["      <failure message=\"Dependency problems detected\">"] ++ findingLines f ++
        ["      </failure>"]) ++ "\n    ".toList := by
  have hlisting : listing .written f = findingLines f := rfl
  simp [verdict, h, Content.write, Xml.writeAttribute, toList_failureText, broken,
    hlisting]

lemma toList_caseStart (project : ProjectId) : (caseStart project).toList =
    "    <testcase".toList ++ (caseAttributes .written project).flatMap Xml.writeAttribute := by
  unfold caseStart
  simp [caseAttributes, Xml.writeAttribute, Style.written]

lemma write_testCase (project : ProjectId) (inner after : Content) (h : inner.isEmpty = false) :
    (testCase .written project inner after).write =
      '\n' :: (caseStart project ++ ">").toList ++ inner.write ++ "</testcase>".toList ++
        after.write := by
  simp [testCase, Content.write, h, toList_caseStart]

lemma write_testCase_nil (project : ProjectId) (after : Content) :
    (testCase .written project (.text []) after).write =
      '\n' :: (caseStart project ++ " />").toList ++ after.write := by
  simp [testCase, Content.write, toList_caseStart]

lemma write_testCase_verdict (policy : Policy) (f : Findings) (after : Content) :
    (testCase .written f.project (verdict .written policy f) after).write =
      broken (resultLines policy f) ++ after.write := by
  by_cases h : policy.isViolatedBy f = true
  · have hinner : (verdict .written policy f).isEmpty = false := by rw [verdict, if_pos h]; rfl
    rw [write_testCase _ _ _ hinner, write_verdict_of_isViolatedBy h, resultLines, if_pos h]
    simp [broken]
  · rw [verdict, if_neg h, write_testCase_nil, resultLines, if_neg h]
    simp [broken]

lemma write_testCase_fault (failure : ProjectFailure) (after : Content) :
    (testCase .written failure.project (fault .written failure) after).write =
      broken (failureLines failure) ++ after.write := by
  rw [write_testCase _ _ _ rfl, failureLines]
  simp [fault, Content.write, Xml.writeAttribute, broken, Style.written]

/-- Test cases are written one after the other. -/
lemma write_foldr {α : Type} {lines : α → List String} {add : α → Content → Content}
    (hadd : ∀ item after, (add item after).write = broken (lines item) ++ after.write)
    (items : List α) (after : Content) :
    (items.foldr add after).write = broken (items.flatMap lines) ++ after.write := by
  induction items with
  | nil => rfl
  | cons item items ih =>
    rw [List.foldr_cons, hadd, ih, List.flatMap_cons, broken_append, List.append_assoc]

lemma write_testCases (s : RunSummary) :
    (testCases .written s).write =
      broken (s.results.flatMap (resultLines s.policy)) ++
        (broken (s.failures.flatMap failureLines) ++ "\n  ".toList) := by
  rw [testCases, write_foldr (write_testCase_verdict s.policy), write_foldr write_testCase_fault]
  rfl

lemma isEmpty_testCases (style : Style) (s : RunSummary) :
    (testCases style s).isEmpty = false := by
  rw [testCases]
  cases s.results with
  | cons => rfl
  | nil => cases s.failures <;> rfl

/-- A report is its tree, written out. -/
lemma report_eq_suites (s : RunSummary) :
    report s = Xml.declaration ++ String.ofList (suites .written s).write := by
  rw [← String.toList_inj, ← List.cons_inj_right '\n', report, toList_unlines,
    String.toList_append, String.toList_ofList]
  unfold lines
  simp [broken, suites, suite, Content.write, isEmpty_testCases, write_testCases,
    write_countAttributes, Xml.declaration, toString]

/-! ### The elements of a tree -/

section Elements

variable {style : Style} {s : RunSummary} {name : String}

lemma elements_foldr {α : Type} {add : α → Content → Content} {found : α → List Xml.Element}
    (hadd : ∀ item after, (add item after).elements name = found item ++ after.elements name)
    (items : List α) (after : Content) :
    (items.foldr add after).elements name = items.flatMap found ++ after.elements name := by
  induction items with
  | nil => rfl
  | cons item items ih => rw [List.foldr_cons, hadd, ih, List.flatMap_cons, List.append_assoc]

/-- The elements of a name in a test case, which may be the test case itself. -/
def elementsOfCase (style : Style) (name : String) (project : ProjectId) (inner : Content) :
    List Xml.Element :=
  (if "testcase" = name then [⟨"testcase".toList, caseAttributes style project, inner⟩] else []) ++
    inner.elements name

lemma elements_testCases : (testCases style s).elements name =
    s.results.flatMap (fun f => elementsOfCase style name f.project (verdict style s.policy f)) ++
    s.failures.flatMap fun failure =>
      elementsOfCase style name failure.project (fault style failure) := by
  have hcase : ∀ project inner after, (testCase style project inner after).elements name =
      elementsOfCase style name project inner ++ after.elements name := by
    intro project inner after
    rw [testCase, elementsOfCase, Content.elements]
    simp only [String.toList_inj]
  rw [testCases, elements_foldr fun f after => hcase f.project _ after,
    elements_foldr fun failure after => hcase failure.project _ after]
  exact congrArg _ (List.append_nil _)

lemma elements_suite (h : name ≠ "testsuite") :
    (suite style s).elements name = (testCases style s).elements name := by
  rw [suite, Content.elements, if_neg fun heq => h (String.toList_inj.1 heq).symm]
  exact List.append_nil _

/-- The elements of the names that tell of verdicts. -/
lemma elements_verdict (policy : Policy) (f : Findings) (hname : name ≠ "failure") :
    (verdict style policy f).elements name = [] := by
  rw [verdict]
  split
  · rw [Content.elements, if_neg fun heq => hname (String.toList_inj.1 heq).symm]
    rfl
  · rfl

lemma failures_verdict (policy : Policy) (f : Findings) :
    (verdict style policy f).elements "failure" =
      if policy.isViolatedBy f then
        [⟨"failure".toList, [("message".toList, "Dependency problems detected".toList)],
          .text (failureText style f).toList⟩]
      else [] := by
  rw [verdict]
  split <;> rfl

lemma elements_fault (failure : ProjectFailure) (hname : name ≠ "error") :
    (fault style failure).elements name = [] := by
  rw [fault, Content.elements, if_neg fun heq => hname (String.toList_inj.1 heq).symm]
  rfl

/-- Among the test cases there are elements of three names. -/
lemma elements_testCases_eq_nil (hcase : name ≠ "testcase") (hfailure : name ≠ "failure")
    (herror : name ≠ "error") : (testCases style s).elements name = [] := by
  rw [elements_testCases, List.append_eq_nil_iff, List.flatMap_eq_nil_iff, List.flatMap_eq_nil_iff]
  refine ⟨fun f _ => ?_, fun failure _ => ?_⟩
  · rw [elementsOfCase, if_neg hcase.symm, elements_verdict _ _ hfailure, List.append_nil]
  · rw [elementsOfCase, if_neg hcase.symm, elements_fault _ herror, List.append_nil]

/-- All test cases, first those of projects that could be analysed. -/
lemma testcases_suite : (suite style s).elements "testcase" =
    s.results.map (fun f => ⟨"testcase".toList, caseAttributes style f.project,
      verdict style s.policy f⟩) ++
    s.failures.map fun failure => ⟨"testcase".toList, caseAttributes style failure.project,
      fault style failure⟩ := by
  have hverdict : ∀ f, (verdict style s.policy f).elements "testcase" = [] :=
    fun f => elements_verdict s.policy f (by decide)
  have hfault : ∀ failure, (fault style failure).elements "testcase" = [] :=
    fun failure => elements_fault failure (by decide)
  rw [elements_suite (by decide), elements_testCases, List.map_eq_flatMap, List.map_eq_flatMap]
  simp only [elementsOfCase, hverdict, hfault, if_pos, List.append_nil]

/-- One element for each item that is counted makes the count. -/
lemma length_flatMap_ite {α β : Type} {g : α → List β} {p : α → Bool} {items : List α}
    (h : ∀ item, (g item).length = if p item = true then 1 else 0) :
    (items.flatMap g).length = items.countP p := by
  induction items with
  | nil => rfl
  | cons item items ih =>
    rw [List.flatMap_cons, List.length_append, ih, h, List.countP_cons, Nat.add_comm]

/-- There are as many test cases, failures and errors as the counts say. -/
lemma length_elements_suite (style : Style) (s : RunSummary) :
    ((suite style s).elements "testcase").length = (counts s).tests ∧
    ((suite style s).elements "failure").length = (counts s).failures ∧
    ((suite style s).elements "error").length = (counts s).errors := by
  refine ⟨?_, ?_, ?_⟩
  · rw [testcases_suite, List.length_append, List.length_map, List.length_map]
    rfl
  · have hverdict : ∀ f, (elementsOfCase style "failure" f.project
        (verdict style s.policy f)).length = if s.policy.isViolatedBy f then 1 else 0 := by
      intro f
      rw [elementsOfCase, if_neg (by decide), List.nil_append, failures_verdict]
      split <;> rfl
    have hfault : ∀ failure, elementsOfCase style "failure" failure.project (fault style failure) =
        [] := fun _ => rfl
    rw [elements_suite (by decide), elements_testCases, List.length_append,
      length_flatMap_ite hverdict]
    simp [hfault, counts]
  · have hverdict : ∀ f, elementsOfCase style "error" f.project (verdict style s.policy f) =
        [] := fun f => elements_verdict s.policy f (by decide)
    have hfault : ∀ failure, (elementsOfCase style "error" failure.project
        (fault style failure)).length = 1 := fun _ => rfl
    rw [elements_suite (by decide), elements_testCases]
    simp [hverdict, hfault, counts]

end Elements

end JUnitReport
end ClasspathAudit
