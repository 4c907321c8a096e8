import ClasspathAudit.Run

/-
# Reports as test results

The summary of a run in the XML of test reports: one test case for every project, which fails if the
project violates the policy and is in error if it could not be analysed.
-/
namespace ClasspathAudit
namespace JUnitReport

/-! ### Texts in XML -/

/-- A character in the text of an XML document or in an attribute. -/
def escapeChar (c : Char) : List Char :=
  if c = '&' then ['&', 'a', 'm', 'p', ';']
  else if c = '<' then ['&', 'l', 't', ';']
  else if c = '>' then ['&', 'g', 't', ';']
  else if c = '"' then ['&', 'q', 'u', 'o', 't', ';']
  else if c = '\'' then ['&', 'a', 'p', 'o', 's', ';']
  else [c]

/-- A text in an XML document. -/
def escape (text : String) : String :=
  Text.substitute escapeChar text

/-! ### Counts -/

/-- The numbers of test cases, failures and errors. -/
structure Counts where
  /-- All test cases. -/
  tests : Nat
  /-- Projects that violate the policy. -/
  failures : Nat
  /-- Projects that could not be analysed. -/
  errors : Nat
deriving DecidableEq

/-- The counts of a run. -/
def counts (s : RunSummary) : Counts where
  tests := s.results.length + s.failures.length
  failures := s.results.countP s.policy.isViolatedBy
  errors := s.failures.length

/-- The counts as attributes. -/
def Counts.attributes (c : Counts) : String :=
  s!"tests=\"{c.tests}\" failures=\"{c.failures}\" errors=\"{c.errors}\""

/-! ### Test cases -/

/-- The start of a test case, without the end of its tag. -/
def caseStart (project : ProjectId) : String :=
  "    <testcase name=\"" ++ escape project.label ++ "\" classname=\"depsweep\""

/-- The lines on a transitive dependency and the classes of it that are used. -/
def useLines (artifact : Artifact) (classes : List ClassName) : List String :=
  ("used transitive dependency: " ++ escape artifact.label) :: classes.map ("  " ++ ·.text)

/-- The lines on the findings in a project. -/
def findingLines (f : Findings) : List String :=
  f.unusedList.map (fun artifact => "unused direct dependency: " ++ escape artifact.label) ++
    f.usedList.flatMap fun (artifact, classes) => useLines artifact classes

/-- The test case of a project that could be analysed. -/
def resultLines (policy : Policy) (f : Findings) : List String :=
  if policy.isViolatedBy f then
    [caseStart f.project ++ ">", "      <failure message=\"Dependency problems detected\">"] ++
      findingLines f ++ ["      </failure>", "    </testcase>"]
  else
    [caseStart f.project ++ " />"]

/-- The test case of a project that could not. -/
def failureLines (failure : ProjectFailure) : List String :=
  [caseStart failure.project ++ ">",
    "      <error message=\"" ++ escape failure.report.message ++ "\" />",
    "    </testcase>"]

/-! ### Reports -/

/-- The lines of the report on a run. -/
def lines (s : RunSummary) : List String :=
  let attributes := (counts s).attributes
  ["<?xml version=\"1.0\" encoding=\"UTF-8\"?>",
    s!"<testsuites name=\"depsweep\" {attributes}>",
    s!"  <testsuite name=\"dependency-usage\" {attributes}>"] ++
  s.results.flatMap (resultLines s.policy) ++ s.failures.flatMap failureLines ++
  ["  </testsuite>", "</testsuites>"]

/-- The report on a run. -/
def report (s : RunSummary) : String :=
  Text.unlines (lines s)

end JUnitReport
end ClasspathAudit
