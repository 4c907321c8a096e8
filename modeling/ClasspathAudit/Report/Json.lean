import ClasspathAudit.Json
import ClasspathAudit.Run

/-
# Reports in JSON

The summary of a run as a document for other programs, with its fields in alphabetical order.
-/
namespace ClasspathAudit
namespace JsonReport

/-- A transitive dependency with the classes of it that are used. -/
def ofUse (artifact : Artifact) (classes : List ClassName) : Json :=
  .object [("artifact", .text artifact.label), ("classes", .texts (classes.map (·.text)))]

/-- The findings on a project. -/
def ofFindings (policy : Policy) (f : Findings) : Json :=
  .object [
    ("project", .text f.project.label),
    ("unused_direct_dependencies", .texts (f.unusedList.map (·.label))),
    ("used_transitive_dependencies", .list (f.usedList.map fun (a, classes) => ofUse a classes)),
    ("violates_policy", .bool (policy.isViolatedBy f))]

/-- A project that could not be analysed. -/
def ofFailure (failure : ProjectFailure) : Json :=
  .object [("error", .text failure.report.message), ("project", .text failure.project.label)]

/-- A violation. -/
def ofViolation (violation : Violation) : Json :=
  .object [("message", .text violation.message), ("project", .text violation.project.label)]

/-- The document on a run. -/
def ofSummary (s : RunSummary) : Json :=
  .object [
    ("failures", .list (s.failures.map ofFailure)),
    ("has_unused_direct_dependencies", .bool s.hasUnused),
    ("has_used_transitive_dependencies", .bool s.hasUsedTransitive),
    ("project_count", .number s.results.length),
    ("projects", .list (s.results.map (ofFindings s.policy))),
    ("should_fail", .bool s.shouldFail),
    ("stopped_early", .bool s.stoppedEarly),
    ("violations", .list (s.violations.map ofViolation))]

/-- The report on a run. -/
def report (s : RunSummary) : String :=
  (ofSummary s).pretty

end JsonReport
end ClasspathAudit
