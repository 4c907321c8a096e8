import ClasspathAudit.Classification
import ClasspathAudit.Repository

/-
# Runs over several projects

A run analyses projects one after the other and keeps what comes of each: findings, or the reason
why there are none. A policy says which findings count as violations; a run may stop at the first
project that violates it or cannot be analysed.
-/
namespace ClasspathAudit

/-! ### Policies -/

/-- Which findings make a run fail. -/
structure Policy where
  /-- Direct dependencies that are not used. -/
  failIfUnused : Bool := false
  /-- Transitive dependencies that are used. -/
  failIfUsedTransitive : Bool := false
  /-- Whether the run ends with the first project that fails. -/
  failFast : Bool := false
deriving DecidableEq

/-- Whether findings are against the policy. -/
def Policy.isViolatedBy (policy : Policy) (f : Findings) : Bool :=
  (policy.failIfUnused && f.hasUnused) || (policy.failIfUsedTransitive && f.hasUsedTransitive)

/-! ### Outcomes -/

/-- A project that could not be analysed. -/
structure ProjectFailure where
  /-- The project. -/
  project : ProjectId
  /-- Why. -/
  report : Report
deriving DecidableEq

/-- What comes of a project. -/
abbrev Outcome := Except ProjectFailure Findings

namespace Outcome

/-- The findings of an outcome. -/
def findings? : Outcome → Option Findings
  | .ok f => some f
  | .error _ => none

/-- The failure of an outcome. -/
def failure? : Outcome → Option ProjectFailure
  | .ok _ => none
  | .error failure => some failure

/-- Whether an outcome makes the run fail. -/
def isBad (policy : Policy) : Outcome → Bool
  | .ok f => policy.isViolatedBy f
  | .error _ => true

end Outcome

/-- One finding against good order. -/
inductive Violation
  /-- A direct dependency is not used. -/
  | unusedDirect (project : ProjectId) (artifact : Artifact)
  /-- A transitive dependency is used, such as by this class. -/
  | usedTransitive (project : ProjectId) (artifact : Artifact) (sample : ClassName)
deriving DecidableEq

namespace Violation

/-- The project in which it was found. -/
def project : Violation → ProjectId
  | unusedDirect project _ => project
  | usedTransitive project .. => project

/-- The wording of a violation. -/
def message : Violation → String
  | unusedDirect _ artifact => s!"unused direct dependency: {artifact.label}"
  | usedTransitive _ artifact sample =>
    s!"used transitive dependency: {artifact.label} (using e.g. {sample.text})"

/-- The violations in the findings on a project. -/
def ofFindings (f : Findings) : List Violation :=
  f.unusedList.map (unusedDirect f.project) ++
    f.usedList.filterMap fun (artifact, classes) =>
      classes.head?.map (usedTransitive f.project artifact)

end Violation

/-! ### Summaries -/

/-- What came of a run. -/
structure RunSummary where
  /-- The findings on each project that could be analysed. -/
  results : List Findings
  /-- The projects that could not. -/
  failures : List ProjectFailure
  /-- The policy of the run. -/
  policy : Policy
  /-- Whether the run ended before the last project because of the policy. -/
  stoppedEarly : Bool

namespace RunSummary

/-- Whether a project has a direct dependency that is not used. -/
def hasUnused (s : RunSummary) : Bool :=
  s.results.any (·.hasUnused)

/-- Whether a project uses a transitive dependency. -/
def hasUsedTransitive (s : RunSummary) : Bool :=
  s.results.any (·.hasUsedTransitive)

/-- Every violation, in the order of the projects. -/
def violations (s : RunSummary) : List Violation :=
  s.results.flatMap Violation.ofFindings

/-- Whether the run fails. -/
def shouldFail (s : RunSummary) : Bool :=
  !s.failures.isEmpty || s.results.any s.policy.isViolatedBy

/-- The warnings about the projects that could not be analysed. -/
def failureNotes (s : RunSummary) : List Note :=
  s.failures.map fun failure =>
    .warning s!"Failed to analyze project '{failure.project.label}': {failure.report.line}"

end RunSummary

/-! ### Runs -/

/-- What comes of a project, with the notes made on the way. -/
structure Analysis where
  /-- The notes. -/
  notes : List Note
  /-- What comes of the project. -/
  outcome : Outcome

/-- The analyses that a run makes. -/
structure Run where
  /-- The policy. -/
  policy : Policy
  /-- The analyses, in the order of the projects. -/
  analyses : List Analysis
  /-- Whether the run ends with its last analysis because of the policy. -/
  stoppedEarly : Bool

namespace Run

/-- The analyses up to the first project that makes the run fail, and whether there is one. -/
def upToFirstBad {α : Type} (policy : Policy) (analyze : α → Analysis) :
    List α → List Analysis × Bool
  | [] => ([], false)
  | project :: rest =>
    let analysis := analyze project
    if analysis.outcome.isBad policy then ([analysis], true)
    else
      let (analyses, stopped) := upToFirstBad policy analyze rest
      (analysis :: analyses, stopped)

/-- The run over all projects. -/
def full {α : Type} (policy : Policy) (analyze : α → Analysis) (projects : List α) : Run :=
  ⟨policy, projects.map analyze, false⟩

/-- The run that ends with the first project that makes it fail. -/
def failFast {α : Type} (policy : Policy) (analyze : α → Analysis) (projects : List α) : Run :=
  let (analyses, stopped) := upToFirstBad policy analyze projects
  ⟨policy, analyses, stopped⟩

/-- The run over projects that the policy asks for. -/
def ofProjects {α : Type} (policy : Policy) (analyze : α → Analysis) (projects : List α) : Run :=
  if policy.failFast then failFast policy analyze projects else full policy analyze projects

/-- The outcomes of a run. -/
def outcomes (run : Run) : List Outcome :=
  run.analyses.map (·.outcome)

/-- The summary of a run. -/
def summary (run : Run) : RunSummary where
  results := run.outcomes.filterMap Outcome.findings?
  failures := run.outcomes.filterMap Outcome.failure?
  policy := run.policy
  stoppedEarly := run.stoppedEarly

/-- The notes of a run: those on each project that it came to, then those on failures. -/
def notes (run : Run) : List Note :=
  run.analyses.flatMap (·.notes) ++ run.summary.failureNotes

end Run

/-! ### Analysing projects -/

/-- What all projects of a run have in common. -/
structure Analyzer where
  /-- The files. -/
  files : FileSystem
  /-- Where dependencies without a location are looked for. -/
  repository : Repository
  /-- The projects whose classes are read from their output directories. -/
  reactor : Reactor := .empty
  /-- What to look for. -/
  checks : Checks := {}

namespace Analyzer

/-- An artifact with its location. Artifacts without classes and those of the reactor need none; one
that cannot be placed stays as it is, with a warning. -/
def resolve (z : Analyzer) (a : Artifact) : Logged Artifact :=
  if !a.coordinates.packaging.carriesClasses || (z.reactor.outputDir? a).isSome then
    return a
  else
    match z.repository.resolve a with
    | .ok resolved => return resolved
    | .error failure => do
      Logged.write [.warning failure.message]
      return a

/-- What is found in a project. -/
def analyze (z : Analyzer) (project : Project) : Logged Findings := do
  let direct ← project.direct.mapM z.resolve
  let transitive ← project.transitive.mapM z.resolve
  classify z.files z.reactor z.checks project direct transitive

/-- A failure, as that of the analysis of a project. -/
def failureOf (id : ProjectId) (failure : Failure) : ProjectFailure :=
  ⟨id, (Report.ofFailure failure).wrap s!"Failed to analyze project '{id.label}'"⟩

/-- The analysis of a project. -/
def analysis (z : Analyzer) (project : Project) : Analysis :=
  let found := z.analyze project
  ⟨found.notes, found.result.mapError (failureOf project.id)⟩

/-- The run over projects. -/
def run (z : Analyzer) (policy : Policy) (projects : List Project) : Run :=
  .ofProjects policy z.analysis projects

end Analyzer
end ClasspathAudit
