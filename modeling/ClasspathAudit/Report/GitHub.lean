import ClasspathAudit.Run

/-
# Reports as workflow commands

The summary of a run as commands to a workflow, one a line. A command has a level, a title and a
message; the characters that would end a message or start an escape in it are escaped.
-/
namespace ClasspathAudit
namespace GitHubReport

/-! ### Commands -/

/-- The level of a command. -/
inductive Level
  | notice
  | warning
  | error
deriving DecidableEq

/-- The name of a level. -/
def Level.label : Level → String
  | notice => "notice"
  | warning => "warning"
  | error => "error"

/-- A command to a workflow. -/
structure Command where
  /-- The level. -/
  level : Level
  /-- The title. -/
  title : String
  /-- The message as it is written. -/
  data : String
deriving DecidableEq

/-- A command as a line. -/
def Command.line (command : Command) : String :=
  s!"::{command.level.label} title={command.title}::{command.data}"

/-- A message as it is written. The escapes of the ends of lines start with `%`, so `%` itself is
replaced before them. -/
def escape (message : String) : String :=
  Text.replaceChar '\n' "%0A" (Text.replaceChar '\r' "%0D" (Text.replaceChar '%' "%25" message))

/-! ### Commands of a run -/

/-- The level of a finding that the policy may count. -/
def levelOf (counts : Bool) : Level :=
  if counts then .error else .warning

/-- A message about a project. -/
def about (project : ProjectId) (message : String) : String :=
  project.label ++ ": " ++ escape message

/-- The command on a violation. -/
def ofViolation (policy : Policy) (violation : Violation) : Command :=
  let data := about violation.project violation.message
  match violation with
  | .unusedDirect .. => ⟨levelOf policy.failIfUnused, "Unused Dependency", data⟩
  | .usedTransitive .. =>
    ⟨levelOf policy.failIfUsedTransitive, "Used Transitive Dependency", data⟩

/-- The command on a project that could not be analysed. -/
def ofFailure (failure : ProjectFailure) : Command :=
  ⟨.error, "Analysis Failed", about failure.project failure.report.message⟩

/-- The command that ends the report on a run with findings. -/
def ofCount (count : Nat) : Command :=
  ⟨.notice, "Summary", "Found " ++ Text.counted count "dependency problem"⟩

/-- The command on a run without findings and failures. -/
def clean : Command :=
  ⟨.notice, "Dependency Check", "No dependency problems found! ✅"⟩

/-- The commands on a run. -/
def commands (s : RunSummary) : List Command :=
  if s.violations.isEmpty && s.failures.isEmpty then
    [clean]
  else
    s.violations.map (ofViolation s.policy) ++ s.failures.map ofFailure ++
      if s.violations.isEmpty then [] else [ofCount s.violations.length]

/-- The report on a run. -/
def report (s : RunSummary) : String :=
  Text.unlines ((commands s).map Command.line)

end GitHubReport
end ClasspathAudit
