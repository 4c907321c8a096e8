import ClasspathAudit.CommandLine.Settings
import ClasspathAudit.Discovery
import ClasspathAudit.ReferenceListing
import ClasspathAudit.Report.GitHub
import ClasspathAudit.Report.Human
import ClasspathAudit.Report.JUnit
import ClasspathAudit.Report.Json
import ClasspathAudit.Report.Suggestion

/-
# The program

What the program writes for a command line, and how it ends, as a function of the files, the
environment and the terminal. Reports go to the output, everything that is told on the way to the
terminal.
-/
namespace ClasspathAudit

/-- What the program runs in. -/
structure Surroundings where
  /-- The files. -/
  files : FileSystem
  /-- The variables of the environment. -/
  environment : List (String × String)
  /-- Whether what is told on the way goes to a terminal. -/
  isTerminal : Bool
  /-- Whether the output goes to a terminal that shows styles. -/
  showsStyles : Bool := false

namespace Surroundings

/-- The value of a variable. -/
def value? (w : Surroundings) (name : String) : Option String :=
  w.environment.lookup name

/-- The home directory of the user. -/
def home? (w : Surroundings) : Option Path :=
  ((w.value? "HOME").filter (· != "")).map Path.mk

/-- Whether text is styled: where the output shows it, unless that is switched off, and everywhere
if it is forced. -/
def hasStyles (w : Surroundings) : Bool :=
  (w.showsStyles && (w.value? "CLICOLOR").getD "1" != "0") ||
    (w.value? "CLICOLOR_FORCE").getD "0" != "0"

end Surroundings

/-- What the program writes, and how it ends. -/
structure Output where
  /-- The exit code. -/
  exitCode : Nat
  /-- What goes to the output. -/
  out : String
  /-- What is told on the way. -/
  told : String
deriving DecidableEq

namespace Program

/-! ### Lines that are told -/

/-- The line that a command is not carried out. -/
def skipLine (styles : Bool) : String :=
  (Style.colored .blue).apply styles "ℹ" ++ " Skipping execution as requested"

/-- The lines before the search for projects. -/
def searchLines (w : Surroundings) : List String :=
  if w.isTerminal then
    [(Style.colored .cyan).apply w.hasStyles "🔍" ++ " Discovering projects..."]
  else []

/-- The lines after the search for projects. -/
def foundLines (w : Surroundings) (count : Nat) : List String :=
  let styles := w.hasStyles
  (if w.isTerminal then
    if count = 0 then [(Style.colored .red).apply styles "✗" ++ " No depsweep.toml found"]
    else
      [(Style.colored .green).apply styles "✓" ++ " Found " ++
        (Style.strong .yellow).apply styles (Text.counted count "project") ++ " to analyze"]
  else []) ++
  if count = 0 then [(Style.colored .blue).apply styles "ℹ" ++ " No projects found to analyze"]
  else []

/-- The lines on projects before they are analysed. -/
def projectLines (styles : Bool) (repository : Repository) (projects : List Project) :
    List String :=
  let arrow := "  " ++ Style.dim.apply styles "→" ++ " "
  (arrow ++ "Resolving dependencies from " ++ repository.root.text) ::
    projects.map fun project =>
      arrow ++ Style.bold.apply styles project.id.label ++ " (" ++ project.outputDir.text ++ ")"

/-- The lines on the outcome of a run. -/
def outcomeLines (w : Surroundings) (violations : Nat) : List String :=
  let styles := w.hasStyles
  if !w.isTerminal then []
  else if violations = 0 then
    [(Style.strong .green).apply styles "✓" ++ " No dependency problems found! " ++
      Style.dim.apply styles "🧹"]
  else
    [(Style.strong .yellow).apply styles "⚠" ++ " Found " ++
      (Style.strong .red).apply styles (toString violations) ++ " dependency " ++
      Text.pluralize "problem" violations]

/-- The lines before checking projects. -/
def checkLines (styles : Bool) (checks : Checks) : List String :=
  let arrow := "  " ++ Style.dim.apply styles "→" ++ " "
  let state := fun (isChecked : Bool) =>
    if isChecked then (Style.colored .green).apply styles "checked"
    else (Style.colored .red).apply styles "ignored"
  [(Style.colored .cyan).apply styles "🧹" ++ " Checking project dependencies...", "",
    arrow ++ "Unused direct dependencies: " ++ state checks.unused,
    arrow ++ "Used transitive dependencies: " ++ state checks.transitive]

/-- The lines before suggesting entries. -/
def suggestLines (styles : Bool) : List String :=
  [(Style.colored .cyan).apply styles "🧹" ++ " Looking for used transitive dependencies...", ""]

/-! ### Analysing projects -/

/-- What the commands that analyse projects have in common. -/
structure AnalysisRequest where
  /-- Directories and descriptors. -/
  paths : List Path
  /-- The repository, if not that of the user. -/
  repository : Option Path
  /-- Whether every step is told. -/
  verbose : Bool
  /-- What to look for. -/
  checks : Checks
  /-- Which findings make the run fail. -/
  policy : Policy

/-- The repository of a request. -/
def AnalysisRequest.repositoryIn (request : AnalysisRequest) (w : Surroundings) :
    Except Failure Repository :=
  match request.repository with
  | some root => .ok ⟨root⟩
  | none => Repository.userDefault w.home?

/-- How a command goes on after its analysis: the lines told, and the end. -/
structure Ending where
  /-- The lines told. -/
  lines : List String
  /-- The exit code. -/
  exitCode : Nat
  /-- The report. -/
  report : String := ""

/-- The end of a command that fails. -/
def Ending.failed (report : Report) : Ending :=
  ⟨["Error: " ++ report.line], 1, ""⟩

/-- Analyses the projects that are found, and ends as `finish` says. -/
def analyzeAll (w : Surroundings) (request : AnalysisRequest) (projects : List Project)
    (repository : Repository) (finish : RunSummary → Ending) : Ending :=
  let z : Analyzer := {
    files := w.files
    repository
    reactor := Reactor.ofProjects projects
    checks := request.checks }
  let run := z.run request.policy projects
  let ending := finish run.summary
  { ending with lines :=
      (if request.verbose then projectLines w.hasStyles repository projects else []) ++
      Note.lines w.hasStyles request.verbose run.notes ++
      outcomeLines w run.summary.violations.length ++ ending.lines }

/-- Finds the projects of a request and analyses them. -/
def analyze (w : Surroundings) (request : AnalysisRequest) (finish : RunSummary → Ending) :
    Ending :=
  let found := Discovery.ofPaths w.files request.paths
  let lines := searchLines w ++ Note.lines w.hasStyles request.verbose found.notes ++
    foundLines w found.projects.length
  let ending : Ending :=
    if found.projects.isEmpty then ⟨[], 0, ""⟩
    else
      match request.repositoryIn w with
      | .error failure => .failed (.ofFailure failure)
      | .ok repository => analyzeAll w request found.projects repository finish
  { ending with lines := lines ++ ending.lines }

/-! ### Commands -/

/-- The report on a run in a format. -/
def reportIn (styles : Bool) (maxClasses : Option Nat) (s : RunSummary) : ReportFormat → String
  | .human => HumanReport.report styles maxClasses s
  | .json => JsonReport.report s
  | .junit => JUnitReport.report s
  | .github => GitHubReport.report s

/-- Checks projects. -/
def check (w : Surroundings) (settings : CheckSettings) : Ending :=
  let styles := w.hasStyles
  if settings.skip then ⟨[skipLine styles], 0, ""⟩
  else
    let ending := analyze w {
      paths := settings.paths
      repository := settings.repository
      verbose := settings.verbose
      checks := settings.checks
      policy := settings.policy } fun s => {
        lines := []
        exitCode := if s.shouldFail then 1 else 0
        report := reportIn styles settings.maxClasses s settings.format }
    { ending with lines := checkLines styles settings.checks ++ ending.lines }

/-- Suggests entries. -/
def suggest (w : Surroundings) (settings : SuggestSettings) : Ending :=
  let styles := w.hasStyles
  if settings.skip then ⟨[skipLine styles], 0, ""⟩
  else
    let ending := analyze w {
      paths := settings.paths
      repository := settings.repository
      verbose := settings.verbose
      checks := ⟨false, true⟩
      policy := {} } fun s => {
        lines := []
        exitCode := if s.failures.isEmpty then 0 else 1
        report := SuggestionReport.report s }
    { ending with lines := suggestLines styles ++ ending.lines }

/-- Lists references. -/
def refs (w : Surroundings) (settings : RefsOptions) : Ending :=
  let styles := w.hasStyles
  match ReferenceListing.ofPath w.files settings.path with
  | .error failure =>
    .failed ((Report.ofFailure failure).wrap s!"Failed to scan '{settings.path.text}'")
  | .ok classes =>
    let skipped := ReferenceListing.skippedIn classes
    { lines :=
        if skipped = 0 then []
        else
          [(Style.colored .yellow).apply styles "⚠" ++ " Skipped " ++
            Text.counted skipped "malformed signature" ++ " while scanning"]
      exitCode := 0
      report := match settings.format with
        | .human => ReferenceListing.human styles settings.kinds classes
        | .json => ReferenceListing.json settings.kinds classes }

/-- The end of a command with settings that may be refused. -/
def withSettings {α : Type} (command : String) (settings : Except Failure α) (run : α → Ending) :
    Ending :=
  match settings with
  | .ok settings => run settings
  | .error failure =>
    .failed ((Report.ofFailure failure).wrap s!"Failed to parse {command} command configuration")

/-- Carries out a command. -/
def execute (w : Surroundings) (command : Command) : Ending :=
  let here := w.files.workingPath
  match command with
  | .check _ => withSettings "check" (command.checkSettings here) (check w)
  | .suggest _ => withSettings "suggest" (command.suggestSettings here) (suggest w)
  | .refs _ => withSettings "refs" command.refsSettings (refs w)

/-! ### Command lines that are no commands -/

/-- The version of the program. -/
def versionLine : String := "depsweep 0.3.0"

/-- How the program is used. -/
def usageLines : List String := [
  "Usage: depsweep <COMMAND>", "",
  "Commands:",
  "  check    Check projects for unused and used-only-transitively dependencies",
  "  suggest  Print descriptor entries for used transitive dependencies",
  "  refs     List the classes a compiled class refers to",
  "  help     Print this message"]

/-- What is wrong with a command line. -/
def usageMessage : UsageFault → String
  | .help | .version | .noCommand => "a command is required"
  | .unknownCommand => "unrecognized subcommand"
  | .unknownArgument => "unexpected argument"
  | .invalidValue => "invalid value"
  | .unreadableNumber => "invalid number"
  | .repeated => "an option cannot be used multiple times"
  | .valueForFlag => "unexpected value"
  | .missingArgument => "a required argument was not provided"

/-- The end for a command line that is no command. -/
def refuse : UsageFault → Output
  | .help => ⟨0, Text.unlines usageLines, ""⟩
  | .version => ⟨0, Text.unlines [versionLine], ""⟩
  | fault => ⟨2, "", Text.unlines (("error: " ++ usageMessage fault) :: "" :: usageLines)⟩

/-- What the program does for a command line. -/
def run (w : Surroundings) (arguments : List String) : Output :=
  match Command.read w.value? arguments with
  | .error fault => refuse fault
  | .ok command =>
    let ending := execute w command
    ⟨ending.exitCode, ending.report, Text.unlines ending.lines⟩

end Program
end ClasspathAudit
