import ClasspathAudit.Run

/-
# Reports for people

The summary of a run for a terminal: the findings project by project, the projects that could not be
analysed, and advice.
-/
namespace ClasspathAudit
namespace HumanReport

/-- A line that is indented and starts with a mark. -/
def item (colors : Bool) (indentation : String) (style : Style) (mark text : String) : String :=
  indentation ++ style.apply colors mark ++ " " ++ text

/-- The line on an artifact. -/
def artifactLine (colors : Bool) (artifact : Artifact) : String :=
  item colors "    " .dim "•" ((Style.colored .yellow).apply colors artifact.label)

/-- The lines on direct dependencies that are not used. -/
def unusedLines (colors : Bool) (artifacts : List Artifact) : List String :=
  item colors "  " (.colored .blue) "📦"
      ("Unused direct " ++ Text.pluralize "dependency" artifacts.length ++ ":") ::
    artifacts.map (artifactLine colors)

/-- The lines on the classes used of a dependency, at most `limit` of them. -/
def classLines (colors : Bool) (limit : Option Nat) (classes : List ClassName) : List String :=
  let shown := match limit with
    | some n => classes.take n
    | none => classes
  let hidden := classes.length - shown.length
  shown.map (fun c => item colors "      " .dim "→" c.text) ++
  if hidden = 0 then []
  else [item colors "      " .dim "…" (s!"and {hidden} more " ++ Text.pluralize "class" hidden)]

/-- The lines on transitive dependencies that are used. -/
def usedLines (colors : Bool) (limit : Option Nat) (used : List (Artifact × List ClassName)) :
    List String :=
  item colors "  " (.colored .cyan) "🔗"
      ("Used transitive " ++ Text.pluralize "dependency" used.length ++ ":") ::
    used.flatMap fun (artifact, classes) =>
      artifactLine colors artifact :: classLines colors limit classes

/-- The lines on the findings in a project. -/
def findingLines (colors : Bool) (limit : Option Nat) (policy : Policy) (f : Findings) :
    List String :=
  let id := Style.bold.apply colors f.project.label
  ["", if policy.isViolatedBy f then item colors "" (.strong .red) "❌" id
    else item colors "" (.strong .yellow) "⚠️" id] ++
  (if f.hasUnused then unusedLines colors f.unusedList else []) ++
  if f.hasUsedTransitive then usedLines colors limit f.usedList else []

/-- The lines on projects that could not be analysed. -/
def failureLines (colors : Bool) (failures : List ProjectFailure) : List String :=
  if failures.isEmpty then []
  else
    ["", item colors "" (.strong .red) "❌"
      (Text.counted failures.length "project" ++ " could not be analyzed:")] ++
    failures.map fun failure =>
      item colors "    " .dim "•" (Style.bold.apply colors failure.project.label)

/-- The lines that end a report: why it is not complete, and what to do. -/
def closingLines (colors : Bool) (s : RunSummary) : List String :=
  (if s.stoppedEarly then
    ["", item colors "" (.colored .blue) "ℹ️"
      "Stopped after the first failing project (--fail-fast)."]
  else []) ++
  (if s.hasUsedTransitive then
    ["", item colors "" (.colored .yellow) "💡"
      ("Declare used transitive dependencies directly; \x60depsweep suggest\x60 prints " ++
        "the entries to add.")]
  else []) ++
  if s.hasUnused then
    [item colors "" (.colored .yellow) "💡"
      ("Unused dependencies may still be needed at runtime (reflection, service " ++
        "loading); consider scope \"runtime\" before removing them.")]
  else []

/-- Whether there is nothing to tell of a run but that all is well. -/
def isAllWell (s : RunSummary) : Bool :=
  s.results.all (·.isClean) && s.failures.isEmpty

/-- The lines of the report on a run, which lists at most `limit` classes for each dependency. -/
def lines (colors : Bool) (limit : Option Nat) (s : RunSummary) : List String :=
  if isAllWell s then
    ["", item colors "" (.strong .green) "✅"
      ("No dependency problems found in " ++ Text.counted s.results.length "project" ++ ".")]
  else
    (s.results.filter (!·.isClean)).flatMap (findingLines colors limit s.policy) ++
      failureLines colors s.failures ++ closingLines colors s

/-- The report on a run. -/
def report (colors : Bool) (limit : Option Nat) (s : RunSummary) : String :=
  Text.unlines (lines colors limit s)

end HumanReport
end ClasspathAudit
