import ClasspathAudit.Descriptor
import ClasspathAudit.Run

/-
# Suggestions

For every project that uses transitive dependencies, the descriptor entries that declare them
directly.
-/
namespace ClasspathAudit
namespace SuggestionReport

/-- Entries as tables of a descriptor, with an empty line between them. -/
def tables (entries : List DependencySpec) : String :=
  "\n".intercalate (entries.map fun entry => "[[dependencies]]\n" ++ entry.toml)

/-- The entries suggested for a project. -/
def entries (f : Findings) : List DependencySpec :=
  f.usedList.map fun (artifact, _) => DependencySpec.suggested artifact

/-- The part of the report on a project. -/
def ofFindings (f : Findings) : String :=
  "# " ++ f.project.label ++ "\n" ++ tables (entries f)

/-- The report on a run. -/
def report (s : RunSummary) : String :=
  match s.results.filter (·.hasUsedTransitive) with
  | [] => "# No used transitive dependencies to declare\n"
  | users => "\n".intercalate (users.map ofFindings)

end SuggestionReport
end ClasspathAudit
