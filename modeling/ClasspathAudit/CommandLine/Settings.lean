import ClasspathAudit.CommandLine.Command
import ClasspathAudit.Run

/-
# Settings

What each command works with. Settings are drafted field by field; some fields have to be given and
the others have defaults. The settings of a command can be had from its own options only.
-/
namespace ClasspathAudit

/-! ### Checking projects -/

/-- What checking projects works with. -/
structure CheckSettings where
  /-- Directories and descriptors. -/
  paths : List Path
  /-- The form of the report. -/
  format : ReportFormat
  /-- Whether every step is told. -/
  verbose : Bool
  /-- The repository, if not that of the user. -/
  repository : Option Path
  /-- Whether nothing is to be done. -/
  skip : Bool
  /-- Which findings make it fail. -/
  policy : Policy
  /-- What to look for. -/
  checks : Checks
  /-- The number of classes that are listed for a dependency. -/
  maxClasses : Option Nat
deriving DecidableEq

/-- Settings for checking projects in the making. -/
structure CheckDraft where
  /-- Directories and descriptors. -/
  paths : Option (List Path) := none
  /-- The form of the report. -/
  format : Option ReportFormat := none
  /-- Whether every step is told. -/
  verbose : Bool := false
  /-- The repository. -/
  repository : Option Path := none
  /-- Whether nothing is to be done. -/
  skip : Bool := false
  /-- Whether direct dependencies that are not used make it fail. -/
  failIfUnused : Option Bool := none
  /-- Whether transitive dependencies that are used make it fail. -/
  failIfUsedTransitive : Option Bool := none
  /-- Whether it ends with the first project that fails. -/
  failFast : Bool := false
  /-- What to look for. -/
  checks : Checks := {}
  /-- The number of classes that are listed for a dependency. -/
  maxClasses : Option Nat := none
deriving DecidableEq

/-- A field that has to be given. -/
def required {α : Type} (field : String) : Option α → Except Failure α
  | some a => .ok a
  | none => .error (.configuration (.missingField field))

/-- The settings of a draft. -/
def CheckDraft.build (d : CheckDraft) : Except Failure CheckSettings := do
  let paths ← required "paths" d.paths
  let format ← required "format" d.format
  let failIfUnused ← required "fail_if_unused" d.failIfUnused
  let failIfUsedTransitive ← required "fail_if_used_transitive" d.failIfUsedTransitive
  return {
    paths, format
    verbose := d.verbose
    repository := d.repository
    skip := d.skip
    policy := ⟨failIfUnused, failIfUsedTransitive, d.failFast⟩
    checks := d.checks
    maxClasses := d.maxClasses }

/-! ### Suggesting entries -/

/-- What suggesting entries works with. -/
structure SuggestSettings where
  /-- Directories and descriptors. -/
  paths : List Path
  /-- Whether every step is told. -/
  verbose : Bool
  /-- The repository, if not that of the user. -/
  repository : Option Path
  /-- Whether nothing is to be done. -/
  skip : Bool
deriving DecidableEq

/-- Settings for suggesting entries in the making. -/
structure SuggestDraft where
  /-- Directories and descriptors. -/
  paths : Option (List Path) := none
  /-- Whether every step is told. -/
  verbose : Bool := false
  /-- The repository. -/
  repository : Option Path := none
  /-- Whether nothing is to be done. -/
  skip : Bool := false
deriving DecidableEq

/-- The settings of a draft. -/
def SuggestDraft.build (d : SuggestDraft) : Except Failure SuggestSettings := do
  let paths ← required "paths" d.paths
  return ⟨paths, d.verbose, d.repository, d.skip⟩

/-! ### Listing references -/

/-- Settings for listing references in the making. -/
structure RefsDraft where
  /-- A class file, a directory or an archive. -/
  path : Option Path := none
  /-- Whether kinds of places are listed. -/
  kinds : Bool := false
  /-- The form of the listing. -/
  format : Option ListingFormat := none
deriving DecidableEq

/-- The settings of a draft. -/
def RefsDraft.build (d : RefsDraft) : Except Failure RefsOptions := do
  let path ← required "path" d.path
  let format ← required "format" d.format
  return ⟨path, d.kinds, format⟩

/-! ### From commands -/

namespace Command

/-- The paths that a command is to work on: the working directory if none is given. -/
def pathsOr (workingPath : Path) (options : CommonOptions) : List Path :=
  if options.paths.isEmpty then [workingPath] else options.paths

/-- The refusal of settings for another command. -/
def refusal {α : Type} (settings : String) : Except Failure α :=
  .error (.configuration (.otherCommand settings))

/-- The settings for checking projects. -/
def checkSettings (workingPath : Path) : Command → Except Failure CheckSettings
  | check o => CheckDraft.build {
      paths := some (pathsOr workingPath o.common)
      format := some o.format
      verbose := o.common.verbose
      repository := o.common.repository
      skip := o.common.skip
      failIfUnused := some o.failIfUnused
      failIfUsedTransitive := some o.failIfUsedTransitive
      failFast := o.failFast
      checks := ⟨!o.ignoreUnused, !o.ignoreTransitive⟩
      maxClasses := o.maxClasses }
  | suggest _ | refs _ => refusal "CheckConfig"

/-- The settings for suggesting entries. -/
def suggestSettings (workingPath : Path) : Command → Except Failure SuggestSettings
  | suggest o => SuggestDraft.build {
      paths := some (pathsOr workingPath o)
      verbose := o.verbose
      repository := o.repository
      skip := o.skip }
  | check _ | refs _ => refusal "SuggestConfig"

/-- The settings for listing references. -/
def refsSettings : Command → Except Failure RefsOptions
  | refs o => RefsDraft.build { path := some o.path, kinds := o.kinds, format := some o.format }
  | check _ | suggest _ => refusal "RefsConfig"

end Command
end ClasspathAudit
