import ClasspathAudit.CommandLine.Reader
import ClasspathAudit.Path

/-
# Commands

The commands of the program with what each is given on the command line and by the environment.
-/
namespace ClasspathAudit

/-! ### Formats -/

/-- The form of a report on a run. -/
inductive ReportFormat
  | human
  | json
  | junit
  | github
deriving DecidableEq, Inhabited

namespace ReportFormat

/-- The name of a format. -/
def label : ReportFormat → String
  | human => "human"
  | json => "json"
  | junit => "junit"
  | github => "github"

/-- All formats. -/
def all : List ReportFormat := [human, json, junit, github]

/-- The format of that name. -/
def ofLabel? (label : String) : Option ReportFormat :=
  all.find? (·.label == label)

end ReportFormat

/-- The form of a listing of references. -/
inductive ListingFormat
  | human
  | json
deriving DecidableEq, Inhabited

namespace ListingFormat

/-- The name of a format. -/
def label : ListingFormat → String
  | human => "human"
  | json => "json"

/-- All formats. -/
def all : List ListingFormat := [human, json]

/-- The format of that name. -/
def ofLabel? (label : String) : Option ListingFormat :=
  all.find? (·.label == label)

end ListingFormat

/-! ### What commands are given -/

/-- What the commands that analyse projects are given. -/
structure CommonOptions where
  /-- Directories and descriptors. -/
  paths : List Path
  /-- Whether every step is told. -/
  verbose : Bool
  /-- The repository. -/
  repository : Option Path
  /-- Whether nothing is to be done. -/
  skip : Bool
deriving DecidableEq

/-- What the command that checks projects is given. -/
structure CheckOptions where
  /-- What it shares with other commands. -/
  common : CommonOptions
  /-- The form of the report. -/
  format : ReportFormat
  /-- Whether direct dependencies that are not used make it fail. -/
  failIfUnused : Bool
  /-- Whether transitive dependencies that are used make it fail. -/
  failIfUsedTransitive : Bool
  /-- Whether it ends with the first project that fails. -/
  failFast : Bool
  /-- Whether direct dependencies that are not used are of no interest. -/
  ignoreUnused : Bool
  /-- Whether transitive dependencies that are used are of no interest. -/
  ignoreTransitive : Bool
  /-- The number of classes that are listed for a dependency. -/
  maxClasses : Option Nat
deriving DecidableEq

/-- What the command that lists references is given. -/
structure RefsOptions where
  /-- A class file, a directory or an archive. -/
  path : Path
  /-- Whether kinds of places are listed. -/
  kinds : Bool
  /-- The form of the listing. -/
  format : ListingFormat
deriving DecidableEq

/-- A command. -/
inductive Command
  /-- Checks projects. -/
  | check (options : CheckOptions)
  /-- Suggests entries for descriptors. -/
  | suggest (options : CommonOptions)
  /-- Lists references. -/
  | refs (options : RefsOptions)
deriving DecidableEq

namespace Command

/-! ### Grammar -/

/-- The options of all commands that analyse projects. -/
def commonSpecs : List OptionSpec := [
  ⟨"verbose", some 'v', .flag, "DEPSWEEP_VERBOSE"⟩,
  ⟨"repository", none, .path, "DEPSWEEP_REPOSITORY"⟩,
  ⟨"skip", none, .flag, "DEPSWEEP_SKIP"⟩]

/-- The command that checks projects. -/
def checkSpec : CommandSpec where
  name := "check"
  takesManyPaths := true
  pathVariable := none
  options := commonSpecs ++ [
    ⟨"format", some 'f', .choice (ReportFormat.all.map (·.label)), "DEPSWEEP_FORMAT"⟩,
    ⟨"fail-if-unused", none, .flag, "DEPSWEEP_FAIL_IF_UNUSED"⟩,
    ⟨"fail-if-used-transitive", none, .flag, "DEPSWEEP_FAIL_IF_USED_TRANSITIVE"⟩,
    ⟨"fail-fast", none, .flag, "DEPSWEEP_FAIL_FAST"⟩,
    ⟨"ignore-unused", none, .flag, "DEPSWEEP_IGNORE_UNUSED"⟩,
    ⟨"ignore-transitive", none, .flag, "DEPSWEEP_IGNORE_TRANSITIVE"⟩,
    ⟨"max-classes", none, .count, "DEPSWEEP_MAX_CLASSES"⟩]

/-- The command that suggests entries. -/
def suggestSpec : CommandSpec where
  name := "suggest"
  takesManyPaths := true
  pathVariable := none
  options := commonSpecs

/-- The command that lists references. -/
def refsSpec : CommandSpec where
  name := "refs"
  takesManyPaths := false
  pathVariable := some "DEPSWEEP_REFS_PATH"
  options := [
    ⟨"kinds", none, .flag, "DEPSWEEP_KINDS"⟩,
    ⟨"format", some 'f', .choice (ListingFormat.all.map (·.label)), "DEPSWEEP_REFS_FORMAT"⟩]

/-- All commands. -/
def specs : List CommandSpec := [checkSpec, suggestSpec, refsSpec]

/-- The name under which help is asked for. -/
def helpName : String := "help"

/-- Whether there is a command of that name. -/
def isName (name : String) : Bool :=
  name == helpName || specs.any (·.name == name)

/-! ### From what has been read -/

open CommandLine (Reading)

/-- Whether a flag is set. -/
def isSet (r : Reading) (name : String) : Bool :=
  r.value? name == some "true"

/-- What the commands that analyse projects are given. -/
def commonOf (r : Reading) : CommonOptions where
  paths := r.paths.map Path.mk
  verbose := isSet r "verbose"
  repository := (r.value? "repository").map Path.mk
  skip := isSet r "skip"

/-- What the command that checks projects is given. -/
def checkOf (r : Reading) : CheckOptions where
  common := commonOf r
  format := ((r.value? "format").bind ReportFormat.ofLabel?).getD .human
  failIfUnused := isSet r "fail-if-unused"
  failIfUsedTransitive := isSet r "fail-if-used-transitive"
  failFast := isSet r "fail-fast"
  ignoreUnused := isSet r "ignore-unused"
  ignoreTransitive := isSet r "ignore-transitive"
  maxClasses := (r.value? "max-classes").bind ValueKind.readCount?

/-- What the command that lists references is given. -/
def refsOf (r : Reading) : RefsOptions where
  path := ⟨r.paths.headD ""⟩
  kinds := isSet r "kinds"
  format := ((r.value? "format").bind ListingFormat.ofLabel?).getD .human

/-- What is asked for by the names of commands after the request for help: the help on a command,
which has no commands of its own. -/
def readHelp : List String → UsageFault
  | [] => .help
  | [name] => if isName name then .help else .unknownCommand
  | _ => .unknownCommand

/-- Why the arguments give no command, where the first is no name of one. -/
def readOther (first : String) (rest : List String) : UsageFault :=
  match first.toList with
  | ['-', '-'] =>
    match rest with
    | [] => .noCommand
    | name :: _ => if isName name then .unknownArgument else .unknownCommand
  | '-' :: '-' :: text =>
    let name := String.ofList (text.takeWhile (· != '='))
    if name = "help" ∨ name = "version" then
      if text.contains '=' then .valueForFlag
      else if name = "help" then .help
      else .version
    else .unknownArgument
  | '-' :: 'h' :: _ => .help
  | '-' :: 'V' :: _ => .version
  | '-' :: _ :: _ => .unknownArgument
  | _ => .unknownCommand

/-- The command that the arguments and the environment give. -/
def read (environment : String → Option String) : List String → Except UsageFault Command
  | [] => .error .noCommand
  | first :: rest =>
    if first = checkSpec.name then
      (CommandLine.read checkSpec environment rest).map (check ∘ checkOf)
    else if first = suggestSpec.name then
      (CommandLine.read suggestSpec environment rest).map (suggest ∘ commonOf)
    else if first = refsSpec.name then
      (CommandLine.read refsSpec environment rest).map (refs ∘ refsOf)
    else if first = helpName then .error (readHelp rest)
    else .error (readOther first rest)

end Command
end ClasspathAudit
