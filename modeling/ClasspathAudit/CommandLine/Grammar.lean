import ClasspathAudit.Text

/-
# The grammar of command lines

A command has options, which are flags or take a value, and paths. Everything may also be given by
an environment variable, which counts where the command line says nothing.
-/
namespace ClasspathAudit

/-- Why a command line is not carried out as a command. -/
inductive UsageFault
  /-- It asks for help. -/
  | help
  /-- It asks for the version. -/
  | version
  /-- It names no command. -/
  | noCommand
  /-- It names a command that there is not. -/
  | unknownCommand
  /-- It has an argument that the command does not take. -/
  | unknownArgument
  /-- An option has no value, or one that it does not take. -/
  | invalidValue
  /-- A value is no number, or too great. -/
  | unreadableNumber
  /-- An option is given twice. -/
  | repeated
  /-- A flag is given a value. -/
  | valueForFlag
  /-- Something that the command needs is not given. -/
  | missingArgument
deriving DecidableEq

/-- What values an option takes. -/
inductive ValueKind
  /-- None on the command line; `true` or `false` in a variable. -/
  | flag
  /-- Any text but the empty one. -/
  | path
  /-- One of these texts. -/
  | choice (names : List String)
  /-- A number of 64 bits. -/
  | count
deriving DecidableEq

namespace ValueKind

/-- The greatest number that a value can be. -/
def maxCount : Nat := 0xFFFFFFFFFFFFFFFF

/-- The number that a value is: digits, before which a plus sign may stand. -/
def readCount? (value : String) : Option Nat :=
  let digits := match value.toList with
    | '+' :: rest => rest
    | chars => chars
  if digits.isEmpty || !digits.all Char.isDigit then none
  else
    let n := digits.foldl (fun n c => 10 * n + (c.toNat - '0'.toNat)) 0
    if n ≤ maxCount then some n else none

/-- Whether an option takes a value. -/
def accepts (kind : ValueKind) (value : String) : Except UsageFault Unit :=
  let isGood := match kind with
    | flag => value == "true" || value == "false"
    | path => value != ""
    | choice names => names.contains value
    | count => (readCount? value).isSome
  if isGood then .ok ()
  else if kind = count then .error .unreadableNumber
  else .error .invalidValue

end ValueKind

/-- An option of a command. -/
structure OptionSpec where
  /-- Its name, after two hyphens. -/
  name : String
  /-- Its letter, after one hyphen. -/
  letter : Option Char := none
  /-- The values it takes. -/
  kind : ValueKind
  /-- The variable that gives it. -/
  variableName : String
deriving DecidableEq

/-- What a command takes. -/
structure CommandSpec where
  /-- Its name. -/
  name : String
  /-- Whether it takes any number of paths, and not exactly one. -/
  takesManyPaths : Bool
  /-- The variable that gives the path. -/
  pathVariable : Option String
  /-- Its options. -/
  options : List OptionSpec

namespace CommandSpec

/-- The option with a name. -/
def named? (spec : CommandSpec) (name : String) : Option OptionSpec :=
  spec.options.find? (·.name == name)

/-- The option with a letter. -/
def lettered? (spec : CommandSpec) (letter : Char) : Option OptionSpec :=
  spec.options.find? (·.letter == some letter)

end CommandSpec
end ClasspathAudit
