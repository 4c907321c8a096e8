import ClasspathAudit.CommandLine.Grammar

/-
# Reading command lines

Arguments are read one by one. The value of an option, and a run of paths, is looked at when the
next option begins or the arguments end; so of two faults the one that is noticed first counts. What
the arguments leave open is then taken from the environment.
-/
namespace ClasspathAudit
namespace CommandLine

/-- What has been read and not been looked at. -/
inductive Pending
  /-- An option, perhaps with its value. -/
  | option (spec : OptionSpec) (value : Option String)
  /-- A run of paths. -/
  | paths (paths : List String)
deriving DecidableEq

/-- What has been read of a command line. -/
structure Reading where
  /-- The options with their values. -/
  values : List (String × String) := []
  /-- The paths. -/
  paths : List String := []
  /-- What has not been looked at. -/
  pending : Option Pending := none
deriving DecidableEq

namespace Reading

/-- The value of an option. -/
def value? (r : Reading) (name : String) : Option String :=
  r.values.lookup name

/-- Takes in an option with its value. -/
def store (r : Reading) (spec : OptionSpec) (value : String) : Except UsageFault Reading := do
  if (r.value? spec.name).isSome then .error .repeated
  else do
    spec.kind.accepts value
    return { r with values := (spec.name, value) :: r.values }

/-- Looks at what has been read. -/
def resolve (r : Reading) : Except UsageFault Reading :=
  let settled := { r with pending := none }
  match r.pending with
  | none => .ok r
  | some (.option _ none) => .error .invalidValue
  | some (.option spec (some value)) => settled.store spec value
  | some (.paths paths) => do
    paths.forM (ValueKind.path.accepts ·)
    return { settled with paths := settled.paths ++ paths }

/-- Reads an option that has come with its value, or needs none. -/
def take (r : Reading) (spec : OptionSpec) (value : String) : Except UsageFault Reading := do
  (← r.resolve).store spec value

/-- Reads an option whose value comes next. -/
def await (r : Reading) (spec : OptionSpec) : Except UsageFault Reading := do
  return { ← r.resolve with pending := some (.option spec none) }

/-- Whether a path has been read. -/
def hasPath (r : Reading) : Bool :=
  !r.paths.isEmpty || (r.pending matches some (.paths _))

/-- Reads a path. -/
def takePath (spec : CommandSpec) (r : Reading) (path : String) : Except UsageFault Reading :=
  if !spec.takesManyPaths && r.hasPath then .error .unknownArgument
  else
    match r.pending with
    | some (.paths paths) => .ok { r with pending := some (.paths (paths ++ [path])) }
    | _ => do return { ← r.resolve with pending := some (.paths [path]) }

/-- Asks for help, once what has been read is in order. -/
def askHelp (r : Reading) : Except UsageFault Reading := do
  let _ ← r.resolve
  .error .help

/-- Reads an argument that starts with two hyphens, after which `text` stands. -/
def takeLong (spec : CommandSpec) (r : Reading) (text : List Char) : Except UsageFault Reading :=
  let name := String.ofList (text.takeWhile (· != '='))
  let value := match text.dropWhile (· != '=') with
    | _ :: rest => some (String.ofList rest)
    | [] => none
  match spec.named? name, value with
  | some option, none =>
    if option.kind = .flag then r.take option "true" else r.await option
  | some option, some value =>
    if option.kind = .flag then .error .valueForFlag else r.take option value
  | none, none => if name = "help" then r.askHelp else .error .unknownArgument
  | none, some _ => .error (if name = "help" then .valueForFlag else .unknownArgument)

/-- Reads letters after one hyphen. Flags may follow each other; what follows the letter of another
option is its value, before which an equals sign may stand. -/
def takeLetters (spec : CommandSpec) (r : Reading) : List Char → Except UsageFault Reading
  | [] => .ok r
  | letter :: rest =>
    match spec.lettered? letter with
    | some option =>
      if option.kind = .flag then do
        takeLetters spec (← r.take option "true") rest
      else
        match rest with
        | [] => r.await option
        | '=' :: value => r.take option (String.ofList value)
        | value => r.take option (String.ofList value)
    | none => if letter = 'h' then r.askHelp else .error .unknownArgument

/-- Reads an argument that is no option. -/
def takeOther (spec : CommandSpec) (r : Reading) (text : String) : Except UsageFault Reading :=
  match r.pending with
  | some (.option option none) => .ok { r with pending := some (.option option (some text)) }
  | _ => r.takePath spec text

/-- Reads the arguments of a command. -/
def takeAll (spec : CommandSpec) (r : Reading) : List String → Except UsageFault Reading
  | [] => r.resolve
  | argument :: rest =>
    match argument.toList with
    | ['-', '-'] => do (← rest.foldlM (takePath spec) r).resolve
    | '-' :: '-' :: text => do takeAll spec (← r.takeLong spec text) rest
    | '-' :: letter :: letters => do takeAll spec (← r.takeLetters spec (letter :: letters)) rest
    | _ => do takeAll spec (← r.takeOther spec argument) rest

/-- Takes a path from the environment, if none has been read. -/
def withPathVariable (spec : CommandSpec) (environment : String → Option String) (r : Reading) :
    Except UsageFault Reading :=
  match spec.pathVariable >>= environment with
  | some path =>
    if r.paths.isEmpty then do
      ValueKind.path.accepts path
      return { r with paths := [path] }
    else .ok r
  | none => .ok r

/-- Takes an option from the environment, if it has not been read. -/
def withVariable (environment : String → Option String) (r : Reading) (option : OptionSpec) :
    Except UsageFault Reading :=
  match r.value? option.name, environment option.variableName with
  | none, some value => r.store option value
  | _, _ => .ok r

end Reading

/-- What the arguments of a command and the environment give. -/
def read (spec : CommandSpec) (environment : String → Option String) (arguments : List String) :
    Except UsageFault Reading := do
  let r ← Reading.takeAll spec {} arguments
  let r ← r.withPathVariable spec environment
  let r ← spec.options.foldlM (Reading.withVariable environment) r
  if !spec.takesManyPaths && r.paths.isEmpty then .error .missingArgument
  else return r

end CommandLine
end ClasspathAudit
