import ClasspathAudit.Program.Reach

/-
# The command line

Reads the files that a command looks at, and carries the command out on them. Files that are come
upon in a directory are read if they can be descriptors or compiled classes; other files are read
where a path names them.
-/
namespace ClasspathAudit

/-- The files read so far. -/
structure Snapshot where
  /-- What is known of the files. -/
  files : FileSystem
  /-- The directories that are known with all that lies below them. -/
  trees : List Location

namespace Snapshot

/-- The location of an absolute path without links. -/
def locationOf (text : String) : Location :=
  (Text.splitOnChar '/' text).filter (· != "")

/-- The snapshot with an entry at a location, if it has none. -/
def note (s : Snapshot) (place : Location) (entry : Entry) : Snapshot :=
  if (s.files.entry? place).isSome then s else { s with files := s.files.set place entry }

/-- Whether a file is read when it is come upon in a directory. -/
def isRead (name : String) : Bool :=
  name == Descriptor.fileName || FileSystem.isClassName name

/-- What the system knows at a location. -/
def atPlace (place : Location) : IO.FS.DirEntry :=
  ⟨(FileSystem.pathOf place.dropLast).text, place.getLastD ""⟩

/-- The kind of what lies at a location, if anything does. -/
def typeOf? (place : Location) : IO (Option IO.FS.FileType) := do
  try
    return some (← (atPlace place).path.symlinkMetadata).type
  catch _ =>
    return none

/-- The names in a directory, none if it cannot be read. -/
def namesOf (place : Location) : IO (List String) := do
  try
    return (← (atPlace place).path.readDir).toList.map (·.fileName)
  catch _ =>
    return []

/-- The bytes of a file, none if it cannot be read. -/
def bytesOf (place : Location) : IO (Array UInt8) := do
  try
    return (← IO.FS.readBinFile (atPlace place).path).data
  catch _ =>
    return #[]

/-- The target of a link that leads nowhere. -/
def nowhere : Path := ⟨"/nowhere/\x7f"⟩

/-- Where the links at a location lead in the end, if anywhere. -/
def targetOf? (place : Location) : IO (Option String) := do
  try
    return some (← IO.FS.realPath (atPlace place).path).toString
  catch _ =>
    return none

mutual

/-- Reads what lies at a location, and all that lies below it; `isNamed` says whether a path has
led there. -/
partial def readAt (s : Snapshot) (place : Location) (isNamed : Bool) : IO Snapshot := do
  match ← typeOf? place with
  | some .dir =>
    if s.trees.contains place then return s
    let s := s.note place .directory
    (← namesOf place).foldlM (fun s name => readAt s (place ++ [name]) false)
      { s with trees := place :: s.trees }
  | some .file =>
    if isNamed then
      return { s with files := s.files.set place (.file (← bytesOf place)) }
    else if (place.getLast?.any isRead) then
      return s.note place (.file (← bytesOf place))
    else
      return s.note place (.file #[])
  | some .symlink =>
    match ← targetOf? place with
    | some target => readSteps (s.note place (.link ⟨target⟩)) [] (locationOf target) isNamed
    | none => return s.note place (.link nowhere)
  | some .other | none => return s

/-- Reads what lies on the way of some steps from a location, and where they lead. -/
partial def readSteps (s : Snapshot) (place : Location) (steps : List String) (isNamed : Bool) :
    IO Snapshot := do
  match steps with
  | [] => readAt s place isNamed
  | ".." :: rest => readSteps s place.dropLast rest isNamed
  | step :: rest =>
    if step = "" || step = "." then
      readSteps s place rest isNamed
    else
      let next := place ++ [step]
      match ← typeOf? next with
      | some .dir => readSteps (s.note next .directory) next rest isNamed
      | some .symlink =>
        match ← targetOf? next with
        | some target =>
          readSteps (s.note next (.link ⟨target⟩)) [] (locationOf target ++ rest) isNamed
        | none => return s.note next (.link nowhere)
      | _ => readAt s next isNamed

end

/-- Reads what a path leads to. -/
def readPath (s : Snapshot) (path : Path) : IO Snapshot :=
  s.readSteps (FileSystem.startOf path s.files.workingDir) (FileSystem.stepsOf path) true

/-- Reads all that a command looks at. -/
partial def gather (s : Snapshot) (w : Surroundings) (command : Command) (known : List Path) :
    IO Surroundings := do
  let w := { w with files := s.files }
  let next := ((Program.reach w command).filter (!known.contains ·)).eraseDups
  if next.isEmpty then
    return w
  else
    gather (← next.foldlM readPath s) w command (known ++ next)

end Snapshot

/-- The variables that the program looks at. -/
def variableNames : List String :=
  ["HOME", "CLICOLOR", "CLICOLOR_FORCE"] ++
    Command.specs.flatMap fun spec =>
      spec.pathVariable.toList ++ spec.options.map (·.variableName)

/-- The variables of the environment that the program looks at. -/
def readVariables : IO (List (String × String)) := do
  let found ← variableNames.eraseDups.mapM fun name => do
    return (← IO.getEnv name).map ((name, ·))
  return found.filterMap id

/-- What the program runs in, before any file is read. -/
def readSurroundings : IO Surroundings := do
  let workingDir := Snapshot.locationOf (← IO.currentDir).toString
  let plain := (← IO.getEnv "NO_COLOR").isSome || (← IO.getEnv "TERM") == some "dumb"
  return {
    files := .empty workingDir
    environment := ← readVariables
    isTerminal := ← (← IO.getStderr).isTty
    showsStyles := (← (← IO.getStdout).isTty) && !plain }

/-- Runs the program, and gives its exit code. -/
def runProgram (arguments : List String) : IO UInt32 := do
  let start ← readSurroundings
  let w ← match Command.read start.value? arguments with
    | .ok command => Snapshot.gather ⟨start.files, []⟩ start command []
    | .error _ => pure start
  let output := Program.run w arguments
  (← IO.getStderr).putStr output.told
  (← IO.getStdout).putStr output.out
  return output.exitCode.toUInt32

end ClasspathAudit

/-- The program. -/
def main (arguments : List String) : IO UInt32 :=
  ClasspathAudit.runProgram arguments
