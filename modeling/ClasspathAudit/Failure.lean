import ClasspathAudit.Artifact.Basic
import ClasspathAudit.ClassFile.Error
import ClasspathAudit.Path

/-
# Failures

Why the program cannot do what it was asked. A failure has a wording, a code, advice and the chain
of causes behind it. Causes that lie outside the program (the file system, the syntax of a
descriptor, the structure of an archive) are shown by their kind alone.
-/
namespace ClasspathAudit

/-! ### Causes outside the program -/

/-- Why the file system refuses to read something. -/
inductive FileFault
  /-- There is nothing at the path. -/
  | notFound
  /-- Something on the way is no directory. -/
  | notADirectory
  /-- The path leads to a directory where a file is needed. -/
  | isADirectory
  /-- The file holds no text in UTF-8. -/
  | invalidData
  /-- Symbolic links lead in a circle. -/
  | linkCircle
  /-- A name is longer than the file system allows. -/
  | invalidFilename
  /-- What is given cannot be used: a path with the character zero, or data that cannot be
  unpacked. -/
  | invalidInput
  /-- Data end too early. -/
  | unexpectedEnd
  /-- Data do not match their check sum, or a walk comes back to a directory that it is in. -/
  | other
deriving DecidableEq

namespace FileFault

/-- The kind of a fault. -/
def label : FileFault → String
  | notFound => "NotFound"
  | notADirectory => "NotADirectory"
  | isADirectory => "IsADirectory"
  | invalidData => "InvalidData"
  | linkCircle => "FilesystemLoop"
  | invalidFilename => "InvalidFilename"
  | invalidInput => "InvalidInput"
  | unexpectedEnd => "UnexpectedEof"
  | other => "Other"

/-- A fault as it stands in a chain of causes. -/
def mark (fault : FileFault) : String :=
  s!"<io {fault.label}>"

end FileFault

/-! ### Faults of descriptions and settings -/

/-- Why a descriptor that can be read still describes no project. -/
inductive DescriptorFault
  /-- A field of the project is blank. -/
  | blankProjectField (field : String)
  /-- A dependency has a blank group or name. -/
  | unnamedDependency (group name : String)
  /-- A dependency has a blank version. -/
  | unversionedDependency (group name : String)
  /-- The artifact of a dependency lacks a field. -/
  | missingField (field : MissingField)
deriving DecidableEq

namespace DescriptorFault

/-- The wording of a fault. -/
def message : DescriptorFault → String
  | blankProjectField field => s!"project {field} must not be empty"
  | unnamedDependency group name => s!"dependency '{group}:{name}' needs a group and a name"
  | unversionedDependency group name => s!"dependency '{group}:{name}' needs a version"
  | missingField field => field.message

end DescriptorFault

/-- Why a command cannot be set up. -/
inductive ConfigurationFault
  /-- A setting that the command needs is not there. -/
  | missingField (field : String)
  /-- The settings are asked for from another command's options. -/
  | otherCommand (settings : String)
  /-- The default repository lies in the home directory, and there is none. -/
  | noHome
deriving DecidableEq

namespace ConfigurationFault

/-- The wording of a fault. -/
def message : ConfigurationFault → String
  | missingField field => s!"Missing required field: {field}"
  | otherCommand settings => s!"Invalid command type for {settings}"
  | noHome => "Cannot determine the home directory; pass --repository explicitly"

end ConfigurationFault

/-! ### Failures -/

/-- Why the program cannot do what it was asked. -/
inductive Failure
  /-- A compiled class cannot be decoded. -/
  | classFile (path : Path) (error : ClassFile.Error)
  /-- A file is no archive that can be read. -/
  | archive (path : Path)
  /-- A file cannot be read. -/
  | file (path : Path) (fault : FileFault)
  /-- A descriptor has not the form of one. -/
  | descriptorSyntax (path : Path)
  /-- A descriptor describes no project. -/
  | descriptor (path : Path) (fault : DescriptorFault)
  /-- The place of an artifact cannot be told. -/
  | resolution (artifact : String)
  /-- A directory cannot be walked through. -/
  | walk (fault : FileFault)
  /-- A command cannot be set up. -/
  | configuration (fault : ConfigurationFault)
deriving DecidableEq

namespace Failure

/-- The wording of a failure. -/
def message : Failure → String
  | classFile path _ => s!"Failed to scan class file '{path.text}'"
  | archive path => s!"Failed to read archive '{path.text}'"
  | file path _ => s!"Failed to read file '{path.text}'"
  | descriptorSyntax path => s!"Invalid TOML syntax in '{path.text}'"
  | descriptor path fault => s!"Invalid project descriptor '{path.text}': {fault.message}"
  | resolution artifact =>
    s!"Failed to resolve artifact '{artifact}': group and name must not be empty"
  | walk _ => "IO error"
  | configuration fault => s!"Configuration error: {fault.message}"

/-- The code of a failure. -/
def code : Failure → String
  | classFile .. => "depsweep::class_file_error"
  | archive .. => "depsweep::archive_error"
  | file .. => "depsweep::io_error"
  | descriptorSyntax .. => "depsweep::toml_parse_error"
  | descriptor .. => "depsweep::manifest_error"
  | resolution .. => "depsweep::resolution_error"
  | walk .. => "depsweep::io_error"
  | configuration .. => "depsweep::config_error"

/-- Advice on a failure. -/
def help : Failure → String
  | classFile .. => "Recompile the project; the class output appears to be corrupted"
  | archive .. =>
    "The dependency archive exists but could not be opened; delete it from the local repository " ++
      "and resolve it again"
  | file .. => "Check if the file exists and you have read permissions"
  | descriptorSyntax .. => "Check the TOML syntax near the highlighted position"
  | descriptor .. => "See the README for the depsweep.toml format"
  | resolution .. =>
    "Set an explicit 'path' for the dependency or point --repository at the right local repository"
  | walk .. => "Check file permissions and disk space"
  | configuration .. => "Check your command arguments and configuration"

/-- What lies behind a failure, from the outside in. -/
def causes : Failure → List String
  | classFile _ error => [error.message]
  | archive _ => ["<zip>"]
  | file _ fault => [fault.mark]
  | descriptorSyntax _ => ["<toml>"]
  | walk fault => [fault.mark]
  | descriptor .. | resolution .. | configuration .. => []

end Failure

/-! ### Chains of causes -/

/-- A failure as it is reported: what went wrong, and what lies behind it. -/
structure Report where
  /-- What went wrong. -/
  message : String
  /-- What lies behind it, from the outside in. -/
  causes : List String
deriving DecidableEq

namespace Report

/-- The report of a failure. -/
def ofFailure (failure : Failure) : Report :=
  ⟨failure.message, failure.causes⟩

/-- A report as the cause of something that went wrong. -/
def wrap (report : Report) (message : String) : Report :=
  ⟨message, report.message :: report.causes⟩

/-- All texts of a report, from the outside in. -/
def chain (report : Report) : List String :=
  report.message :: report.causes

/-- A report in one line. -/
def line (report : Report) : String :=
  " <- ".intercalate report.chain

end Report
end ClasspathAudit
