/-
# Faults of class files

Why bytes are not a compiled class, and at which byte of the file that shows.
-/
namespace ClasspathAudit
namespace ClassFile

/-- What an entry of the constant pool was asked to be. -/
inductive EntryRole
  | utf8
  | classInfo
  | nameAndType
  | memberRef
  | dynamic
deriving DecidableEq

namespace EntryRole

/-- The name of a role in messages. -/
def label : EntryRole → String
  | utf8 => "Utf8"
  | classInfo => "Class"
  | nameAndType => "NameAndType"
  | memberRef => "field or method reference"
  | dynamic => "InvokeDynamic"

end EntryRole

/-- What is wrong with the bytes of a class file. -/
inductive Fault
  /-- The file does not start with the number that marks class files. -/
  | badMagic (magic : Nat)
  /-- The version is outside the supported range. -/
  | unsupportedVersion (major minor : Nat)
  /-- So many bytes are missing from what was to be read. -/
  | truncated (needed : Nat)
  /-- An index names no entry of the constant pool. -/
  | badConstantIndex (index : Nat)
  /-- An index names an entry of another kind than needed. -/
  | unexpectedConstant (index : Nat) (expected : EntryRole)
  /-- The constant pool holds an entry of an unknown kind. -/
  | unknownConstantTag (tag : Nat)
  /-- A text of the constant pool is not in modified UTF-8. -/
  | badUtf8
  /-- A byte is no instruction. -/
  | badOpcode (opcode : Nat)
  /-- A switch has no possible number of targets. -/
  | badSwitch
  /-- An annotation holds a value of an unknown kind. -/
  | badElementTag (tag : Nat)
  /-- A type annotation has a target of an unknown kind. -/
  | badTargetType (target : Nat)
deriving DecidableEq

/-- A fault and the offset in the file at which decoding failed. -/
structure Error where
  /-- The offset in the file. -/
  offset : Nat
  /-- What is wrong there. -/
  fault : Fault
deriving DecidableEq

/-- `n` in lower-case hexadecimal digits after `0x`, filled with zeros to `width` digits. -/
def hexText (width n : Nat) : String :=
  let digits := Nat.toDigits 16 n
  String.ofList ('0' :: 'x' :: List.replicate (width - digits.length) '0' ++ digits)

namespace Fault

/-- The wording of a fault. -/
def message : Fault → String
  | badMagic magic => s!"bad magic number {hexText 8 magic}"
  | unsupportedVersion major minor => s!"unsupported class file version {major}.{minor}"
  | truncated needed => s!"unexpected end of data, {needed} more byte(s) needed"
  | badConstantIndex index => s!"invalid constant pool index {index}"
  | unexpectedConstant index expected =>
    s!"constant pool entry {index} is not a {expected.label}"
  | unknownConstantTag tag => s!"unknown constant pool tag {tag}"
  | badUtf8 => "invalid modified UTF-8 data"
  | badOpcode opcode => s!"invalid opcode {hexText 2 opcode}"
  | badSwitch => "invalid switch bounds"
  | badElementTag tag => s!"unknown annotation element tag {hexText 2 tag}"
  | badTargetType target => s!"unknown type annotation target {hexText 2 target}"

end Fault

namespace Error

/-- The wording of a refusal. -/
def message (error : Error) : String :=
  s!"Malformed class file at byte {error.offset}: {error.fault.message}"

end Error
end ClassFile
end ClasspathAudit
