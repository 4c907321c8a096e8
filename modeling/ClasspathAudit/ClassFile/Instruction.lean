import ClasspathAudit.ClassFile.ConstantPool
import ClasspathAudit.Reference

/-
# Instructions

The code of a method is a sequence of instructions. Each opcode has a form of operands; the forms
that hold an index into the constant pool may mention types, the others are passed over.
-/
namespace ClasspathAudit
namespace ClassFile
namespace Instruction

open Decoder

/-! ### Forms of operands -/

/-- What follows an opcode. -/
inductive Form
  /-- So many bytes that mention no type. -/
  | plain (width : Nat)
  /-- The index, in so many bytes, of a constant to load. -/
  | loadConstant (width : Nat)
  /-- The index of a field or method, then so many bytes. -/
  | member (trailing : Nat)
  /-- The index of a call site, then two bytes. -/
  | callSite
  /-- The index of a class. -/
  | classOperand
  /-- The index of an array type, then the number of dimensions. -/
  | arrayCreation
  /-- Padding, a default and a target for each number between two bounds. -/
  | tableSwitch
  /-- Padding, a default and counted pairs of a number and a target. -/
  | lookupSwitch
  /-- Another opcode whose operands take twice their room. -/
  | wide
deriving DecidableEq

/-- Whether an opcode loads, stores or returns through a local variable whose index follows it. -/
def usesLocal (opcode : Nat) : Bool :=
  (0x15 ≤ opcode && opcode ≤ 0x19) || (0x36 ≤ opcode && opcode ≤ 0x3A) || opcode == 0xA9

/-- The form of the operands of an opcode; none for a byte that is no opcode. -/
def form? (opcode : Nat) : Option Form :=
  if opcode = 0x12 then some (.loadConstant 1)
  else if opcode = 0x13 ∨ opcode = 0x14 then some (.loadConstant 2)
  else if 0xB2 ≤ opcode ∧ opcode ≤ 0xB8 then some (.member 0)
  else if opcode = 0xB9 then some (.member 2)
  else if opcode = 0xBA then some .callSite
  else if opcode = 0xBB ∨ opcode = 0xBD ∨ opcode = 0xC0 ∨ opcode = 0xC1 then some .classOperand
  else if opcode = 0xC5 then some .arrayCreation
  else if opcode = 0xAA then some .tableSwitch
  else if opcode = 0xAB then some .lookupSwitch
  else if opcode = 0xC4 then some .wide
  else if opcode = 0x10 ∨ opcode = 0xBC ∨ usesLocal opcode = true then some (.plain 1)
  else if opcode = 0x11 ∨ opcode = 0x84 ∨ (0x99 ≤ opcode ∧ opcode ≤ 0xA8) ∨ opcode = 0xC6 ∨
      opcode = 0xC7 then some (.plain 2)
  else if opcode = 0xC8 ∨ opcode = 0xC9 then some (.plain 4)
  else if opcode ≤ 0xCA ∨ opcode = 0xFE ∨ opcode = 0xFF then some (.plain 0)
  else none

/-! ### Operands -/

/-- What loading the constant in slot `index` mentions. -/
def constantLoad (pool : ConstantPool) (index offset : Nat) : Except Error (List TypeUse) := do
  match ← pool.get index offset with
  | .classInfo name => do
    let name ← pool.utf8 name offset
    return [.internalName .constantLoad name]
  | .methodType descriptor => do
    let descriptor ← pool.utf8 descriptor offset
    return [.signature .constantLoad descriptor]
  | .methodHandle reference => do
    let (owner, descriptor) ← pool.memberRef reference offset
    return [.internalName .memberOwner owner, .signature .memberType descriptor]
  | .dynamic _ => do
    let descriptor ← pool.dynamicDescriptor index offset
    return [.signature .constantLoad descriptor]
  | _ => return []

/-- Passes over the padding that brings the operands of a switch to a multiple of four bytes from
the start of the code. -/
def skipPadding : Decoder Unit := do
  let position ← position
  skip ((4 - position % 4) % 4)

/-- Reads operands of a given form; `start` is the offset of their opcode. -/
def decodeOperands (pool : ConstantPool) (start : Nat) : Form → Decoder (List TypeUse)
  | .plain width => do
    skip width
    return []
  | .loadConstant width => do
    let offset ← offset
    let index ← if width = 1 then u1 else u2
    liftM (constantLoad pool index offset)
  | .member trailing => do
    let (owner, descriptor) ← ConstantPool.readIndex pool.memberRef
    skip trailing
    return [.internalName .memberOwner owner, .signature .memberType descriptor]
  | .callSite => do
    let descriptor ← ConstantPool.readIndex pool.dynamicDescriptor
    skip 2
    return [.signature .callSite descriptor]
  | .classOperand => do
    let name ← pool.readClassName
    return [.internalName .instructionOperand name]
  | .arrayCreation => do
    let name ← pool.readClassName
    skip 1
    return [.internalName .arrayCreation name]
  | .tableSwitch => do
    skipPadding
    skip 4
    let low ← i4
    let high ← i4
    if high < low then fail .badSwitch
    else do
      skip ((high - low + 1).toNat * 4)
      return []
  | .lookupSwitch => do
    skipPadding
    skip 4
    let pairs ← i4
    if pairs < 0 then fail .badSwitch
    else do
      skip (pairs.toNat * 8)
      return []
  | .wide => do
    let opcode ← u1
    if opcode = 0x84 then do
      skip 4
      return []
    else if usesLocal opcode then do
      skip 2
      return []
    else failAt (start + 1) (.badOpcode opcode)

/-- Reads one instruction. -/
def decode (pool : ConstantPool) : Decoder (List TypeUse) := do
  let start ← offset
  let opcode ← u1
  match form? opcode with
  | some form => decodeOperands pool start form
  | none => failAt start (.badOpcode opcode)

/-- Reads instructions to the end of the window. The budget counts bytes, of which every
instruction has at least one. -/
def decodeAll (pool : ConstantPool) : Nat → Decoder (List TypeUse)
  | 0 => return []
  | budget + 1 => do
    let w ← get
    if w.rest.isEmpty then return []
    else do
      let found ← decode pool
      let more ← decodeAll pool budget
      return found ++ more

/-- What the instructions of a window mention, in order. -/
def sequence (pool : ConstantPool) : Decoder (List TypeUse) := fun w =>
  decodeAll pool w.rest.length w

end Instruction
end ClassFile
end ClasspathAudit
