import Mathlib.Algebra.Group.Nat.Defs
import ClasspathAudit.ClassFile.Instruction
import ClasspathAudit.ClassFile.InPlace.ConstantPool

/-
# Instructions, in place

The room of a switch is a product of words. It is cut down to the greatest word instead of
overflowing, since no file has as many bytes.
-/
namespace ClasspathAudit
namespace ClassFile

namespace Instruction

/-- The product of two words, or the greatest word if the product does not fit. -/
def saturatingMul (a b : UInt64) : UInt64 :=
  if a.toNat * b.toNat < 2 ^ 64 then a * b else .ofNat (2 ^ 64 - 1)

end Instruction

namespace InPlace

open Instruction (Form usesLocal form? constantLoad saturatingMul)

/-- Passes over the padding that brings the operands of a switch to a multiple of four bytes from
the start of the code. -/
def skipPadding : Reading Unit := do
  let start ← position
  let padding ← sub 4 (start % 4)
  skip (padding % 4)

/-- Reads the index, in so many bytes, of a constant to load. -/
def loadIndex (width : Nat) : Reading UInt16 :=
  if width = 1 then do return (← u1).toUInt16 else u2

/-- Reads operands of a given form; `start` is the offset of their opcode. -/
def operands (pool : ConstantPool) (start : UInt64) : Form → Reading (List TypeUse)
  | .plain width => do
    skip (.ofNat width)
    return []
  | .loadConstant width => do
    let here ← offset
    let index ← loadIndex width
    lift (constantLoad pool index.toNat here.toNat)
  | .member trailing => do
    let (owner, descriptor) ← readIndex pool.memberRef
    skip (.ofNat trailing)
    return [.internalName .memberOwner owner, .signature .memberType descriptor]
  | .callSite => do
    let descriptor ← readIndex pool.dynamicDescriptor
    skip 2
    return [.signature .callSite descriptor]
  | .classOperand => do
    let name ← readClassName pool
    return [.internalName .instructionOperand name]
  | .arrayCreation => do
    let name ← readClassName pool
    skip 1
    return [.internalName .arrayCreation name]
  | .tableSwitch => do
    skipPadding
    skip 4
    let low ← i4
    let high ← i4
    if high < low then fail .badSwitch
    else do
      let span ← subSigned high.toInt64 low.toInt64
      let targets ← addSigned span 1
      skip (saturatingMul targets.toUInt64 4)
      return []
  | .lookupSwitch => do
    skipPadding
    skip 4
    let pairs ← i4
    if pairs < 0 then fail .badSwitch
    else do
      skip (saturatingMul pairs.toInt64.toUInt64 8)
      return []
  | .wide => do
    let opcode ← u1
    if opcode = 0x84 then do
      skip 4
      return []
    else if usesLocal opcode.toNat then do
      skip 2
      return []
    else do
      let behind ← add start 1
      failAt behind (.badOpcode opcode.toNat)

/-- Reads one instruction. -/
def instruction (pool : ConstantPool) : Reading (List TypeUse) := do
  let start ← offset
  let opcode ← u1
  match form? opcode.toNat with
  | some form => operands pool start form
  | none => failAt start (.badOpcode opcode.toNat)

/-- Reads instructions to the end of the stretch. -/
def instructionsFrom (pool : ConstantPool) : Nat → Reading (List TypeUse)
  | 0 => halt .exhausted
  | budget + 1 => do
    let left ← remaining
    if left = 0 then return []
    else do
      let found ← instruction pool
      let more ← instructionsFrom pool budget
      return found ++ more

/-- What the instructions of a stretch mention, in order. -/
def sequence (pool : ConstantPool) : Reading (List TypeUse) :=
  withBudget (instructionsFrom pool)

end InPlace
end ClassFile
end ClasspathAudit
