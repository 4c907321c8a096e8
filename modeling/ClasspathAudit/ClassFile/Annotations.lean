import ClasspathAudit.ClassFile.ConstantPool
import ClasspathAudit.Reference

/-
# Annotations

An annotation names its type and holds values, which may name classes and enum types and may be
annotations and lists of values in turn. Values nest to any depth; the budget of the recursion
counts bytes, each level of nesting takes at least one, and with no byte left the reading of the
tag of a value fails just as it does at budget zero.
-/
namespace ClasspathAudit
namespace ClassFile
namespace Annotations

open Decoder

/-- Reads an annotation whose values `value` reads. -/
def decodeWith (pool : ConstantPool) (value : Decoder (List TypeUse)) :
    Decoder (List TypeUse) := do
  let type ← pool.readUtf8
  let values ← Decoder.counted do
    skip 2
    value
  return .signature .annotationType type :: values

/-- Reads the value of an annotation's member. -/
def decodeValue (pool : ConstantPool) : Nat → Decoder (List TypeUse)
  | 0 => fail (.truncated 1)
  | budget + 1 => do
    let tagOffset ← offset
    let tag ← u1
    match Char.ofNat tag with
    | 'B' | 'C' | 'D' | 'F' | 'I' | 'J' | 'S' | 'Z' | 's' => do
      skip 2
      return []
    | 'e' => do
      let type ← pool.readUtf8
      skip 2
      return [.signature .annotationValue type]
    | 'c' => do
      let type ← pool.readUtf8
      return if type = "V" then [] else [.signature .annotationValue type]
    | '@' => decodeWith pool (decodeValue pool budget)
    | '[' => Decoder.counted (decodeValue pool budget)
    | _ => failAt tagOffset (.badElementTag tag)

/-- Reads the value of an annotation's member, with a budget that the window cannot use up. -/
def value (pool : ConstantPool) : Decoder (List TypeUse) := fun w =>
  decodeValue pool w.rest.length w

/-- Reads one annotation. -/
def decode (pool : ConstantPool) : Decoder (List TypeUse) :=
  decodeWith pool (value pool)

/-- Reads a counted list of annotations. -/
def list (pool : ConstantPool) : Decoder (List TypeUse) :=
  Decoder.counted (decode pool)

/-! ### Type annotations -/

/-- Passes over the place that a type annotation is attached to. -/
def skipTarget : Decoder Unit := do
  let start ← offset
  let target ← u1
  if target ≤ 0x01 then skip 1
  else if 0x10 ≤ target ∧ target ≤ 0x12 then skip 2
  else if 0x13 ≤ target ∧ target ≤ 0x15 then skip 0
  else if target = 0x16 then skip 1
  else if target = 0x17 then skip 2
  else if target = 0x40 ∨ target = 0x41 then do
    let ranges ← u2
    skip (ranges * 6)
  else if 0x42 ≤ target ∧ target ≤ 0x46 then skip 2
  else if 0x47 ≤ target ∧ target ≤ 0x4B then skip 3
  else failAt start (.badTargetType target)

/-- Reads a counted list of type annotations. -/
def typeList (pool : ConstantPool) : Decoder (List TypeUse) :=
  Decoder.counted do
    skipTarget
    let steps ← u1
    skip (steps * 2)
    decode pool

/-! ### Attributes -/

/-- Reads the body of an attribute that may stand on any structure of a class file; all but
annotations is passed over. -/
def ofAttribute (pool : ConstantPool) (name : String) : Decoder (List TypeUse) :=
  if name = "RuntimeVisibleAnnotations" ∨ name = "RuntimeInvisibleAnnotations" then
    list pool
  else if name = "RuntimeVisibleTypeAnnotations" ∨ name = "RuntimeInvisibleTypeAnnotations" then
    typeList pool
  else
    return []

end Annotations
end ClassFile
end ClasspathAudit
