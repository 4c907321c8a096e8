import ClasspathAudit.ClassFile.Annotations
import ClasspathAudit.ClassFile.InPlace.ConstantPool

/-
# Annotations, in place

Annotations and values hold each other. The budget counts levels of nesting.
-/
namespace ClasspathAudit
namespace ClassFile
namespace InPlace

/-- Reads an annotation whose values `value` reads. -/
def annotationWith (pool : ConstantPool) (value : Reading (List TypeUse)) :
    Reading (List TypeUse) := do
  let type ← readUtf8 pool
  let values ← counted do
    skip 2
    value
  return .signature .annotationType type :: values

/-- Reads the value of an annotation's member after its tag, which stands at `tagOffset`; `value`
reads the values in it. -/
def taggedValue (pool : ConstantPool) (value : Reading (List TypeUse)) (tag : UInt8)
    (tagOffset : UInt64) : Reading (List TypeUse) := do
  match Char.ofNat tag.toNat with
  | 'B' | 'C' | 'D' | 'F' | 'I' | 'J' | 'S' | 'Z' | 's' => do
    skip 2
    return []
  | 'e' => do
    let type ← readUtf8 pool
    skip 2
    return [.signature .annotationValue type]
  | 'c' => do
    let type ← readUtf8 pool
    return if type = "V" then [] else [.signature .annotationValue type]
  | '@' => annotationWith pool value
  | '[' => counted value
  | _ => failAt tagOffset (.badElementTag tag.toNat)

/-- Reads the value of an annotation's member. -/
def valueFrom (pool : ConstantPool) : Nat → Reading (List TypeUse)
  | 0 => halt .exhausted
  | budget + 1 => do
    let tagOffset ← offset
    let tag ← u1
    taggedValue pool (valueFrom pool budget) tag tagOffset

/-- Reads the value of an annotation's member, however deep it nests. -/
def value (pool : ConstantPool) : Reading (List TypeUse) :=
  withBudget (valueFrom pool)

/-- Reads one annotation. -/
def annotationOf (pool : ConstantPool) : Reading (List TypeUse) :=
  annotationWith pool (value pool)

/-- Reads a counted list of annotations. -/
def annotationList (pool : ConstantPool) : Reading (List TypeUse) :=
  counted (annotationOf pool)

/-! ### Type annotations -/

/-- Passes over the place that a type annotation is attached to. -/
def skipTarget : Reading Unit := do
  let start ← offset
  let tag ← u1
  let target := tag.toNat
  if target ≤ 0x01 then skip 1
  else if 0x10 ≤ target ∧ target ≤ 0x12 then skip 2
  else if 0x13 ≤ target ∧ target ≤ 0x15 then skip 0
  else if target = 0x16 then skip 1
  else if target = 0x17 then skip 2
  else if target = 0x40 ∨ target = 0x41 then do
    let ranges ← u2
    let room ← mul ranges.toUInt64 6
    skip room
  else if 0x42 ≤ target ∧ target ≤ 0x46 then skip 2
  else if 0x47 ≤ target ∧ target ≤ 0x4B then skip 3
  else failAt start (.badTargetType target)

/-- Reads a counted list of type annotations. -/
def typeAnnotationList (pool : ConstantPool) : Reading (List TypeUse) :=
  counted do
    skipTarget
    let steps ← u1
    let room ← mul steps.toUInt64 2
    skip room
    annotationOf pool

/-! ### Attributes -/

/-- Reads the body of an attribute that may stand on any structure of a class file; all but
annotations is passed over. -/
def ofAttribute (pool : ConstantPool) (name : String) : Reading (List TypeUse) :=
  if name = "RuntimeVisibleAnnotations" ∨ name = "RuntimeInvisibleAnnotations" then
    annotationList pool
  else if name = "RuntimeVisibleTypeAnnotations" ∨ name = "RuntimeInvisibleTypeAnnotations" then
    typeAnnotationList pool
  else
    return []

end InPlace
end ClassFile
end ClasspathAudit
