import ClasspathAudit.ClassFile.ModifiedUtf8

/-
# The constant pool

The table of constants that the rest of a class file refers to by index. Slot 0 is never usable; a
long or double takes two slots, of which the second is not usable either.
-/
namespace ClasspathAudit
namespace ClassFile

/-! ### Entries -/

/-- The content of a slot, as far as types are concerned. -/
inductive Constant
  /-- A text. -/
  | utf8 (text : String)
  /-- A number or a string. -/
  | literal
  /-- A class or array type, by the slot of its name. -/
  | classInfo (name : Nat)
  /-- A field or method, by the slots of its owner and of its name and type. -/
  | memberRef (owner nameAndType : Nat)
  /-- The slots of a name and of a descriptor. -/
  | nameAndType (name descriptor : Nat)
  /-- A method handle, by the slot of the member it refers to. -/
  | methodHandle (reference : Nat)
  /-- A method type, by the slot of its descriptor. -/
  | methodType (descriptor : Nat)
  /-- A dynamic constant or call site, by the slot of its name and type. -/
  | dynamic (nameAndType : Nat)
  /-- A module or package, which is no type. -/
  | named
  /-- Slot 0, and the slot after a long or double. -/
  | unusable
deriving DecidableEq

namespace Constant

open Decoder

/-- Reads an entry after its tag, which stands at `tagOffset`. A `true` beside it says that the
entry takes two slots. -/
def decodeTagged (tag tagOffset : Nat) : Decoder (Constant × Bool) := do
  match tag with
  | 1 => do
    let count ← u2
    let start ← offset
    let bytes ← take count
    match ModifiedUtf8.decode? bytes with
    | some text => return (utf8 text, false)
    | none => failAt start .badUtf8
  | 3 | 4 => do
    skip 4
    return (literal, false)
  | 5 | 6 => do
    skip 8
    return (literal, true)
  | 7 => do
    let name ← u2
    return (classInfo name, false)
  | 8 => do
    skip 2
    return (literal, false)
  | 9 | 10 | 11 => do
    let owner ← u2
    let type ← u2
    return (memberRef owner type, false)
  | 12 => do
    let name ← u2
    let descriptor ← u2
    return (nameAndType name descriptor, false)
  | 15 => do
    skip 1
    let reference ← u2
    return (methodHandle reference, false)
  | 16 => do
    let descriptor ← u2
    return (methodType descriptor, false)
  | 17 | 18 => do
    skip 2
    let type ← u2
    return (dynamic type, false)
  | 19 | 20 => do
    skip 2
    return (named, false)
  | _ => failAt tagOffset (.unknownConstantTag tag)

/-- Reads one entry. -/
def decode : Decoder (Constant × Bool) := do
  let tagOffset ← offset
  let tag ← u1
  decodeTagged tag tagOffset

end Constant

/-- A constant pool, slot by slot. -/
structure ConstantPool where
  /-- The contents of the slots, slot 0 first. -/
  slots : Array Constant

namespace ConstantPool

open Decoder

/-- Reads entries until `free` further slots are filled; a pool of `count` slots is refused if its
last entry needs one slot more. -/
def decodeSlots (count : Nat) : Nat → Decoder (List Constant)
  | 0 => return []
  | free + 1 => do
    let (constant, isWide) ← Constant.decode
    if isWide then
      match free with
      | 0 => fail (.badConstantIndex count)
      | free + 1 => do
        let more ← decodeSlots count free
        return constant :: .unusable :: more
    else do
      let more ← decodeSlots count free
      return constant :: more

/-- Reads a pool: the number of its slots, slot 0 included, then the entries. -/
def decode : Decoder ConstantPool := do
  let count ← u2
  let constants ← decodeSlots count (count - 1)
  return ⟨(Constant.unusable :: constants).toArray⟩

/-! ### Look-up

Each look-up takes the offset at which its index was read, for the error. -/

/-- The entry in slot `index`. -/
def get (pool : ConstantPool) (index offset : Nat) : Except Error Constant :=
  match pool.slots[index]? with
  | none | some .unusable => .error ⟨offset, .badConstantIndex index⟩
  | some constant => .ok constant

/-- The refusal of an entry that is not what it was asked to be. -/
def notA {α : Type} (role : EntryRole) (index offset : Nat) : Except Error α :=
  .error ⟨offset, .unexpectedConstant index role⟩

/-- The text in slot `index`. -/
def utf8 (pool : ConstantPool) (index offset : Nat) : Except Error String := do
  match ← pool.get index offset with
  | .utf8 text => return text
  | _ => notA .utf8 index offset

/-- The internal name of the class in slot `index`. -/
def className (pool : ConstantPool) (index offset : Nat) : Except Error String := do
  match ← pool.get index offset with
  | .classInfo name => pool.utf8 name offset
  | _ => notA .classInfo index offset

/-- The name and the descriptor in slot `index`. -/
def nameAndType (pool : ConstantPool) (index offset : Nat) : Except Error (String × String) := do
  match ← pool.get index offset with
  | .nameAndType name descriptor => do
    let name ← pool.utf8 name offset
    let descriptor ← pool.utf8 descriptor offset
    return (name, descriptor)
  | _ => notA .nameAndType index offset

/-- The owner and the descriptor of the field or method in slot `index`. -/
def memberRef (pool : ConstantPool) (index offset : Nat) : Except Error (String × String) := do
  match ← pool.get index offset with
  | .memberRef owner type => do
    let owner ← pool.className owner offset
    let (_, descriptor) ← pool.nameAndType type offset
    return (owner, descriptor)
  | _ => notA .memberRef index offset

/-- The descriptor of the dynamic constant or call site in slot `index`. -/
def dynamicDescriptor (pool : ConstantPool) (index offset : Nat) : Except Error String := do
  match ← pool.get index offset with
  | .dynamic type => do
    let (_, descriptor) ← pool.nameAndType type offset
    return descriptor
  | _ => notA .dynamic index offset

/-! ### Indices in the stream -/

/-- Reads an index of two bytes and looks it up. -/
def readIndex {α : Type} (lookUp : Nat → Nat → Except Error α) : Decoder α := do
  let offset ← offset
  let index ← u2
  liftM (lookUp index offset)

/-- Reads the index of a text. -/
def readUtf8 (pool : ConstantPool) : Decoder String :=
  readIndex pool.utf8

/-- Reads the index of a class and gives its internal name. -/
def readClassName (pool : ConstantPool) : Decoder String :=
  readIndex pool.className

/-- Reads the index of a class, where 0 stands for none. -/
def readClassName? (pool : ConstantPool) : Decoder (Option String) :=
  readIndex fun index offset =>
    if index = 0 then .ok none else (pool.className index offset).map some

end ConstantPool
end ClassFile
end ClasspathAudit
