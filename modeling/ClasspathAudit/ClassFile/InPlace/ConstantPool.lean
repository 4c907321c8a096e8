import ClasspathAudit.ClassFile.ConstantPool
import ClasspathAudit.ClassFile.InPlace.Reader

/-
# The constant pool, in place

Texts are decoded by a loop over the indices of their bytes, and the slots are filled by a loop that
ends when there are as many as the file says. An entry of two slots may overfill them by one, which
is looked for afterwards.
-/
namespace ClasspathAudit
namespace ClassFile
namespace InPlace

/-! ### Texts -/

/-- The six bits that the byte at an index carries, if it is there and is a continuation byte. -/
def continuationAt (bytes : Bytes) (index : UInt64) : Option Nat :=
  bytes[index.toNat]?.bind ModifiedUtf8.continuation?

/-- The UTF-16 unit that starts at an index and the index behind it, unless some byte is out of
place. -/
def unitAt (bytes : Bytes) (i : UInt64) : Reading (Option (Nat × UInt64)) := do
  let b ← byteAt bytes i
  let n := b.toNat
  if 0x01 ≤ n && n ≤ 0x7F then do
    let next ← add i 1
    return some (n, next)
  else if 0xC0 ≤ n && n ≤ 0xDF then do
    let second ← add i 1
    match continuationAt bytes second with
    | none => return none
    | some x => do
      let next ← add i 2
      return some ((n &&& 0x1F) <<< 6 ||| x, next)
  else if 0xE0 ≤ n && n ≤ 0xEF then do
    let second ← add i 1
    match continuationAt bytes second with
    | none => return none
    | some x => do
      let third ← add i 2
      match continuationAt bytes third with
      | none => return none
      | some y => do
        let next ← add i 3
        return some ((n &&& 0x0F) <<< 12 ||| x <<< 6 ||| y, next)
  else return none

/-- The UTF-16 units that the bytes from an index on spell, unless some byte is out of place. -/
def unitsFrom (bytes : Bytes) : Nat → UInt64 → Reading (Option (List Nat))
  | 0, _ => halt .exhausted
  | budget + 1, i => do
    if i.toNat < bytes.length then do
      match ← unitAt bytes i with
      | none => return none
      | some (u, next) => do
        let units ← unitsFrom bytes budget next
        return units.map (u :: ·)
    else return some []

/-- The text that bytes in modified UTF-8 spell. -/
def text? (bytes : Bytes) : Reading (Option String) :=
  if ModifiedUtf8.isAscii bytes then return Utf8.decode? bytes
  else do
    let units ← unitsFrom bytes (bytes.length + 1) 0
    return units.map fun units => String.ofList (ModifiedUtf8.ofUnits units)

/-! ### Entries -/

/-- Reads an entry after its tag. A `true` beside it says that the entry takes two slots. -/
def taggedEntry (tag : UInt8) : Reading (Constant × Bool) := do
  match tag.toNat with
  | 1 => do
    let count ← u2
    let start ← offset
    let bytes ← take count.toUInt64
    match ← text? bytes with
    | some text => return (.utf8 text, false)
    | none => failAt start .badUtf8
  | 3 | 4 => do
    skip 4
    return (.literal, false)
  | 5 | 6 => do
    skip 8
    return (.literal, true)
  | 7 => do
    let name ← u2
    return (.classInfo name.toNat, false)
  | 8 => do
    skip 2
    return (.literal, false)
  | 9 | 10 | 11 => do
    let owner ← u2
    let type ← u2
    return (.memberRef owner.toNat type.toNat, false)
  | 12 => do
    let name ← u2
    let descriptor ← u2
    return (.nameAndType name.toNat descriptor.toNat, false)
  | 15 => do
    skip 1
    let reference ← u2
    return (.methodHandle reference.toNat, false)
  | 16 => do
    let descriptor ← u2
    return (.methodType descriptor.toNat, false)
  | 17 | 18 => do
    skip 2
    let type ← u2
    return (.dynamic type.toNat, false)
  | 19 | 20 => do
    skip 2
    return (.named, false)
  | _ => do
    let behind ← offset
    let tagOffset ← sub behind 1
    failAt tagOffset (.unknownConstantTag tag.toNat)

/-- Reads entries behind the slots filled so far, until there are `count`, and gives the pool unless
there are more. -/
def poolFrom (count : Nat) : Nat → List Constant → Reading ConstantPool
  | 0, _ => halt .exhausted
  | budget + 1, slots => do
    if slots.length < count then do
      let tag ← u1
      let (constant, isWide) ← taggedEntry tag
      poolFrom count budget (slots ++ if isWide then [constant, .unusable] else [constant])
    else if count < slots.length ∧ 0 < count then
      fail (.badConstantIndex count)
    else return ⟨slots.toArray⟩

/-- Reads a pool: the number of its slots, slot 0 included, then the entries. -/
def constantPool : Reading ConstantPool := do
  let count ← u2
  poolFrom count.toNat (count.toNat + 1) [.unusable]

/-! ### Indices in the stream -/

/-- Reads an index of two bytes and looks it up. -/
def readIndex {α : Type} (lookUp : Nat → Nat → Except Error α) : Reading α := do
  let here ← offset
  let index ← u2
  lift (lookUp index.toNat here.toNat)

/-- Reads the index of a text. -/
def readUtf8 (pool : ConstantPool) : Reading String :=
  readIndex pool.utf8

/-- Reads the index of a class and gives its internal name. -/
def readClassName (pool : ConstantPool) : Reading String :=
  readIndex pool.className

/-- Reads the index of a class, where 0 stands for none. -/
def readClassName? (pool : ConstantPool) : Reading (Option String) :=
  readIndex fun index offset =>
    if index = 0 then .ok none else (pool.className index offset).map some

end InPlace
end ClassFile
end ClasspathAudit
