import ClasspathAudit.ClassFile.Decoder

/-
# Reading class files in place

A class file can be read where it stands. A reader holds a stretch of the file and a place in it,
counted in words of eight bytes, and moves on as it reads; what it splits off is a reader of a
shorter stretch. Nothing about this is safe by itself: a sum or a difference may not fit a word, a
byte or a stretch may be asked for that is not there, and a loop may not end. Each of these brings
the reader down, which is no answer, while a refusal of the file is one.

The readings are the decoders of windows, part by part. Loops that the bytes limit are on a budget.
-/
namespace ClasspathAudit
namespace ClassFile
namespace InPlace

/-! ### Readers -/

/-- A place in a stretch of the file. -/
structure Reader where
  /-- The bytes of the stretch. -/
  bytes : Bytes
  /-- The number of bytes read since the start of the stretch. -/
  position : UInt64
  /-- The offset in the file at which the stretch starts. -/
  base : UInt64
deriving DecidableEq

namespace Reader

/-- At the start of the whole of `bytes`, as a file. -/
def ofBytes (bytes : Bytes) : Reader := ⟨bytes, 0, 0⟩

/-- The number of bytes of the stretch. -/
def size (r : Reader) : UInt64 := .ofNat r.bytes.length

end Reader

/-- A refusal of the file. -/
structure Refusal where
  /-- What is wrong, and where. -/
  error : Error
  /-- The reader whose stretch is too short and the number of bytes that it was asked for, if it is
  refused for that. -/
  read : Option (Reader × UInt64)
deriving DecidableEq

/-- Why a reading gives no result. -/
inductive Halt
  /-- It refuses the file. -/
  | refused (refusal : Refusal)
  /-- A number does not fit its word. -/
  | overflow
  /-- A byte or a stretch is not there. -/
  | outOfBounds
  /-- A loop has used up its budget. -/
  | exhausted
deriving DecidableEq

/-- A reading of some part of a stretch. -/
abbrev Reading := StateT Reader (Except Halt)

/-- Ends the reading. -/
def halt {α : Type} (reason : Halt) : Reading α := fun _ => .error reason

/-- Refuses the file with `fault` at a given offset. -/
def failAt {α : Type} (offset : UInt64) (fault : Fault) : Reading α :=
  halt (.refused ⟨⟨offset.toNat, fault⟩, none⟩)

/-- What is found without reading anything, or the refusal of the file. -/
def lift {α : Type} : Except Error α → Reading α
  | .ok a => return a
  | .error error => halt (.refused ⟨error, none⟩)

/-! ### Words -/

/-- The sum of two words. -/
def add (a b : UInt64) : Reading UInt64 :=
  if a.toNat + b.toNat < UInt64.size then return a + b else halt .overflow

/-- The difference of two words. -/
def sub (a b : UInt64) : Reading UInt64 :=
  if b.toNat ≤ a.toNat then return a - b else halt .overflow

/-- The product of two words. -/
def mul (a b : UInt64) : Reading UInt64 :=
  if a.toNat * b.toNat < UInt64.size then return a * b else halt .overflow

/-- A signed number in the word that `word` computes it in, if it fits one. -/
def signed (number : Int) (word : Int64) : Reading Int64 :=
  if Int64.minValue.toInt ≤ number ∧ number ≤ Int64.maxValue.toInt then return word
  else halt .overflow

/-- The sum of two signed words. -/
def addSigned (a b : Int64) : Reading Int64 :=
  signed (a.toInt + b.toInt) (a + b)

/-- The difference of two signed words. -/
def subSigned (a b : Int64) : Reading Int64 :=
  signed (a.toInt - b.toInt) (a - b)

/-! ### Places -/

/-- The number of bytes read since the start of the stretch. -/
def position : Reading UInt64 := do
  let r ← get
  return r.position

/-- The offset in the file of the next byte. -/
def offset : Reading UInt64 := do
  let r ← get
  add r.base r.position

/-- The number of bytes left to read. -/
def remaining : Reading UInt64 := do
  let r ← get
  sub r.size r.position

/-- Refuses the file with `fault` at the next byte. -/
def fail {α : Type} (fault : Fault) : Reading α := do
  let here ← offset
  failAt here fault

/-! ### Bytes -/

/-- The byte at an index. -/
def byteAt (bytes : Bytes) (index : UInt64) : Reading UInt8 :=
  match bytes[index.toNat]? with
  | some b => return b
  | none => halt .outOfBounds

/-- The bytes of the stretch from the one at `start` to before the one at `stop`. -/
def slice (start stop : UInt64) : Reading Bytes := do
  let r ← get
  if start.toNat ≤ stop.toNat ∧ stop.toNat ≤ r.bytes.length then
    return (r.bytes.drop start.toNat).take (stop.toNat - start.toNat)
  else halt .outOfBounds

/-- Refuses a read of `count` bytes for which `needed` are missing. -/
def short {α : Type} (needed count : UInt64) : Reading α := do
  let here ← offset
  let r ← get
  halt (.refused ⟨⟨here.toNat, .truncated needed.toNat⟩, some (r, count)⟩)

/-- The next `count` bytes. -/
def take (count : UInt64) : Reading Bytes := do
  let left ← remaining
  if left < count then do
    let needed ← sub count left
    short needed count
  else do
    let start ← position
    let stop ← add start count
    let bytes ← slice start stop
    modify fun r => { r with position := stop }
    return bytes

/-- Passes over `count` bytes. -/
def skip (count : UInt64) : Reading Unit := do
  let _ ← take count

/-- A number of one byte. -/
def u1 : Reading UInt8 := do
  let bytes ← take 1
  byteAt bytes 0

/-- A number of two bytes. -/
def u2 : Reading UInt16 := do
  let bytes ← take 2
  let b₀ ← byteAt bytes 0
  let b₁ ← byteAt bytes 1
  return .ofNat (Decoder.ofBigEndian [b₀, b₁])

/-- A number of four bytes. -/
def u4 : Reading UInt32 := do
  let bytes ← take 4
  let b₀ ← byteAt bytes 0
  let b₁ ← byteAt bytes 1
  let b₂ ← byteAt bytes 2
  let b₃ ← byteAt bytes 3
  return .ofNat (Decoder.ofBigEndian [b₀, b₁, b₂, b₃])

/-- A signed number of four bytes. -/
def i4 : Reading Int32 := do return (← u4).toInt32

/-! ### Stretches and lists -/

/-- Splits off the next `count` bytes as a stretch of their own. -/
def window (count : UInt64) : Reading Reader := do
  let base ← offset
  let bytes ← take count
  return ⟨bytes, 0, base⟩

/-- Splits off the stretch whose length the next four bytes give. -/
def prefixedWindow : Reading Reader := do
  let count ← u4
  window count.toUInt64

/-- Runs a reading with a reader of its own, which is then given up. -/
def within {α : Type} (inner : Reader) (reading : Reading α) : Reading α := fun outer =>
  match reading inner with
  | .ok (a, _) => .ok (a, outer)
  | .error reason => .error reason

/-- Runs a reading `count` times and joins what it finds. -/
def repeated {α : Type} : Nat → Reading (List α) → Reading (List α)
  | 0, _ => return []
  | count + 1, reading => do
    let found ← reading
    let more ← repeated count reading
    return found ++ more

/-- Runs a reading as often as the next two bytes say and joins what it finds. -/
def counted {α : Type} (reading : Reading (List α)) : Reading (List α) := do
  let count ← u2
  repeated count.toNat reading

/-- Runs a reading with a budget that the bytes of the stretch cannot use up. -/
def withBudget {α : Type} (reading : Nat → Reading α) : Reading α := do
  let r ← get
  reading (r.bytes.length + 1)

end InPlace
end ClassFile
end ClasspathAudit
