import ClasspathAudit.ClassFile.Error

/-
# Decoding bytes

Big-endian numbers and length-prefixed windows. A window knows where it starts in the file, so each
fault names the offset in the whole file, and a decoder of a window cannot look beyond its end.
-/
namespace ClasspathAudit

/-- Bytes, first byte first. -/
abbrev Bytes := List UInt8

namespace ClassFile

/-! ### Windows -/

/-- What is left to read of a stretch of the file. -/
structure Window where
  /-- The bytes not read yet. -/
  rest : Bytes
  /-- The number of bytes read since the start of the window. -/
  position : Nat
  /-- The offset in the file at which the window starts. -/
  base : Nat
deriving DecidableEq

namespace Window

/-- The whole of `bytes`, as a file. -/
def ofBytes (bytes : Bytes) : Window := ⟨bytes, 0, 0⟩

/-- The offset in the file of the next byte. -/
def offset (w : Window) : Nat := w.base + w.position

end Window

/-- A decoder of some part of a window. -/
abbrev Decoder := StateT Window (Except Error)

namespace Decoder

/-- Refuses the file with `fault` at a given offset. -/
def failAt {α : Type} (offset : Nat) (fault : Fault) : Decoder α := fun _ =>
  .error ⟨offset, fault⟩

/-- The offset in the file of the next byte. -/
def offset : Decoder Nat := fun w => .ok (w.offset, w)

/-- The number of bytes read since the start of the window. -/
def position : Decoder Nat := fun w => .ok (w.position, w)

/-- Refuses the file with `fault` at the next byte. -/
def fail {α : Type} (fault : Fault) : Decoder α := fun w =>
  .error ⟨w.offset, fault⟩

/-- Whether a list has at least `n` members, found without counting the others. -/
def hasAtLeast {α : Type} : Nat → List α → Bool
  | 0, _ => true
  | _ + 1, [] => false
  | n + 1, _ :: rest => hasAtLeast n rest

theorem hasAtLeast_iff {α : Type} (n : Nat) (l : List α) :
    hasAtLeast n l = true ↔ n ≤ l.length := by
  induction l generalizing n with
  | nil => cases n <;> simp [hasAtLeast]
  | cons a l ih => cases n <;> simp [hasAtLeast, ih]

/-- The next `count` bytes. -/
def take (count : Nat) : Decoder Bytes := fun w =>
  if hasAtLeast count w.rest then
    .ok (w.rest.take count, ⟨w.rest.drop count, w.position + count, w.base⟩)
  else
    .error ⟨w.offset, .truncated (count - w.rest.length)⟩

/-- Passes over `count` bytes. -/
def skip (count : Nat) : Decoder Unit := do
  let _ ← take count

/-- The number that bytes spell, the most significant byte first. -/
def ofBigEndian (bytes : Bytes) : Nat :=
  bytes.foldl (fun n b => 256 * n + b.toNat) 0

/-- A number of one byte. -/
def u1 : Decoder Nat := do return ofBigEndian (← take 1)

/-- A number of two bytes. -/
def u2 : Decoder Nat := do return ofBigEndian (← take 2)

/-- A number of four bytes. -/
def u4 : Decoder Nat := do return ofBigEndian (← take 4)

/-- The signed number that four bytes spell in two's complement. -/
def signed32 (n : Nat) : Int :=
  if n < 0x80000000 then n else (n : Int) - 0x100000000

/-- A signed number of four bytes. -/
def i4 : Decoder Int := do return signed32 (← u4)

/-- Splits off the next `count` bytes as a window of their own. -/
def window (count : Nat) : Decoder Window := do
  let base ← offset
  let bytes ← take count
  return ⟨bytes, 0, base⟩

/-- Splits off the window whose length the next four bytes give. -/
def prefixedWindow : Decoder Window := do
  let count ← u4
  window count

/-- Runs a decoder on a window; what it leaves of the window is passed over. -/
def within {α : Type} (w : Window) (decoder : Decoder α) : Decoder α := fun outer =>
  match decoder w with
  | .ok (a, _) => .ok (a, outer)
  | .error error => .error error

/-- Runs a decoder `count` times and joins what it finds. -/
def repeated {α : Type} : Nat → Decoder (List α) → Decoder (List α)
  | 0, _ => return []
  | count + 1, decoder => do
    let found ← decoder
    let more ← repeated count decoder
    return found ++ more

/-- Runs a decoder as often as the next two bytes say and joins what it finds. -/
def counted {α : Type} (decoder : Decoder (List α)) : Decoder (List α) := do
  let count ← u2
  repeated count decoder

end Decoder
end ClassFile
end ClasspathAudit
