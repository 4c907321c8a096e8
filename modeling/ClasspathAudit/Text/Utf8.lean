import ClasspathAudit.Text

/-
# UTF-8

Bytes as characters. Where bytes are no UTF-8, the longest start of a character that stands there is
passed over, or one byte if none does, and U+FFFD takes its place.
-/
namespace ClasspathAudit
namespace Utf8

/-- The six bits of a continuation byte between two bounds. -/
def continuation? (low high : Nat) : List UInt8 → Option (Nat × List UInt8)
  | [] => none
  | b :: rest =>
    if low ≤ b.toNat ∧ b.toNat ≤ high then some (b.toNat % 64, rest) else none

/-- Reads `count` continuation bytes after the bits `high`, the first of them between the given
bounds. A missing one gives no character, and what comes after those that were there. -/
def continued (high low top : Nat) : Nat → List UInt8 → Option Char × List UInt8
  | 0, bytes => (some (Char.ofNat high), bytes)
  | count + 1, bytes =>
    match continuation? low top bytes with
    | some (bits, rest) => continued (high * 64 + bits) 0x80 0xBF count rest
    | none => (none, bytes)

/-- Reads the character that starts with the byte `b`. -/
def after (b : UInt8) (rest : List UInt8) : Option Char × List UInt8 :=
  let n := b.toNat
  if n < 0x80 then (some (Char.ofNat n), rest)
  else if 0xC2 ≤ n ∧ n ≤ 0xDF then continued (n - 0xC0) 0x80 0xBF 1 rest
  else if n = 0xE0 then continued 0 0xA0 0xBF 2 rest
  else if n = 0xED then continued 0xD 0x80 0x9F 2 rest
  else if 0xE1 ≤ n ∧ n ≤ 0xEF then continued (n - 0xE0) 0x80 0xBF 2 rest
  else if n = 0xF0 then continued 0 0x90 0xBF 3 rest
  else if 0xF1 ≤ n ∧ n ≤ 0xF3 then continued (n - 0xF0) 0x80 0xBF 3 rest
  else if n = 0xF4 then continued 4 0x80 0x8F 3 rest
  else (none, rest)

/-- The characters of bytes, with a gap for what is no character. The budget counts bytes. -/
def pieces : Nat → List UInt8 → List (Option Char)
  | 0, _ => []
  | _ + 1, [] => []
  | budget + 1, b :: rest =>
    let (c, rest) := after b rest
    c :: pieces budget rest

/-- The text of bytes that are all UTF-8. -/
def decode? (bytes : List UInt8) : Option String :=
  ((pieces bytes.length bytes).mapM id).map String.ofList

/-- The text of bytes, with U+FFFD for what is no UTF-8. -/
def decodeLossy (bytes : List UInt8) : String :=
  String.ofList ((pieces bytes.length bytes).map (·.getD '\uFFFD'))

/-- The bytes of a text. -/
def encode (text : String) : List UInt8 :=
  text.toUTF8.toList

end Utf8
end ClasspathAudit
