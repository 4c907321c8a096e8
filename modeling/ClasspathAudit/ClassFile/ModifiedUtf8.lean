import ClasspathAudit.ClassFile.Decoder
import ClasspathAudit.Text.Utf8

/-
# Modified UTF-8

The texts of a class file are sequences of UTF-16 units, each unit written by itself in one to
three bytes; zero takes two bytes. The bytes are first read as units, then the units as characters,
where a surrogate without its partner stands for U+FFFD. Bytes of ASCII characters other than zero
are UTF-8 already and are taken as they stand.
-/
namespace ClasspathAudit
namespace ClassFile
namespace ModifiedUtf8

/-! ### Bytes as units -/

/-- The six bits that a continuation byte carries. -/
def continuation? (b : UInt8) : Option Nat :=
  if b.toNat &&& 0xC0 = 0x80 then some (b.toNat &&& 0x3F) else none

/-- The UTF-16 units that bytes spell, unless some byte is out of place. -/
def units? : Bytes → Option (List Nat)
  | [] => some []
  | b :: rest =>
    let n := b.toNat
    if 0x01 ≤ n && n ≤ 0x7F then
      (units? rest).map (n :: ·)
    else if 0xC0 ≤ n && n ≤ 0xDF then
      match rest with
      | b₂ :: rest => do
        let x ← continuation? b₂
        (units? rest).map (((n &&& 0x1F) <<< 6 ||| x) :: ·)
      | [] => none
    else if 0xE0 ≤ n && n ≤ 0xEF then
      match rest with
      | b₂ :: b₃ :: rest => do
        let x ← continuation? b₂
        let y ← continuation? b₃
        (units? rest).map (((n &&& 0x0F) <<< 12 ||| x <<< 6 ||| y) :: ·)
      | _ => none
    else
      none

/-! ### Units as characters -/

/-- Whether a unit starts a pair of surrogates. -/
def isHigh (u : Nat) : Bool := 0xD800 ≤ u && u ≤ 0xDBFF

/-- Whether a unit ends a pair of surrogates. -/
def isLow (u : Nat) : Bool := 0xDC00 ≤ u && u ≤ 0xDFFF

/-- The character written where a surrogate has no partner. -/
def replacement : Char := '\uFFFD'

/-- The character of a pair of surrogates. -/
def joined (high low : Nat) : Char :=
  Char.ofNat (0x10000 + (high - 0xD800) * 1024 + (low - 0xDC00))

/-- The characters that UTF-16 units stand for. -/
def ofUnits : List Nat → List Char
  | [] => []
  | [u] => [if isHigh u || isLow u then replacement else Char.ofNat u]
  | u :: v :: rest =>
    if isHigh u then
      if isLow v then joined u v :: ofUnits rest else replacement :: ofUnits (v :: rest)
    else if isLow u then
      replacement :: ofUnits (v :: rest)
    else
      Char.ofNat u :: ofUnits (v :: rest)

/-! ### Texts -/

/-- Whether bytes are ASCII characters other than zero. -/
def isAscii (bytes : Bytes) : Bool :=
  bytes.all fun b => b != 0 && b < 0x80

/-- The text that bytes spell unit by unit. -/
def decodeUnits? (bytes : Bytes) : Option String :=
  (units? bytes).map fun units => String.ofList (ofUnits units)

/-- The text that bytes in modified UTF-8 spell. -/
def decode? (bytes : Bytes) : Option String :=
  if isAscii bytes then Utf8.decode? bytes else decodeUnits? bytes

end ModifiedUtf8
end ClassFile
end ClasspathAudit
