import ClasspathAudit.Archive.CodePage
import ClasspathAudit.Archive.Crc32
import ClasspathAudit.Archive.Inflate
import ClasspathAudit.Text.Utf8

/-
# Archives

An archive ends in a record that says where its directory lies; the directory lists the entries, and
each entry has a header of its own before its data. Data may stand before the archive, in which case
all offsets are too small by the same amount, and a comment may follow it.
-/
namespace ClasspathAudit
namespace Archive

/-- The bytes of an archive. -/
abbrev Content := Array UInt8

/-! ### Numbers at offsets -/

/-- The number that bytes spell, the least significant byte first. -/
def ofLittleEndian (bytes : List UInt8) : Nat :=
  bytes.foldr (fun b n => b.toNat + 256 * n) 0

/-- The `count` bytes at `offset`. -/
def slice? (data : Content) (offset count : Nat) : Option (List UInt8) :=
  if offset + count ≤ data.size then some (data.extract offset (offset + count)).toList else none

/-- The number in the `width` bytes at `offset`. -/
def number? (data : Content) (offset width : Nat) : Option Nat :=
  (slice? data offset width).map ofLittleEndian

/-! ### The end record -/

/-- The mark of the end record. -/
def endMark : List UInt8 := [0x50, 0x4B, 0x05, 0x06]

/-- The size of the end record without its comment. -/
def endSize : Nat := 22

/-- The greatest length of a comment. -/
def maxComment : Nat := 0xFFFF

/-- The greatest of the offsets `start`, `start + 1`, … at which `mark` stands in a list. -/
def lastMark? (mark : List UInt8) (start : Nat) (best : Option Nat) : List UInt8 → Option Nat
  | [] => best
  | b :: rest =>
    lastMark? mark (start + 1) (if mark.isPrefixOf (b :: rest) then some start else best) rest

/-- Where the end record starts: at the last mark that leaves room for a record and is not farther
from the end than a comment can be long. -/
def endOffset? (data : Content) : Option Nat :=
  let first := data.size - (endSize + maxComment)
  match slice? data first (data.size - first - (endSize - 4)) with
  | some bytes => if data.size < endSize then none else lastMark? endMark first none bytes
  | none => none

/-- Where the directory of an archive lies. -/
structure Directory where
  /-- By how much offsets in the archive are too small. -/
  shift : Nat
  /-- The offset of the first directory entry. -/
  start : Nat
  /-- The number of entries. -/
  count : Nat

/-- The mark of the record that points to the end record of a large archive. -/
def largeLocatorMark : Nat := 0x07064B50

/-- The mark of the end record of a large archive. -/
def largeEndMark : Nat := 0x06064B50

/-- The first offset from `offset` on, among `tries` many, at which `mark` stands. -/
def findMark? (data : Content) (mark : Nat) : Nat → Nat → Option Nat
  | 0, _ => none
  | tries + 1, offset =>
    match number? data offset 4 with
    | some n => if n = mark then some offset else findMark? data mark tries (offset + 1)
    | none => none

/-- The greatest offset that can be gone to: a file has at most `0xFFFFFFFF` blocks of 4096 bytes. -/
def maxOffset : Nat := 0xFFFFFFFF * 4096

/-- The directory of a large archive, whose own end record should lie at `nominal`, but not after
`bound`. -/
def largeDirectory? (data : Content) (nominal bound : Nat) : Option Directory := do
  let offset ← findMark? data largeEndMark (bound + 1 - nominal) nominal
  let disk ← number? data (offset + 16) 4
  let directoryDisk ← number? data (offset + 20) 4
  let count ← number? data (offset + 32) 8
  let start ← number? data (offset + 48) 8
  let shift := offset - nominal
  if disk = directoryDisk ∧ start + shift ≤ maxOffset then some ⟨shift, start + shift, count⟩
  else none

/-- The directory of an archive. -/
def directory? (data : Content) : Option Directory := do
  let offset ← endOffset? data
  let disk ← number? data (offset + 4) 2
  let directoryDisk ← number? data (offset + 6) 2
  let count ← number? data (offset + 8) 2
  let total ← number? data (offset + 10) 2
  let size ← number? data (offset + 12) 4
  let start ← number? data (offset + 16) 4
  let commentSize ← number? data (offset + 20) 2
  let _ ← slice? data (offset + endSize) commentSize
  let isTooSmall := [disk, directoryDisk, count, total].contains 0xFFFF ||
    [size, start].contains 0xFFFFFFFF
  let locator := data.size - (20 + endSize + commentSize)
  if !isTooSmall && disk ≠ directoryDisk then none
  else if 20 + endSize + commentSize ≤ data.size ∧
      number? data locator 4 = some largeLocatorMark then do
    let largeDisk ← number? data (locator + 4) 4
    let nominal ← number? data (locator + 8) 8
    if !isTooSmall && disk ≠ largeDisk then none
    else if offset < 60 then none
    else largeDirectory? data nominal (offset - 60)
  else if size + start ≤ offset then
    let shift := offset - size - start
    some ⟨shift, start + shift, count⟩
  else none

/-! ### Entries -/

/-- An entry as the directory lists it. -/
structure Entry where
  /-- The name. -/
  name : String
  /-- Whether the data can only be read with a password. -/
  isEncrypted : Bool
  /-- Whether a further field describes a cipher. -/
  hasCipher : Bool
  /-- How the data are packed. -/
  method : Nat
  /-- The check sum of the unpacked data. -/
  checkSum : Nat
  /-- The number of bytes of the packed data. -/
  packedSize : Nat
  /-- The offset of the header before the data. -/
  headerStart : Nat

/-- The packing of data that are stored as they are. -/
def storedMethod : Nat := 0

/-- The packing of deflated data. -/
def deflatedMethod : Nat := 8

/-- The packing that stands for a cipher, where a further field says how the data are packed. -/
def cipherMethod : Nat := 99

/-- What further fields of an entry can replace: numbers too large for their own fields, and the
packing of data under a cipher. -/
structure Extras where
  /-- The size of the unpacked data. -/
  size : Nat
  /-- The size of the packed data. -/
  packedSize : Nat
  /-- The offset of the header. -/
  headerStart : Nat
  /-- How the data are packed. -/
  method : Nat
  /-- Whether a field has described a cipher. -/
  hasCipher : Bool

/-- The value of a field whose number is in a further field. -/
def elsewhere : Nat := 0xFFFFFFFF

/-- Takes a number of eight bytes from the list if the field says that it is there. -/
def widened (field : Nat) (bytes : List UInt8) : Nat × List UInt8 :=
  if field = elsewhere ∧ 8 ≤ bytes.length then
    (ofLittleEndian (bytes.take 8), bytes.drop 8)
  else
    (field, bytes)

/-- The kind of a field with large numbers. -/
def largeNumbersKind : Nat := 1

/-- The kind of a field that describes a cipher. -/
def cipherKind : Nat := 0x9901

/-- How many bytes a description of a cipher has. -/
def cipherSize : Nat := 7

/-- Whether the numbers of a description of a cipher are in order: its version, the mark of who
defined it, and its strength. -/
def isCipher (version definer strength : Nat) : Bool :=
  (version == 1 || version == 2) && definer == 0x4541 && 1 ≤ strength && strength ≤ 3

/-- Applies the further fields in a list of bytes, unless one of them is in disorder. Fields end
where one is cut off. The budget counts bytes. -/
def Extras.apply? : Nat → List UInt8 → Extras → Option Extras
  | budget + 1, k₀ :: k₁ :: n₀ :: n₁ :: rest, extras =>
    let kind := ofLittleEndian [k₀, k₁]
    let count := ofLittleEndian [n₀, n₁]
    if kind = largeNumbersKind then
      let needed := 8 *
        [extras.size, extras.packedSize, extras.headerStart].countP (· == elsewhere)
      let (size, after) := widened extras.size rest
      let (packedSize, after) := widened extras.packedSize after
      let (headerStart, _) := widened extras.headerStart after
      let extras := { extras with size, packedSize, headerStart }
      if rest.length < needed then some extras
      else Extras.apply? budget (rest.drop (max count needed)) extras
    else if kind = cipherKind then
      if count ≠ cipherSize then none
      else
        match rest with
        | v₀ :: v₁ :: d₀ :: d₁ :: strength :: m₀ :: m₁ :: after =>
          if isCipher (ofLittleEndian [v₀, v₁]) (ofLittleEndian [d₀, d₁]) strength.toNat then
            -- The length of a description is passed over once more after it.
            Extras.apply? budget (after.drop count)
              { extras with method := ofLittleEndian [m₀, m₁], hasCipher := true }
          else none
        | _ => some extras
    else
      Extras.apply? budget (rest.drop count) extras
  | _, _, extras => some extras

/-- The mark of an entry in the directory. -/
def entryMark : Nat := 0x02014B50

/-- The size of an entry in the directory without its name, further fields and comment. -/
def entrySize : Nat := 46

/-- The bound of all numbers of eight bytes. -/
def numberBound : Nat := 0x10000000000000000

/-- Reads the entry at `offset` and gives the offset after it. -/
def entryAt? (data : Content) (shift offset : Nat) : Option (Entry × Nat) := do
  let mark ← number? data offset 4
  let flags ← number? data (offset + 8) 2
  let method ← number? data (offset + 10) 2
  let checkSum ← number? data (offset + 16) 4
  let packedSize ← number? data (offset + 20) 4
  let size ← number? data (offset + 24) 4
  let nameSize ← number? data (offset + 28) 2
  let extraSize ← number? data (offset + 30) 2
  let commentSize ← number? data (offset + 32) 2
  let headerStart ← number? data (offset + 42) 4
  let nameBytes ← slice? data (offset + entrySize) nameSize
  let extra ← slice? data (offset + entrySize + nameSize) extraSize
  let _ ← slice? data (offset + entrySize + nameSize + extraSize) commentSize
  let extras ← Extras.apply? extra.length extra ⟨size, packedSize, headerStart, method, false⟩
  if mark = entryMark ∧ (extras.method ≠ cipherMethod ∨ extras.hasCipher = true) ∧
      extras.headerStart + shift < numberBound then
    some (
      { name := if flags / 2048 % 2 = 1 then Utf8.decodeLossy nameBytes
          else CodePage.decode nameBytes
        isEncrypted := flags % 2 = 1
        hasCipher := extras.hasCipher
        method := extras.method
        checkSum
        packedSize := extras.packedSize
        headerStart := extras.headerStart + shift },
      offset + entrySize + nameSize + extraSize + commentSize)
  else none

/-- Reads `count` entries from `offset` on. -/
def entriesFrom? (data : Content) (shift : Nat) : Nat → Nat → Option (List Entry)
  | 0, _ => some []
  | count + 1, offset => do
    let (entry, next) ← entryAt? data shift offset
    let more ← entriesFrom? data shift count next
    return entry :: more

/-- The mark of the header before the data of an entry. -/
def headerMark : Nat := 0x04034B50

/-- The size of that header without the name and the further fields. -/
def headerSize : Nat := 30

/-- Where the data of an entry start, if they can be read at all. -/
def Entry.dataStart? (data : Content) (entry : Entry) : Option Nat := do
  let mark ← number? data entry.headerStart 4
  let nameSize ← number? data (entry.headerStart + 26) 2
  let extraSize ← number? data (entry.headerStart + 28) 2
  if mark = headerMark ∧ entry.isEncrypted = false ∧ entry.hasCipher = false ∧
      (entry.method = storedMethod ∨ entry.method = deflatedMethod) then
    some (entry.headerStart + headerSize + nameSize + extraSize)
  else none

/-- Whether an entry is a directory. -/
def Entry.isDirectory (entry : Entry) : Bool :=
  match entry.name.toList.getLast? with
  | some '/' | some '\\' => true
  | _ => false

/-- An entry together with the place of its data. -/
structure Located where
  /-- The entry. -/
  entry : Entry
  /-- The offset of its data. -/
  dataStart : Nat

/-- The entries listed in an archive, in the order of its directory. -/
def entries? (data : Content) : Option (List Entry) := do
  let directory ← directory? data
  entriesFrom? data directory.shift directory.count directory.start

/-- The entry with the place of its data. -/
def Entry.locate? (data : Content) (entry : Entry) : Option Located :=
  (entry.dataStart? data).map fun start => ⟨entry, start⟩

/-- The names of all entries that are no directories, if every entry can be opened. -/
def fileNames? (data : Content) : Option (List String) := do
  let entries ← entries? data
  let located ← entries.mapM (Entry.locate? data)
  return (located.filter (!·.entry.isDirectory)).map (·.entry.name)

/-! ### Data -/

/-- Why the data of an entry cannot be had. -/
inductive DataFault
  /-- They end too early. -/
  | truncated
  /-- They are not what deflating gives. -/
  | corrupt
  /-- They do not match their check sum. -/
  | badCheckSum
deriving DecidableEq

/-- The fault of an entry whose data cannot be unpacked. -/
def DataFault.ofInflate : Inflate.Fault → DataFault
  | .truncated => .truncated
  | .corrupt => .corrupt

/-- The data of an entry. -/
def Located.read (data : Content) (l : Located) : Except DataFault (List UInt8) := do
  let packed := (data.extract l.dataStart (l.dataStart + l.entry.packedSize)).toList
  let bytes ←
    if l.entry.method = deflatedMethod then (Inflate.unpack packed).mapError DataFault.ofInflate
    else pure packed
  if Crc32.ofBytes bytes = l.entry.checkSum then return bytes else throw .badCheckSum

end Archive
end ClasspathAudit
