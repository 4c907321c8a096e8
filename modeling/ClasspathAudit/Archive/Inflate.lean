/-
# Unpacking deflated data

Deflated data are a stream of bits: blocks of plain bytes, and blocks of symbols in canonical prefix
codes that stand for bytes and for repetitions of what came before. Every symbol takes at least one
bit and every block at least three, so the number of bits bounds all loops.
-/
namespace ClasspathAudit
namespace Inflate

/-! ### Bits -/

/-- A stream of bits: whole bytes still to come, and the bits left of the last one. -/
structure BitStream where
  /-- The bytes still to come. -/
  bytes : List UInt8
  /-- The bits left of the last byte, the next one lowest. -/
  buffer : Nat
  /-- How many bits are left of it. -/
  count : Nat

/-- Why data cannot be unpacked. -/
inductive Fault
  /-- They end before their last block does. -/
  | truncated
  /-- They mean nothing. -/
  | corrupt
deriving DecidableEq

/-- A reader of bits; it fails where the stream ends or means nothing. -/
abbrev Bits := StateT BitStream (Except Fault)

/-- The next bit. -/
def bit : Bits Nat := fun s =>
  match s.count with
  | n + 1 => .ok (s.buffer % 2, ⟨s.bytes, s.buffer / 2, n⟩)
  | 0 =>
    match s.bytes with
    | b :: rest => .ok (b.toNat % 2, ⟨rest, b.toNat / 2, 7⟩)
    | [] => .error .truncated

/-- The number in the next `count` bits, the lowest bit first. -/
def bits : Nat → Bits Nat
  | 0 => return 0
  | count + 1 => do
    let low ← bit
    let high ← bits count
    return low + 2 * high

/-- Passes over the bits left of the last byte. -/
def align : Bits Unit := fun s => .ok ((), ⟨s.bytes, 0, 0⟩)

/-- Refuses the stream. -/
def refuse {α : Type} : Bits α := fun _ => .error .corrupt

/-- The next `count` bytes, where no bits are left of the last one. -/
def plainBytes (count : Nat) : Bits (List UInt8) := fun s =>
  let found := s.bytes.take count
  if found.length < count then .error .truncated else .ok (found, ⟨s.bytes.drop count, 0, 0⟩)

/-! ### Prefix codes -/

/-- A canonical prefix code. -/
structure Code where
  /-- How many symbols have codes of one bit, of two bits, and so on. -/
  counts : List Nat
  /-- The symbols in the order of their codes. -/
  symbols : Array Nat

/-- The number of bits in the longest codes. -/
def maxLength : Nat := 15

/-- The code in which each symbol has a code of the given length, and none if that is zero. -/
def Code.ofLengths (lengths : List Nat) : Code where
  counts := (List.range maxLength).map fun n => lengths.countP (· == n + 1)
  symbols := ((List.range maxLength).flatMap fun n =>
    lengths.zipIdx.filterMap fun (length, symbol) =>
      if length = n + 1 then some symbol else none).toArray

/-- How many code words of the greatest length a code leaves room for, if it has not used up more
than there are. -/
def roomLeft? (counts : List Nat) : Option Nat :=
  counts.foldlM (fun room count => if count ≤ 2 * room then some (2 * room - count) else none) 1

/-- Whether a code leaves no room. -/
def Code.isComplete (code : Code) : Bool :=
  roomLeft? code.counts == some 0

/-- Whether a code can be used for data: it leaves no room, or it is empty, or its only symbol takes
one bit. -/
def Code.isUsable (code : Code) : Bool :=
  code.isComplete || code.symbols.isEmpty || (code.symbols.size == 1 && code.counts.head? == some 1)

/-- Reads a symbol. At each length the codes are the numbers from `first` on, and belong to the
symbols from `index` on; `code` holds the bits so far. A code that leaves room is given up as soon
as no symbols remain. -/
def symbolFrom (symbols : Array Nat) : List Nat → Nat → Nat → Nat → Bits Nat
  | [], _, _, _ => refuse
  | count :: counts, code, first, index => do
    let code := 2 * code + (← bit)
    let first := 2 * first
    if code < first + count then
      match symbols[index + (code - first)]? with
      | some symbol => return symbol
      | none => refuse
    else if symbols.size ≤ index + count then refuse
    else
      symbolFrom symbols counts code (first + count) (index + count)

/-- Reads a symbol. -/
def Code.symbol (code : Code) : Bits Nat :=
  symbolFrom code.symbols code.counts 0 0 0

/-! ### Symbols for repetitions -/

/-- The least length of each symbol for a length, and the number of further bits. -/
def lengthBases : Array (Nat × Nat) :=
  #[(3, 0), (4, 0), (5, 0), (6, 0), (7, 0), (8, 0), (9, 0), (10, 0), (11, 1), (13, 1), (15, 1),
    (17, 1), (19, 2), (23, 2), (27, 2), (31, 2), (35, 3), (43, 3), (51, 3), (59, 3), (67, 4),
    (83, 4), (99, 4), (115, 4), (131, 5), (163, 5), (195, 5), (227, 5), (258, 0)]

/-- The least distance of each symbol for a distance, and the number of further bits. -/
def distanceBases : Array (Nat × Nat) :=
  #[(1, 0), (2, 0), (3, 0), (4, 0), (5, 1), (7, 1), (9, 2), (13, 2), (17, 3), (25, 3), (33, 4),
    (49, 4), (65, 5), (97, 5), (129, 6), (193, 6), (257, 7), (385, 7), (513, 8), (769, 8),
    (1025, 9), (1537, 9), (2049, 10), (3073, 10), (4097, 11), (6145, 11), (8193, 12), (12289, 12),
    (16385, 13), (24577, 13)]

/-- The number that a symbol and the bits after it stand for. -/
def extended (bases : Array (Nat × Nat)) (symbol : Nat) : Bits Nat := do
  match bases[symbol]? with
  | some (base, extra) => do
    let more ← bits extra
    return base + more
  | none => refuse

/-- Repeats `length` bytes from `distance` bytes back. -/
def repeated (distance : Nat) : Nat → Array UInt8 → Array UInt8
  | 0, out => out
  | length + 1, out => repeated distance length (out.push (out.getD (out.size - distance) 0))

/-! ### Blocks -/

/-- The symbol that ends a block. -/
def endOfBlock : Nat := 256

/-- Unpacks symbols up to the end of their block. Nothing can be repeated from before the first
byte. -/
def unpackSymbols (literals distances : Code) : Nat → Array UInt8 → Bits (Array UInt8)
  | 0, _ => refuse
  | budget + 1, out => do
    let symbol ← literals.symbol
    if symbol < endOfBlock then
      unpackSymbols literals distances budget (out.push symbol.toUInt8)
    else if symbol = endOfBlock then
      return out
    else do
      let length ← extended lengthBases (symbol - endOfBlock - 1)
      let distanceSymbol ← distances.symbol
      let distance ← extended distanceBases distanceSymbol
      if distance ≤ out.size then
        unpackSymbols literals distances budget (repeated distance length out)
      else refuse

/-- Unpacks a block of plain bytes, which starts at a whole byte. -/
def unpackPlain (out : Array UInt8) : Bits (Array UInt8) := do
  align
  let length ← bits 16
  let check ← bits 16
  if length + check ≠ 0xFFFF then refuse
  else do
    let found ← plainBytes length
    return out ++ found.toArray

/-- The lengths of the fixed code for literals. -/
def fixedLiterals : Code :=
  .ofLengths (List.replicate 144 8 ++ List.replicate 112 9 ++ List.replicate 24 7 ++
    List.replicate 8 8)

/-- The fixed code for distances. -/
def fixedDistances : Code :=
  .ofLengths (List.replicate 32 5)

/-- The order in which the lengths of the code for lengths are given. -/
def lengthOrder : List Nat :=
  [16, 17, 18, 0, 8, 7, 9, 6, 10, 5, 11, 4, 12, 3, 13, 2, 14, 1, 15]

/-- Reads code lengths until there are `total`; some symbols stand for repetitions. The lengths so
far come last first. -/
def readLengths (code : Code) (total : Nat) : Nat → List Nat → Bits (List Nat)
  | 0, _ => refuse
  | budget + 1, found => do
    if found.length = total then return found.reverse
    else if total < found.length then refuse
    else do
      let symbol ← code.symbol
      if symbol < 16 then
        readLengths code total budget (symbol :: found)
      else if symbol = 16 then do
        let times ← bits 2
        match found with
        | last :: _ => readLengths code total budget (List.replicate (times + 3) last ++ found)
        | [] => refuse
      else if symbol = 17 then do
        let times ← bits 3
        readLengths code total budget (List.replicate (times + 3) 0 ++ found)
      else do
        let times ← bits 7
        readLengths code total budget (List.replicate (times + 11) 0 ++ found)

/-- Reads the codes of a block that brings its own, one for literals and lengths, with which the
block has to be able to end, and one for distances. -/
def readCodes : Bits (Code × Code) := do
  let literalCount := (← bits 5) + 257
  let distanceCount := (← bits 5) + 1
  let givenCount := (← bits 4) + 4
  if literalCount > 286 || distanceCount > 30 then refuse
  else do
    let given ← (List.range givenCount).mapM fun _ => bits 3
    let assigned := lengthOrder.zip given
    let lengthCode := Code.ofLengths ((List.range 19).map fun n => (assigned.lookup n).getD 0)
    if !lengthCode.isComplete then refuse
    else do
      let total := literalCount + distanceCount
      let lengths ← readLengths lengthCode total (total + 1) []
      let literals := Code.ofLengths (lengths.take literalCount)
      let distances := Code.ofLengths (lengths.drop literalCount)
      if lengths.getD endOfBlock 0 ≠ 0 && literals.isUsable && distances.isUsable then
        return (literals, distances)
      else refuse

/-- Unpacks blocks up to the last one. -/
def unpackBlocks : Nat → Array UInt8 → Bits (Array UInt8)
  | 0, _ => refuse
  | budget + 1, out => do
    let isLast ← bit
    let kind ← bits 2
    let out ← match kind with
      | 0 => unpackPlain out
      | 1 => unpackSymbols fixedLiterals fixedDistances (budget + 1) out
      | 2 => do
        let (literals, distances) ← readCodes
        unpackSymbols literals distances (budget + 1) out
      | _ => refuse
    if isLast = 1 then return out else unpackBlocks budget out

/-- The bytes that deflated data unpack to. What follows the last block is of no account. -/
def unpack (bytes : List UInt8) : Except Fault (List UInt8) :=
  ((unpackBlocks (8 * bytes.length + 1) #[]).run ⟨bytes, 0, 0⟩).map fun (out, _) => out.toList

end Inflate
end ClasspathAudit
