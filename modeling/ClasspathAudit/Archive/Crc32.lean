/-
# Check sums

The cyclic redundancy check of 32 bits by which archives recognise damaged data.
-/
namespace ClasspathAudit
namespace Crc32

/-- One step of the division: the remainder moved down by a bit, less the polynomial if the bit
that fell out was set. -/
def shift (c : UInt32) : UInt32 :=
  if c &&& 1 = 1 then (0xEDB88320 : UInt32) ^^^ (c >>> 1) else c >>> 1

/-- Eight steps of the division. -/
def shiftByte (c : UInt32) : UInt32 :=
  shift (shift (shift (shift (shift (shift (shift (shift c)))))))

/-- The remainders of all bytes. -/
def table : Array UInt32 :=
  ((List.range 256).map fun n => shiftByte n.toUInt32).toArray

/-- The remainder after a further byte. -/
def step (c : UInt32) (b : UInt8) : UInt32 :=
  table.getD ((c ^^^ b.toUInt32) &&& 0xFF).toNat 0 ^^^ (c >>> 8)

/-- The check sum of bytes. -/
def ofBytes (bytes : List UInt8) : Nat :=
  (bytes.foldl step 0xFFFFFFFF ^^^ 0xFFFFFFFF).toNat

end Crc32
end ClasspathAudit
