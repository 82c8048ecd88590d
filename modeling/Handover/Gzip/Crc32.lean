import Handover.Text.Hex

/-!
# Checksums

The cyclic checksum of thirty-two bits over the reflected polynomial `0xedb88320`.
-/

namespace Handover.Gzip

/-- Shifts a number of bits out of a checksum. -/
def shiftedOut : Nat → UInt32 → UInt32
  | 0, c => c
  | bits + 1, c =>
    shiftedOut bits (if c &&& 1 = 1 then (c >>> 1) ^^^ 0xedb88320 else c >>> 1)

/-- The checksum of bytes. -/
def crc32 (bs : Bytes) : UInt32 :=
  ~~~(bs.foldl (fun c b => shiftedOut 8 (c ^^^ b.toUInt32)) 0xffffffff)

end Handover.Gzip
