/-!
# The checksum of compressed data

The 32-bit cyclic redundancy check with the reversed polynomial `0xedb88320`, one byte at a time from a table.
-/

namespace SvgPlot.Source

/-- One shift of the remainder. -/
def shiftChecksum (c : UInt32) : UInt32 :=
  if c &&& 1 == 1 then (c >>> 1) ^^^ 0xedb88320 else c >>> 1

/-- The remainders of the single bytes. -/
def checksumTable : Array UInt32 :=
  ((List.range 256).map fun n => Nat.repeat shiftChecksum 8 (UInt32.ofNat n)).toArray

def checksumStep (c : UInt32) (b : UInt8) : UInt32 :=
  (checksumTable[((c ^^^ b.toUInt32) &&& 0xff).toNat]?.getD 0) ^^^ (c >>> 8)

def checksum (bytes : List UInt8) : UInt32 := bytes.foldl checksumStep 0xffffffff ^^^ 0xffffffff

end SvgPlot.Source
