/-!
# Checksums of Archive Members

The cyclic redundancy check CRC-32, bit by bit: the remainder of the bytes as a
polynomial over two elements, reflected, with all bits inverted before and
after.

## Main definitions

* `crc32`: The checksum of bytes.
-/

namespace ArchiveCensus

namespace Archive

/-- One bit of the division. -/
def crcBit (r : UInt32) : UInt32 :=
  if r &&& 1 = 1 then (r >>> 1) ^^^ 0xEDB88320 else r >>> 1

/-- One byte of the division. -/
def crcByte (r : UInt32) (b : UInt8) : UInt32 :=
  (List.range 8).foldl (fun r _ => crcBit r) (r ^^^ b.toUInt32)

/-- The checksum of bytes. -/
def crc32 (bytes : ByteArray) : UInt32 :=
  (bytes.foldl crcByte 0xFFFFFFFF) ^^^ 0xFFFFFFFF

end Archive

end ArchiveCensus
