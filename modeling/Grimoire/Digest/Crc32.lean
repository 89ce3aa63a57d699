import Grimoire.Text.Utf8

/-!
# CRC-32

The check value that archives keep for each of their files: the remainder of the bytes as a polynomial
over two elements.
-/

namespace Grimoire.Crc32

/-- Divides eight bits of the remainder out. -/
def reduce (r : UInt32) : UInt32 :=
  (List.range 8).foldl (fun r _ => if r &&& 1 = 1 then (r >>> 1) ^^^ 0xEDB88320 else r >>> 1) r

/-- The remainders of single bytes. -/
def table : Array UInt32 := ((List.range 256).map fun n => reduce n.toUInt32).toArray

/-- The check value of bytes. -/
def checksum (bytes : Bytes) : UInt32 :=
  let step (r : UInt32) (b : UInt8) : UInt32 :=
    table.getD ((r ^^^ b.toUInt32) &&& 0xFF).toNat 0 ^^^ (r >>> 8)
  ~~~(bytes.foldl step 0xFFFFFFFF)

end Grimoire.Crc32
