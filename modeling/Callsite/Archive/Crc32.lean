/-!
# CRC-32

The checksum of archive entries, with the reversed polynomial `EDB88320`.
-/

namespace Callsite

/-- Eight rounds of division by the polynomial. -/
def crcByte (n : UInt32) : UInt32 :=
  (List.range 8).foldl (fun n _ => if n &&& 1 = 1 then (n >>> 1) ^^^ 0xEDB88320 else n >>> 1) n

def crcTable : Array UInt32 := (Array.range 256).map fun n => crcByte n.toUInt32

def crcStep (crc : UInt32) (b : UInt8) : UInt32 :=
  (crc >>> 8) ^^^ crcTable.getD ((crc ^^^ b.toUInt32) &&& 0xFF).toNat 0

def crc32 (bytes : List UInt8) : UInt32 := bytes.foldl crcStep 0xFFFFFFFF ^^^ 0xFFFFFFFF

end Callsite
