/-!
# Cyclic redundancy check of 64 bits

The polynomial of ECMA-182, used from the low end of each byte.
-/

namespace SqlDump.Codec

/-- Divides by the polynomial, the low bit of each byte being the first. -/
def crc64Step (crc : UInt64) : UInt64 :=
  if crc &&& 1 == 1 then (crc >>> 1) ^^^ 0xC96C5795D7870F42 else crc >>> 1

/-- Takes one byte into the check. -/
def crc64Byte (crc : UInt64) (byte : UInt8) : UInt64 := Nat.repeat crc64Step 8 (crc ^^^ byte.toUInt64)

/-- The check of some bytes. -/
def crc64 (data : ByteArray) : UInt64 :=
  data.foldl crc64Byte 0xFFFFFFFFFFFFFFFF 0 data.size ^^^ 0xFFFFFFFFFFFFFFFF

end SqlDump.Codec
