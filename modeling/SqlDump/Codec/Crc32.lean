/-!
# Cyclic redundancy checks of 32 bits

One polynomial is used from the low end of each byte, in gzip and xz, and from the high end, in
bzip2.
-/

namespace SqlDump.Codec

/-- Divides by the polynomial, the low bit of each byte being the first. -/
def crc32Step (crc : UInt32) : UInt32 :=
  if crc &&& 1 == 1 then (crc >>> 1) ^^^ 0xEDB88320 else crc >>> 1

/-- Takes one byte into a check from the low end. -/
def crc32Byte (crc : UInt32) (byte : UInt8) : UInt32 := Nat.repeat crc32Step 8 (crc ^^^ byte.toUInt32)

/-- The check of the bytes from `start` up to `stop`, from the low end. -/
def crc32 (data : ByteArray) (start stop : Nat) : UInt32 :=
  data.foldl crc32Byte 0xFFFFFFFF start stop ^^^ 0xFFFFFFFF

/-- Divides by the polynomial, the high bit of each byte being the first. -/
def highCrc32Step (crc : UInt32) : UInt32 :=
  if crc >>> 31 == 1 then (crc <<< 1) ^^^ 0x04C11DB7 else crc <<< 1

/-- Takes one byte into a check from the high end. -/
def highCrc32Byte (crc : UInt32) (byte : UInt8) : UInt32 :=
  Nat.repeat highCrc32Step 8 (crc ^^^ (byte.toUInt32 <<< 24))

end SqlDump.Codec
