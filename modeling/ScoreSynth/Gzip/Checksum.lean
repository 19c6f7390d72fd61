/-!
# Cyclic redundancy check

The checksum of thirty-two bits that guards compressed data: the remainder of the
data, read as a polynomial with its lowest bits first, with all bits inverted
before and after.
-/

namespace ScoreSynth.Gzip

/-- The generator polynomial, lowest bits first. -/
def generator : UInt32 := 0xEDB88320

/-- Divide one bit out. -/
def divideBit (remainder : UInt32) : UInt32 :=
  if remainder &&& 1 = 0 then remainder >>> 1 else (remainder >>> 1) ^^^ generator

/-- Take one more octet into the remainder. -/
def divideOctet (remainder : UInt32) (octet : UInt8) : UInt32 :=
  Nat.repeat divideBit 8 (remainder ^^^ octet.toUInt32)

/-- The checksum of some octets. -/
def checksum (octets : List UInt8) : UInt32 :=
  octets.foldl divideOctet 0xFFFFFFFF ^^^ 0xFFFFFFFF

/-- The check value by which this checksum is known. -/
example :
    checksum [0x31, 0x32, 0x33, 0x34, 0x35, 0x36, 0x37, 0x38, 0x39] = 0xCBF43926 := by
  decide +kernel

end ScoreSynth.Gzip
