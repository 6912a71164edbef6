import Mavlink.Bytes

/-!
# The checksum of a frame

A frame carries the reflected cyclic checksum of 16 bits with the polynomial
`x^16 + x^12 + x^5 + 1`, starting from all ones and without a final change.  It is
computed bit by bit: a shift of the register is linear over exclusive or, and a
byte enters the register by exclusive or, which is all that the detection of
damage rests on.

The last byte that enters is not sent.  It is the fingerprint of the layout of
the message, so that two ends with different layouts do not understand each other
by accident.
-/

namespace Mavlink.Wire

/-- The polynomial, least significant bit first. -/
def polynomial : BitVec 16 := 0x8408

/-- Shifts the register by one bit. -/
def shiftBit (r : BitVec 16) : BitVec 16 :=
  if r.getLsbD 0 then (r >>> 1) ^^^ polynomial else r >>> 1

/-- Shifts the register by eight bits. -/
def shiftByte (r : BitVec 16) : BitVec 16 :=
  shiftBit (shiftBit (shiftBit (shiftBit (shiftBit (shiftBit (shiftBit (shiftBit r)))))))

/-- A byte enters the register. -/
def absorb (r : BitVec 16) (b : UInt8) : BitVec 16 :=
  shiftByte (r ^^^ b.toBitVec.setWidth 16)

/-- Bytes enter the register in order. -/
def absorbAll (r : BitVec 16) (bytes : Bytes) : BitVec 16 := bytes.foldl absorb r

/-- The register before the first byte. -/
def seed : BitVec 16 := 0xFFFF

/-- The checksum of bytes. -/
def crc (bytes : Bytes) : UInt16 := ⟨absorbAll seed bytes⟩

/-- The check value that is published for this checksum. -/
example : crc [0x31, 0x32, 0x33, 0x34, 0x35, 0x36, 0x37, 0x38, 0x39] = 0x6F91 := by
  decide +kernel

/-- The checksum of a frame: the header without its marker, the payload, and the
fingerprint of the layout. -/
def checksum (header payload : Bytes) (fingerprint : UInt8) : UInt16 :=
  crc (header ++ payload ++ [fingerprint])

theorem absorbAll_append (r : BitVec 16) (a b : Bytes) :
    absorbAll r (a ++ b) = absorbAll (absorbAll r a) b := List.foldl_append

end Mavlink.Wire
