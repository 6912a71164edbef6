import Mavlink.Binary
import Mavlink.Text.Utf8
import Mavlink.Wire.Number
import Mavlink.Wire.Payload

/-!
# Reading payloads

Reading past the end gives zeros: the bytes that truncation removed, and the
extension fields that an older sender does not know.
-/

namespace Mavlink

/-- A payload being read: the bytes that are left. -/
structure PayloadReader where
  rest : Bytes
  deriving DecidableEq

namespace PayloadReader

/-- Starts reading a payload of at most `limit` bytes. -/
def start (p : Payload) (limit : Nat) : Except DecodeError PayloadReader :=
  if limit < p.size then .error (.invalidPayloadLength p.id p.size limit)
  else .ok ⟨p.bytes⟩

/-- Passes over bytes. -/
def skip (r : PayloadReader) (size : Nat) : PayloadReader := ⟨r.rest.drop size⟩

/-- The word in the next `size` bytes.  The bytes that are missing are its highest
and count as zeros. -/
def word (r : PayloadReader) (size : Nat) : Nat := Bytes.ofLittle (r.rest.take size)

/-- The signed integer in the next `size` bytes. -/
def int (r : PayloadReader) (size : Nat) : Int := intOfWord size (r.word size)

/-- The number in the next 32 bits. -/
def single (r : PayloadReader) : Binary32 := ⟨UInt32.ofNat (r.word 4)⟩

/-- The number in the next 64 bits. -/
def double (r : PayloadReader) : Binary64 := ⟨UInt64.ofNat (r.word 8)⟩

/-- The text in the next `len` bytes, up to the first zero. -/
def text (r : PayloadReader) (len : Nat) : String :=
  Text.decodeLossy ((r.rest.take len).takeWhile (· ≠ 0))

end PayloadReader
end Mavlink
