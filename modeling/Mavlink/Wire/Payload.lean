import Mavlink.Wire.Version

/-!
# Payloads

The payload of the second version is sent without the zeros at its end, except
that one byte always stays.  Whoever reads it puts the zeros back, so nothing is
lost; `extended` is that reading.  A payload of the first version is sent as it
is.
-/

namespace Mavlink

/-- The bytes of a message, ready to be framed. -/
structure Payload where
  id : MessageId
  version : Version
  /-- The bytes as they are sent. -/
  bytes : Bytes
  deriving DecidableEq

/-- The bytes without the zeros at the end. -/
def Bytes.withoutZeros (bytes : Bytes) : Bytes := (bytes.reverse.dropWhile (· = 0)).reverse

/-- The bytes without the zeros at the end, but never less than one byte of what
there was. -/
def Bytes.truncate (bytes : Bytes) : Bytes :=
  if bytes.withoutZeros = [] then bytes.take 1 else bytes.withoutZeros

namespace Payload

/-- The greatest size that a frame can carry. -/
def maxSize : Nat := 255

/-- The payload of the full bytes of a message. -/
def ofBytes (id : MessageId) (bytes : Bytes) : Version → Payload
  | .v1 => ⟨id, .v1, bytes⟩
  | .v2 => ⟨id, .v2, bytes.truncate⟩

/-- The count of bytes that are sent. -/
def size (p : Payload) : Nat := p.bytes.length

/-- The bytes with zeros up to a length. -/
def extended (p : Payload) (len : Nat) : Bytes := p.bytes.extend len

end Payload
end Mavlink
