import Mavlink.Binary
import Mavlink.Text.Utf8
import Mavlink.Wire.Number
import Mavlink.Wire.Payload

/-!
# Writing payloads

A payload is written field by field in wire order.  Base fields come first, so
the first version of the protocol, which does not know extension fields, gets the
beginning of what the second gets.
-/

namespace Mavlink

/-- A payload in the making. -/
structure PayloadWriter where
  id : MessageId
  /-- The bytes of the base fields. -/
  baseLength : Nat
  /-- What has been written. -/
  bytes : Bytes
  deriving DecidableEq

namespace PayloadWriter

/-- Nothing written yet. -/
def start (id : MessageId) (baseLength : Nat) : PayloadWriter := ⟨id, baseLength, []⟩

/-- Writes bytes as they are. -/
def putBytes (w : PayloadWriter) (bytes : Bytes) : PayloadWriter :=
  { w with bytes := w.bytes ++ bytes }

/-- Writes a word of `size` bytes. -/
def putWord (w : PayloadWriter) (size word : Nat) : PayloadWriter :=
  w.putBytes (Bytes.little size word)

/-- Writes an integer of a type. -/
def putInt (w : PayloadWriter) (type : NumberType) (n : Int) : PayloadWriter :=
  w.putWord type.size (wordOfInt type.size n)

/-- Writes a number of 32 bits. -/
def putSingle (w : PayloadWriter) (x : Binary32) : PayloadWriter := w.putWord 4 x.bits.toNat

/-- Writes a number of 64 bits. -/
def putDouble (w : PayloadWriter) (x : Binary64) : PayloadWriter := w.putWord 8 x.bits.toNat

/-- Writes a text into a field of `len` bytes, zeros after it.  A text that fills
the field has no zero after it; a longer one is refused. -/
def putText (w : PayloadWriter) (message field : String) (text : String) (len : Nat) :
    Except EncodeError PayloadWriter :=
  let bytes := Text.utf8 text
  if len < bytes.length then .error (.arrayLength message field len bytes.length)
  else .ok (w.putBytes (bytes.extend len))

/-- The payload of what was written, for a version of the protocol. -/
def finish (w : PayloadWriter) : Version → Except EncodeError Payload
  | .v1 =>
    if Version.v1.maxMessageId < w.id then .error (.messageIdTooLarge w.id)
    else .ok (.ofBytes w.id (w.bytes.take w.baseLength) .v1)
  | .v2 => .ok (.ofBytes w.id w.bytes .v2)

end PayloadWriter
end Mavlink
