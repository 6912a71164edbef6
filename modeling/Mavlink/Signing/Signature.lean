import Mavlink.Signing.Sha256
import Mavlink.Signing.Timestamp
import Mavlink.Text.Utf8

/-!
# Signatures

A signature names the link it was made on and the time it was made at, and seals
both and the frame with the first six bytes of a keyed digest.
-/

namespace Mavlink

/-- A key of 32 bytes. -/
structure SecretKey where
  bytes : Bytes
  size : bytes.length = 32
  deriving DecidableEq

namespace SecretKey

/-- The key that begins with the bytes given; what is missing is zero, what is too
much is dropped. -/
def ofBytes (bytes : Bytes) : SecretKey :=
  ⟨Bytes.extend (bytes.take 32) 32, by rw [Bytes.length_extend, List.length_take]; omega⟩

/-- The key of the bytes of a text. -/
def ofText (text : String) : SecretKey := ofBytes (Text.utf8 text)

/-- What is shown of a key. -/
def shown (_ : SecretKey) : String := "SecretKey(***)"

end SecretKey

/-- The signature of a frame. -/
structure Signature where
  link : UInt8
  timestamp : Timestamp
  /-- The first six bytes of the digest. -/
  value : Word48
  deriving DecidableEq

namespace Signature

/-- The signature of bytes under a key. -/
def calculate (key : SecretKey) (signed : Bytes) (link : UInt8) (timestamp : Timestamp) :
    Signature :=
  ⟨link, timestamp,
    Word48.ofBytes (Signing.Sha256.digest (key.bytes ++ signed ++ link :: timestamp.toBytes))⟩

/-- The 13 bytes of a signature. -/
def toBytes (s : Signature) : Bytes := s.link :: s.timestamp.toBytes ++ s.value.toBytes

/-- The signature in 13 bytes; what is missing counts as zero. -/
def ofBytes (bytes : Bytes) : Signature :=
  ⟨bytes.headD 0, Word48.ofBytes (bytes.drop 1), Word48.ofBytes (bytes.drop 7)⟩

@[simp] theorem length_toBytes (s : Signature) : s.toBytes.length = 13 := by
  simp [toBytes, Word48.toBytes]

end Signature
end Mavlink
