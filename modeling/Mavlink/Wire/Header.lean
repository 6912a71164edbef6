import Mavlink.Wire.Version

/-!
# Frame headers

A header tells how long its frame is, so it is read before anything else.  Only
one incompatibility flag is understood, the one that says that a signature
follows; a frame with any other cannot be read.
-/

namespace Mavlink

/-- The header of a frame. -/
structure Header where
  version : Version
  payloadLength : UInt8
  /-- Always zero in the first version. -/
  incompatFlags : UInt8
  /-- Always zero in the first version. -/
  compatFlags : UInt8
  sequence : UInt8
  system : UInt8
  component : UInt8
  messageId : MessageId
  deriving DecidableEq

namespace Header

/-- The flag of a signed frame. -/
def signedFlag : UInt8 := 0x01

/-- The bytes of a checksum. -/
def checksumSize : Nat := 2

/-- The bytes of a signature. -/
def signatureSize : Nat := 13

/-- Whether a signature follows the frame. -/
def isSigned (h : Header) : Bool :=
  h.version = .v2 && h.incompatFlags &&& signedFlag ≠ 0

/-- The bytes of the header. -/
def size (h : Header) : Nat := h.version.headerSize

/-- Where the payload ends. -/
def payloadEnd (h : Header) : Nat := h.size + h.payloadLength.toNat

/-- The bytes of the whole frame. -/
def frameSize (h : Header) : Nat :=
  h.payloadEnd + checksumSize + if h.isSigned then signatureSize else 0

/-- Reads a header at the beginning of bytes. -/
def decode (bytes : Bytes) : Except DecodeError Header :=
  match bytes with
  | [] => .error (.truncated 1 0)
  | marker :: _ =>
    match Version.ofMarker? marker, bytes with
    | none, _ => .error (.invalidMarker marker)
    | some .v1, _ :: length :: sequence :: system :: component :: id :: _ =>
      .ok ⟨.v1, length, 0, 0, sequence, system, component, id.toNat⟩
    | some .v2, _ :: length :: incompat :: compat :: sequence :: system :: component
        :: low :: middle :: high :: _ =>
      if incompat &&& ~~~ signedFlag ≠ 0 then .error (.incompatibleFlags incompat)
      else .ok ⟨.v2, length, incompat, compat, sequence, system, component,
        Bytes.ofLittle [low, middle, high]⟩
    | some version, _ => .error (.truncated version.headerSize bytes.length)

/-- The bytes of a header. -/
def toBytes (h : Header) : Bytes :=
  match h.version with
  | .v1 => [Version.v1.marker, h.payloadLength, h.sequence, h.system, h.component,
      UInt8.ofNat h.messageId]
  | .v2 => [Version.v2.marker, h.payloadLength, h.incompatFlags, h.compatFlags, h.sequence,
      h.system, h.component] ++ Bytes.little 3 h.messageId

@[simp] theorem length_toBytes (h : Header) : h.toBytes.length = h.size := by
  unfold toBytes size
  cases h.version <;> simp [Version.headerSize]

end Header
end Mavlink
