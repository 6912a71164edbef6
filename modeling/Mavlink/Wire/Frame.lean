import Mavlink.Signing.Signer
import Mavlink.Wire.Address
import Mavlink.Wire.Checksum
import Mavlink.Wire.Header
import Mavlink.Wire.Payload

/-!
# Frames

A frame is a header, a payload, a checksum and perhaps a signature.  `Frame.build`
makes one of a payload, `Frame.decode` reads one at the beginning of bytes and
ignores what follows it.

Decoding needs to know two things about a message, the fingerprint of its layout
and its greatest length: that is a `Lookup`.
-/

namespace Mavlink

/-- What must be known of messages to read frames. -/
structure Lookup where
  /-- The fingerprint of a known message. -/
  fingerprint : MessageId → Option UInt8
  /-- The greatest length of the payload, if it is limited. -/
  maxLength : MessageId → Option Nat

namespace Lookup

/-- The fingerprints of messages, lengths not limited. -/
def ofFingerprints (d : Dictionary MessageId UInt8) : Lookup := ⟨d.find?, fun _ => none⟩

end Lookup

/-- A frame. -/
structure Frame where
  header : Header
  payload : Payload
  checksum : UInt16
  signature : Option Signature
  deriving DecidableEq

/-- What a header says beside what follows from the payload. -/
structure Routing where
  sequence : UInt8
  sender : Address
  compatFlags : UInt8 := 0

namespace Frame

/-- The device that sent the frame. -/
def sender (f : Frame) : Address := ⟨f.header.system, f.header.component⟩

/-- The number of the message. -/
def messageId (f : Frame) : MessageId := f.header.messageId

/-- The bytes of the frame. -/
def size (f : Frame) : Nat := f.header.frameSize

/-- The bytes that a signature seals. -/
def signedBytes (f : Frame) : Bytes :=
  f.header.toBytes ++ f.payload.bytes ++ Bytes.little 2 f.checksum.toNat

/-- The frame as it is sent. -/
def toBytes (f : Frame) : Bytes :=
  f.signedBytes ++ (f.signature.map Signature.toBytes).getD []

/-- The checksum of a header and a payload. -/
def checksumOf (h : Header) (payload : Bytes) (fingerprint : UInt8) : UInt16 :=
  Wire.checksum (h.toBytes.drop 1) payload fingerprint

/-- Whether the checksum is the one for a fingerprint. -/
def checksumMatches (f : Frame) (fingerprint : UInt8) : Bool :=
  checksumOf f.header f.payload.bytes fingerprint = f.checksum

/-- The frame of a payload.  The timestamp is used only if the signer signs. -/
def build (routing : Routing) (payload : Payload) (fingerprint : UInt8)
    (signer : Option Signer) (timestamp : Timestamp) : Except EncodeError Frame :=
  if payload.version.maxMessageId < payload.id then .error (.messageIdTooLarge payload.id)
  else if Payload.maxSize < payload.size then
    .error (.payloadTooLarge payload.size Payload.maxSize)
  else
    let signer := signer.filter (·.shouldSign payload.version payload.id)
    let header : Header := {
      version := payload.version
      payloadLength := UInt8.ofNat payload.size
      incompatFlags := if signer.isSome then Header.signedFlag else 0
      compatFlags := match payload.version with
        | .v1 => 0
        | .v2 => routing.compatFlags
      sequence := routing.sequence
      system := routing.sender.system
      component := routing.sender.component
      messageId := payload.id }
    let unsigned : Frame :=
      ⟨header, payload, checksumOf header payload.bytes fingerprint, none⟩
    .ok { unsigned with
      signature := signer.map fun s => s.sign unsigned.signedBytes timestamp }

/-- Reads the frame at the beginning of bytes.  A signature is read, not verified. -/
def decode (bytes : Bytes) (lookup : Lookup) : Except DecodeError Frame := do
  let h ← Header.decode bytes
  if bytes.length < h.frameSize then .error (.truncated h.frameSize bytes.length)
  else
    match lookup.fingerprint h.messageId with
    | none => .error (.unknownMessage h.messageId (bytes.take h.frameSize))
    | some fingerprint =>
      match (lookup.maxLength h.messageId).filter (· < h.payloadLength.toNat) with
      | some limit =>
        .error (.invalidPayloadLength h.messageId h.payloadLength.toNat limit)
      | none =>
        let payload := (bytes.drop h.size).take h.payloadLength.toNat
        let tail := bytes.drop h.payloadEnd
        let received := UInt16.ofNat (Bytes.ofLittle (tail.take 2))
        let expected := Wire.checksum ((bytes.take h.size).drop 1) payload fingerprint
        if expected ≠ received then .error (.crcMismatch h.messageId expected received)
        else .ok {
          header := h
          payload := ⟨h.messageId, h.version, payload⟩
          checksum := received
          signature := if h.isSigned then
              some (.ofBytes ((tail.drop Header.checksumSize).take Header.signatureSize))
            else none }

end Frame
end Mavlink
