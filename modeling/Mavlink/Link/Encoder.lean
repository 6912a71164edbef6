import Mavlink.Link.Peer
import Mavlink.Table

/-!
# Sending frames

An encoder speaks for one device: it numbers the frames of the device, and signs
them if it has a signer.  What fails to become a frame takes no number and no
timestamp.

The clock from which timestamps are drawn is not part of the encoder, because
encoders that sign with one key share one clock.
-/

namespace Mavlink

/-- How messages of a type of their own are encoded and decoded. -/
structure MessageCodec (α : Type) where
  id : MessageId
  name : String
  fingerprint : UInt8
  baseLength : Nat
  maxLength : Nat
  encode : α → Version → Except EncodeError Payload
  decode : Payload → Except DecodeError α

/-- The message in a frame, if the frame holds a message of the type. -/
def MessageCodec.decodeFrame {α : Type} (c : MessageCodec α) (f : Frame) : Except DecodeError α :=
  if f.messageId = c.id then c.decode f.payload
  else .error (.unknownMessage f.messageId f.toBytes)

/-- A device that sends. -/
structure Encoder where
  version : Version
  sender : Address
  sequencer : Sequencer
  signer : Option Signer

namespace Encoder

/-- An encoder without a signer that numbers from a number. -/
def start (version : Version) (sender : Address) (sequence : UInt8) : Encoder :=
  ⟨version, sender, ⟨sequence⟩, none⟩

/-- The encoder of the first component of the first system. -/
def standard : Encoder := start .standard ⟨1, 1⟩ 0

end Encoder

/-- An encoder and the clock that it draws timestamps from. -/
structure Transmitter where
  encoder : Encoder
  clock : SigningClock

namespace Transmitter

/-- Frames a payload at a moment. -/
def sendPayload (t : Transmitter) (now : Timestamp) (payload : Payload) (fingerprint : UInt8) :
    Except EncodeError (Frame × Transmitter) := do
  if payload.version ≠ t.encoder.version then .error .versionMismatch
  else
    let (sequence, sequencer) := t.encoder.sequencer.advance
    let (timestamp, clock) := t.clock.next now
    let frame ← Frame.build ⟨sequence, t.encoder.sender, 0⟩ payload fingerprint
      t.encoder.signer timestamp
    return (frame, {
      encoder := { t.encoder with sequencer := sequencer }
      clock := if frame.signature.isSome then clock else t.clock })

/-- Frames a message of a type of its own. -/
def sendTyped {α : Type} (t : Transmitter) (now : Timestamp) (c : MessageCodec α) (message : α) :
    Except EncodeError (Frame × Transmitter) := do
  t.sendPayload now (← c.encode message t.encoder.version) c.fingerprint

/-- Frames a message whose fields are given by name. -/
def sendValue (t : Transmitter) (now : Timestamp) (table : Table) (v : MessageValue) :
    Except EncodeError (Frame × Transmitter) :=
  match table.messages.find? v.id with
  | none => .error (.unknownMessage v.id)
  | some m => do t.sendPayload now (← table.encode v t.encoder.version) m.fingerprint

end Transmitter
end Mavlink
