import Mavlink.Link.Peer
import Mavlink.Signing.Verification

/-!
# Finding frames in a stream

Bytes arrive in pieces of any size and may be damaged.  The parser waits for a
marker and collects a candidate: the header, whatever payload the header
announces, the checksum, and the signature if there is one.  A candidate that
fails is rejected by giving up its first byte only; the bytes after it are read
again, so a frame that hides inside a damaged one is still found.

Bytes to be read again wait in `replay`.  A step either moves one byte from there
into the candidate or gives bytes up for good, which is why the replay ends
although a rejection refills it: `drain` is recursive on the pair of the bytes
held and the bytes waiting.
-/

namespace Mavlink

/-- What the parser reports. -/
inductive ParserEvent where
  /-- A verified frame of a known message. -/
  | frame (frame : Frame)
  /-- A rejected candidate. -/
  | error (error : DecodeError)
  /-- Frames of a sender that did not arrive. -/
  | packetLoss (peer : Address) (lost : Nat)
  deriving DecidableEq

/-- Counters. -/
structure ParserStats where
  frames : Nat := 0
  crcErrors : Nat := 0
  signatureErrors : Nat := 0
  unknownMessages : Nat := 0
  invalidHeaders : Nat := 0
  skippedBytes : Nat := 0
  lostPackets : Nat := 0
  droppedEvents : Nat := 0
  deriving DecidableEq, Inhabited

namespace ParserStats

/-- Counts a rejected candidate by what was wrong with it. -/
def countRejected (s : ParserStats) : DecodeError → ParserStats
  | .crcMismatch .. => { s with crcErrors := s.crcErrors + 1 }
  | .unknownMessage .. => { s with unknownMessages := s.unknownMessages + 1 }
  | .badSignature .. => { s with signatureErrors := s.signatureErrors + 1 }
  | _ => { s with invalidHeaders := s.invalidHeaders + 1 }

end ParserStats

/-- A link and a sender on it; the timestamps of its signatures must increase. -/
structure SigningStream where
  link : UInt8
  sender : Address
  deriving DecidableEq

namespace SigningStream

instance : Ord SigningStream := ⟨compareLex (compareOn link) (compareOn sender)⟩

instance : Std.TransOrd SigningStream :=
  inferInstanceAs (Std.TransCmp (compareLex (compareOn link) (compareOn sender)))

instance : Std.LawfulEqOrd SigningStream where
  eq_of_compare {a b} h := by
    obtain ⟨h1, h2⟩ : compare a.link b.link = .eq ∧ compare a.sender b.sender = .eq :=
      compareLex_eq_eq.1 h
    have h1 := Std.LawfulEqCmp.compare_eq_iff_eq.1 h1
    have h2 := Std.LawfulEqCmp.compare_eq_iff_eq.1 h2
    cases a; cases b; simp_all

end SigningStream

/-- The parts of a candidate in order. -/
inductive FramePart where
  | header
  | payload
  | trailer
  | signature
  deriving DecidableEq, Repr

/-- What the parser is waiting for. -/
inductive ParserStage where
  /-- A marker. -/
  | seek
  /-- The end of a part: as many bytes of the candidate as `goal`. -/
  | collect (part : FramePart) (goal : Nat)
  deriving DecidableEq, Repr

/-- How a parser is set up. -/
structure ParserSetup where
  lookup : Lookup
  signer : Option Signer := none
  trackSequences : Bool := true
  /-- The events that are kept if nobody takes them; at least one is. -/
  eventCapacity : Nat := 1024

/-- A parser. -/
structure Parser where
  setup : ParserSetup
  stage : ParserStage
  /-- The bytes of the candidate. -/
  buffer : Bytes
  /-- The bytes to be read again. -/
  replay : Bytes
  /-- The events not taken yet, oldest first. -/
  events : List ParserEvent
  sequences : SequenceTracker
  /-- The last timestamp accepted on each stream. -/
  timestamps : Dictionary SigningStream Timestamp
  stats : ParserStats

namespace Parser

/-- A parser that has read nothing. -/
def start (setup : ParserSetup) : Parser :=
  ⟨setup, .seek, [], [], [], .empty, ∅, {}⟩

/-- The bytes held that are not part of a frame yet. -/
def buffered (p : Parser) : Nat := p.buffer.length + p.replay.length

/-- Reports an event; the oldest ones give way if there is no room. -/
def emit (p : Parser) (event : ParserEvent) : Parser :=
  let excess := p.events.length + 1 - max p.setup.eventCapacity 1
  { p with
    events := p.events.drop excess ++ [event]
    stats := { p.stats with droppedEvents := p.stats.droppedEvents + excess } }

/-- Gives up the first byte of the candidate and reads the others again. -/
def reject (p : Parser) (error : DecodeError) : Parser :=
  { p with
    replay := p.buffer.drop 1 ++ p.replay
    buffer := []
    stage := .seek
    stats := { p.stats.countRejected error with
      skippedBytes := p.stats.skippedBytes + 1 } }.emit (.error error)

/-- Checks the signature of a frame.  Answers the timestamps after an accepted
frame; a timestamp that does not increase is a replay. -/
def verify (p : Parser) (frame : Frame) : Option (Dictionary SigningStream Timestamp) :=
  match p.setup.signer with
  | none => some p.timestamps
  | some signer =>
    if signer.accepts frame then
      match frame.signature with
      | none => some p.timestamps
      | some signature =>
        if signer.incoming = .proxy then some p.timestamps
        else
          let stream : SigningStream := ⟨signature.link, frame.sender⟩
          match p.timestamps.find? stream with
          | none => some (p.timestamps.insert stream signature.timestamp)
          | some last =>
            if signature.timestamp ≤ last then none
            else some (p.timestamps.insert stream signature.timestamp)
    else none

/-- Reports the frames that did not arrive before a frame. -/
def noteSequence (p : Parser) (frame : Frame) : Parser :=
  if p.setup.trackSequences then
    let (lost, sequences) := p.sequences.track frame.sender frame.header.sequence
    match lost with
    | none => { p with sequences := sequences }
    | some lost =>
      { p with
        sequences := sequences
        stats := { p.stats with lostPackets := p.stats.lostPackets + lost } }.emit
        (.packetLoss frame.sender lost)
  else p

/-- Reports a frame. -/
def deliver (p : Parser) (frame : Frame) : Parser :=
  { p with stats := { p.stats with frames := p.stats.frames + 1 } }.emit (.frame frame)

/-- Decides on a whole candidate. -/
def complete (p : Parser) : Parser :=
  match Frame.decode p.buffer p.setup.lookup with
  | .error error => p.reject error
  | .ok frame =>
    match p.verify frame with
    | none => p.reject (.badSignature frame.messageId)
    | some timestamps =>
      ({ p with
        buffer := []
        stage := .seek
        timestamps := timestamps }.noteSequence frame).deliver frame

/-- The greatest length of the payload of a known message, if the header announces more. -/
def exceeded (p : Parser) (h : Header) : Option Nat :=
  if (p.setup.lookup.fingerprint h.messageId).isSome then
    (p.setup.lookup.maxLength h.messageId).filter (· < h.payloadLength.toNat)
  else none

/-- Goes on after the part of the candidate that ends at `goal`. -/
def advance (p : Parser) (part : FramePart) (goal : Nat) : Parser :=
  match part with
  | .header =>
    match Header.decode p.buffer with
    | .error error => p.reject error
    | .ok h =>
      match p.exceeded h with
      | some limit =>
        p.reject (.invalidPayloadLength h.messageId h.payloadLength.toNat limit)
      | none =>
        { p with stage :=
            if h.payloadLength = 0 then .collect .trailer (goal + Header.checksumSize)
            else .collect .payload (goal + h.payloadLength.toNat) }
  | .payload => { p with stage := .collect .trailer (goal + Header.checksumSize) }
  | .trailer =>
    match Header.decode p.buffer with
    | .ok h =>
      if h.isSigned then { p with stage := .collect .signature (goal + Header.signatureSize) }
      else p.complete
    | .error _ => p.complete
  | .signature => p.complete

/-- Adds a byte to the candidate. -/
def grow (p : Parser) (byte : UInt8) : Parser := { p with buffer := p.buffer ++ [byte] }

/-- Reads one byte. -/
def step (p : Parser) (byte : UInt8) : Parser :=
  match p.stage with
  | .seek =>
    match Version.ofMarker? byte with
    | some version =>
      { p with buffer := [byte], stage := .collect .header version.headerSize }
    | none => { p with stats := { p.stats with skippedBytes := p.stats.skippedBytes + 1 } }
  | .collect part goal =>
    if (p.grow byte).buffer.length = goal then (p.grow byte).advance part goal
    else p.grow byte

/-! ## The replay ends -/

@[simp] theorem buffered_emit (p : Parser) (e : ParserEvent) :
    (p.emit e).buffered = p.buffered := rfl

@[simp] theorem replay_emit (p : Parser) (e : ParserEvent) : (p.emit e).replay = p.replay := rfl

theorem buffered_reject_lt (p : Parser) (error : DecodeError) (h : p.buffer ≠ []) :
    (p.reject error).buffered < p.buffered := by
  have := List.length_pos_iff.2 h
  rw [reject, buffered_emit]
  simp [buffered]
  omega

@[simp] theorem buffered_noteSequence (p : Parser) (f : Frame) :
    (p.noteSequence f).buffered = p.buffered := by
  unfold noteSequence
  split
  · split
    split <;> rfl
  · rfl

@[simp] theorem buffered_deliver (p : Parser) (f : Frame) :
    (p.deliver f).buffered = p.buffered := rfl

theorem buffered_complete_lt (p : Parser) (h : p.buffer ≠ []) :
    p.complete.buffered < p.buffered := by
  have := List.length_pos_iff.2 h
  unfold complete
  split
  · exact buffered_reject_lt p _ h
  · split
    · exact buffered_reject_lt p _ h
    · rw [buffered_deliver, buffered_noteSequence]
      simp [buffered]
      omega

theorem buffered_grow (p : Parser) (byte : UInt8) : (p.grow byte).buffered = p.buffered + 1 := by
  simp [buffered, grow]
  omega

/-- After a part of the candidate either bytes were given up or delivered, or
nothing moved. -/
theorem advance_moves (p : Parser) (part : FramePart) (goal : Nat) (h : p.buffer ≠ []) :
    (p.advance part goal).buffered < p.buffered ∨
      (p.advance part goal).buffered = p.buffered ∧ (p.advance part goal).replay = p.replay := by
  unfold advance
  split
  · split
    · exact .inl (buffered_reject_lt p _ h)
    · split
      · exact .inl (buffered_reject_lt p _ h)
      · exact .inr ⟨rfl, rfl⟩
  · exact .inr ⟨rfl, rfl⟩
  · split
    · split
      · exact .inr ⟨rfl, rfl⟩
      · exact .inl (buffered_complete_lt p h)
    · exact .inl (buffered_complete_lt p h)
  · exact .inl (buffered_complete_lt p h)

/-- A step adds at most its byte to the bytes held; if it does, the bytes waiting
stay as they are. -/
theorem step_moves (p : Parser) (byte : UInt8) :
    (p.step byte).buffered < p.buffered + 1 ∨
      (p.step byte).buffered = p.buffered + 1 ∧ (p.step byte).replay = p.replay := by
  unfold step
  split
  · split
    · by_cases h : p.buffer = []
      · exact .inr ⟨by simp [buffered, h]; omega, rfl⟩
      · have := List.length_pos_iff.2 h
        exact .inl (by simp [buffered]; omega)
    · exact .inl (Nat.lt_succ_self _)
  · split
    · have := advance_moves (p.grow byte) ‹_› ‹_› (by simp [grow])
      rwa [buffered_grow] at this
    · exact .inr ⟨buffered_grow p byte, rfl⟩

/-! ## Reading -/

/-- Taking up a byte that waits leaves one byte less. -/
theorem buffered_of_replay {p : Parser} {byte : UInt8} {rest : Bytes}
    (h : p.replay = byte :: rest) : ({ p with replay := rest } : Parser).buffered + 1 = p.buffered := by
  simp [buffered, h]
  omega

/-- Reads the bytes that wait to be read again. -/
def drain (p : Parser) : Parser :=
  match _h : p.replay with
  | [] => p
  | byte :: rest => drain ({ p with replay := rest }.step byte)
termination_by (p.buffered, p.replay.length)
decreasing_by
  have held := buffered_of_replay _h
  rcases step_moves { p with replay := rest } byte with lt | ⟨eq, same⟩
  · exact Prod.Lex.left _ _ (by omega)
  · rw [eq, same, held, _h]
    exact Prod.Lex.right _ (Nat.lt_succ_self _)

/-- Reads bytes.  Events wait until they are taken. -/
def push (p : Parser) (bytes : Bytes) : Parser :=
  bytes.foldl (fun p byte => (p.step byte).drain) p

@[simp] theorem push_nil (p : Parser) : p.push [] = p := rfl

/-- Takes the oldest event. -/
def takeEvent (p : Parser) : Option ParserEvent × Parser :=
  match p.events with
  | [] => (none, p)
  | event :: events => (some event, { p with events := events })

/-- The first frame among events, and the events after it. -/
def firstFrame : List ParserEvent → Option Frame × List ParserEvent
  | [] => (none, [])
  | .frame frame :: events => (some frame, events)
  | _ :: events => firstFrame events

/-- Takes the oldest frame and throws away what was reported before it. -/
def takeFrame (p : Parser) : Option Frame × Parser :=
  let (frame, events) := firstFrame p.events
  (frame, { p with events := events })

/-- Reads bytes and takes all events. -/
def feed (p : Parser) (bytes : Bytes) : List ParserEvent × Parser :=
  let p := p.push bytes
  (p.events, { p with events := [] })

/-- Forgets the candidate and the events.  What is known of senders and signatures
stays. -/
def reset (p : Parser) : Parser :=
  { p with stage := .seek, buffer := [], replay := [], events := [] }

end Parser
end Mavlink
