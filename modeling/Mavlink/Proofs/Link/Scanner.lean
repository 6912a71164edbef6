import Mavlink.Link.Parser
import Mavlink.Proofs.Wire.FrameSpelling

/-!
# Scanning a whole stream

The parser takes bytes as they come and reads some of them again.  A scan has the
whole stream at hand and goes through it once, from one place to the next: it looks at
what stands at its place and passes over a byte or over a frame.

`Lookup.examine` says what stands at the beginning of bytes, and depends on nothing but
the bytes and the lookup; `Scan.step` says what follows from it for the senders that are
known, the timestamps that were accepted, and the reports; `scan` goes on until there are
too few bytes to tell.

* `Lookup.examine_append` --- what has been told stays true when more bytes come;
* `scan_append` --- so a scan can be interrupted anywhere and resumed with more bytes.
-/

namespace Mavlink

/-- What stands at the beginning of bytes. -/
inductive Finding where
  /-- Too few bytes to tell. -/
  | wait
  /-- A byte that starts no frame. -/
  | noise
  /-- A candidate that is not a frame. -/
  | fault (error : DecodeError)
  | frame (frame : Frame)
  deriving DecidableEq

namespace Lookup

/-- The limit of a known message, if the header announces more. -/
def excess? (l : Lookup) (h : Header) : Option Nat :=
  if (l.fingerprint h.messageId).isSome then
    (l.maxLength h.messageId).filter (· < h.payloadLength.toNat)
  else none

/-- Looks at the beginning of bytes. -/
def examine (l : Lookup) (b : Bytes) : Finding :=
  match b with
  | [] => .wait
  | marker :: _ =>
    match Version.ofMarker? marker with
    | none => .noise
    | some version =>
      if b.length < version.headerSize then .wait
      else match Header.decode b with
        | .error e => .fault e
        | .ok h =>
          match l.excess? h with
          | some limit => .fault (.invalidPayloadLength h.messageId h.payloadLength.toNat limit)
          | none =>
            if b.length < h.frameSize then .wait
            else match Frame.decode b l with
              | .error e => .fault e
              | .ok f => .frame f

@[simp] theorem examine_nil (l : Lookup) : l.examine [] = .wait := rfl

theorem examine_noise {l : Lookup} {byte : UInt8} (hb : Version.ofMarker? byte = none)
    (r : Bytes) : l.examine (byte :: r) = .noise := by
  simp only [examine, hb]

theorem examine_short {l : Lookup} {version : Version} {r : Bytes}
    (hlen : r.length + 1 < version.headerSize) : l.examine (version.marker :: r) = .wait := by
  simp only [examine, Version.ofMarker?_marker, List.length_cons, if_pos hlen]

theorem examine_of_error {l : Lookup} {version : Version} {r : Bytes} {e : DecodeError}
    (hlen : version.headerSize ≤ r.length + 1)
    (he : Header.decode (version.marker :: r) = .error e) :
    l.examine (version.marker :: r) = .fault e := by
  simp only [examine, Version.ofMarker?_marker, List.length_cons, if_neg (Nat.not_lt.2 hlen), he]

/-- What is found once there is a header. -/
theorem examine_of_header {l : Lookup} {b : Bytes} {h : Header} (hb : Header.decode b = .ok h) :
    l.examine b = match l.excess? h with
      | some limit => .fault (.invalidPayloadLength h.messageId h.payloadLength.toNat limit)
      | none =>
        if b.length < h.frameSize then .wait
        else match Frame.decode b l with
          | .error e => .fault e
          | .ok f => .frame f := by
  have hlen : h.version.headerSize ≤ b.length := Header.size_le_length hb
  obtain ⟨r, rfl⟩ := Header.exists_marker hb
  simp only [examine, Version.ofMarker?_marker, if_neg (Nat.not_lt.2 hlen), hb]

/-- What has been told stays true when more bytes come. -/
theorem examine_append {l : Lookup} {b : Bytes} (hb : l.examine b ≠ .wait) (r : Bytes) :
    l.examine (b ++ r) = l.examine b := by
  rcases b with _ | ⟨byte, b⟩
  · exact absurd rfl hb
  · cases hv : Version.ofMarker? byte with
    | none => rw [List.cons_append, examine_noise hv, examine_noise hv]
    | some version =>
      rw [Version.ofMarker?_eq_some_iff] at hv
      subst hv
      have hlen : version.headerSize ≤ b.length + 1 :=
        Nat.le_of_not_lt fun hlt => hb (examine_short hlt)
      cases hd : Header.decode (version.marker :: b) with
      | error e =>
        have hd' : Header.decode (version.marker :: (b ++ r)) = .error e := by
          rw [← List.cons_append, Header.decode_marker_append hlen, hd]
        rw [List.cons_append, examine_of_error hlen hd, examine_of_error _ hd']
        rw [List.length_append]
        omega
      | ok h =>
        rw [examine_of_header hd] at hb ⊢
        rw [examine_of_header (Header.decode_append hd r)]
        cases hx : l.excess? h with
        | some limit => rfl
        | none =>
          simp only [hx] at hb ⊢
          by_cases hshort : (version.marker :: b).length < h.frameSize
          · rw [if_pos hshort] at hb
            exact absurd rfl hb
          · have hlong : ¬ (version.marker :: b ++ r).length < h.frameSize := by
              rw [List.length_append]
              omega
            rw [if_neg hshort, if_neg hlong, Frame.decode_append hd (Nat.le_of_not_lt hshort)]

/-- A frame is found exactly where one is decoded. -/
theorem examine_eq_frame_iff {l : Lookup} {b : Bytes} {f : Frame} :
    l.examine b = .frame f ↔ Frame.decode b l = .ok f := by
  constructor
  · intro hb
    unfold examine at hb
    split at hb
    · cases hb
    · split at hb
      · cases hb
      · split at hb
        · cases hb
        · split at hb
          · cases hb
          · split at hb
            · cases hb
            · split at hb
              · cases hb
              · split at hb
                · cases hb
                · next hd =>
                  cases hb
                  exact hd
  · intro hd
    obtain ⟨hh, hlen⟩ := Frame.header_of_decode hd
    obtain ⟨-, hf, admits⟩ := Frame.decode_eq_ok_iff.1 hd
    have hx : l.excess? f.header = none := by
      unfold excess?
      split
      · rw [Frame.filter_lt_eq_none_iff, ← hf.length]
        exact admits.fits
      · rfl
    have hlong : ¬ b.length < f.header.frameSize := Nat.not_lt.2 hlen
    rw [examine_of_header hh, hx]
    simp only [if_neg hlong, hd]

/-- Only a first byte is noise. -/
theorem eq_nil_of_examine_noise {l : Lookup} {b r : Bytes} (hb : l.examine b = .wait)
    (hr : l.examine (b ++ r) = .noise) : b = [] := by
  cases b with
  | nil => rfl
  | cons byte b =>
    cases hv : Version.ofMarker? byte with
    | none =>
      rw [examine_noise hv] at hb
      cases hb
    | some version =>
      simp only [List.cons_append, examine, hv] at hr
      split at hr
      · cases hr
      · split at hr
        · cases hr
        · split at hr
          · cases hr
          · split at hr
            · cases hr
            · split at hr
              · cases hr
              · cases hr

/-- A frame is found with its last byte. -/
theorem length_of_examine_frame {l : Lookup} {b : Bytes} {byte : UInt8} {f : Frame}
    (hb : l.examine b = .wait) (hf : l.examine (b ++ [byte]) = .frame f) :
    (b ++ [byte]).length = f.size := by
  obtain ⟨stands, consistent, admits⟩ := Frame.decode_eq_ok_iff.1 (examine_eq_frame_iff.1 hf)
  have hsize : f.toBytes.length = f.size := consistent.length_toBytes
  have hle : f.size ≤ (b ++ [byte]).length := hsize ▸ stands.length_le
  have hlen : (b ++ [byte]).length = b.length + 1 := List.length_append
  refine Nat.le_antisymm (Nat.le_of_not_lt fun hlt => ?_) hle
  have before : f.toBytes <+: b :=
    List.prefix_of_prefix_length_le stands (List.prefix_append b [byte]) (by omega)
  have found : l.examine b = .frame f :=
    examine_eq_frame_iff.2 (Frame.decode_eq_ok_iff.2 ⟨before, consistent, admits⟩)
  rw [hb] at found
  cases found

end Lookup

/-- The frames that an event says are lost. -/
def ParserEvent.lost : ParserEvent → Nat
  | .packetLoss _ lost => lost
  | _ => 0

/-- The counters that go with reports, when so many bytes have been passed over without
being part of a frame. -/
def ParserStats.ofEvents (events : List ParserEvent) (skipped : Nat) : ParserStats where
  frames := events.countP fun | .frame _ => true | _ => false
  crcErrors := events.countP fun | .error (.crcMismatch ..) => true | _ => false
  signatureErrors := events.countP fun | .error (.badSignature ..) => true | _ => false
  unknownMessages := events.countP fun | .error (.unknownMessage ..) => true | _ => false
  invalidHeaders := events.countP fun
    | .error (.crcMismatch ..) | .error (.badSignature ..) | .error (.unknownMessage ..) => false
    | .error _ => true
    | _ => false
  skippedBytes := skipped
  lostPackets := events.foldl (fun n e => n + e.lost) 0

/-- How far a scan has come, and what it has found. -/
structure Scan where
  /-- The bytes that are behind it. -/
  place : Nat := 0
  /-- The bytes behind it that are not part of a frame. -/
  skipped : Nat := 0
  sequences : SequenceTracker := .empty
  timestamps : Dictionary SigningStream Timestamp := ∅
  /-- The reports, each with the place where its candidate begins. -/
  log : List (Nat × ParserEvent) := []

namespace Scan

/-- The reports without their places. -/
def events (s : Scan) : List ParserEvent := s.log.map (·.2)

/-- The counters of the reports. -/
def stats (s : Scan) : ParserStats := .ofEvents s.events s.skipped

/-- Passes over a byte that starts no frame. -/
def skip (s : Scan) : Scan := { s with place := s.place + 1, skipped := s.skipped + 1 }

/-- Passes over the first byte of a candidate that is not accepted. -/
def refuse (s : Scan) (e : DecodeError) : Scan :=
  { s.skip with log := s.log ++ [(s.place, .error e)] }

/-- The timestamps after a frame, if its signature is in order: the signer accepts it,
and a timestamp that counts is later than the last one of its stream. -/
def authenticate (s : Scan) (signer : Option Signer) (f : Frame) :
    Option (Dictionary SigningStream Timestamp) :=
  match signer with
  | none => some s.timestamps
  | some signer =>
    if signer.accepts f = false then none
    else match f.signature.filter fun _ => signer.incoming ≠ .proxy with
      | none => some s.timestamps
      | some signature =>
        let stream : SigningStream := ⟨signature.link, f.sender⟩
        if ∀ last ∈ s.timestamps.find? stream, last < signature.timestamp then
          some (s.timestamps.insert stream signature.timestamp)
        else none

/-- Hears the sender of a frame, if senders are followed. -/
def hear (s : Scan) (tracking : Bool) (f : Frame) : Option Nat × SequenceTracker :=
  if tracking then s.sequences.track f.sender f.header.sequence else (none, s.sequences)

/-- Passes over a frame that is accepted. -/
def accept (s : Scan) (tracking : Bool) (timestamps : Dictionary SigningStream Timestamp)
    (f : Frame) : Scan :=
  { s with
    place := s.place + f.size
    sequences := (s.hear tracking f).2
    timestamps := timestamps
    log := s.log ++ ((s.hear tracking f).1.map fun lost =>
      (s.place, .packetLoss f.sender lost)).toList ++ [(s.place, .frame f)] }

/-- What follows from a finding. -/
def step (setup : ParserSetup) (s : Scan) : Finding → Scan
  | .wait => s
  | .noise => s.skip
  | .fault e => s.refuse e
  | .frame f =>
    match s.authenticate setup.signer f with
    | none => s.refuse (.badSignature f.messageId)
    | some timestamps => s.accept setup.trackSequences timestamps f

section Steps

variable {setup : ParserSetup} {s : Scan} {f : Frame}

theorem step_refused (h : s.authenticate setup.signer f = none) :
    s.step setup (.frame f) = s.refuse (.badSignature f.messageId) := by
  simp only [step, h]

theorem step_accepted {timestamps : Dictionary SigningStream Timestamp}
    (h : s.authenticate setup.signer f = some timestamps) :
    s.step setup (.frame f) = s.accept setup.trackSequences timestamps f := by
  simp only [step, h]

@[simp] theorem events_skip (s : Scan) : s.skip.events = s.events := rfl

@[simp] theorem events_refuse (s : Scan) (e : DecodeError) :
    (s.refuse e).events = s.events ++ [.error e] := List.map_append

/-- Before a frame the frames are reported that were lost before it. -/
@[simp] theorem events_accept (s : Scan) (tracking : Bool)
    (timestamps : Dictionary SigningStream Timestamp) (f : Frame) :
    (s.accept tracking timestamps f).events
      = s.events ++ (((s.hear tracking f).1.map (.packetLoss f.sender ·)).toList ++ [.frame f]) := by
  cases heard : (s.hear tracking f).1 <;> simp [events, accept, heard]

end Steps

theorem place_lt_step (setup : ParserSetup) (s : Scan) {finding : Finding}
    (hf : finding ≠ .wait) : s.place < (s.step setup finding).place := by
  have hsize : ∀ f : Frame, 0 < f.size := by
    intro f
    rw [Frame.size, Header.frameSize_eq, Header.tailSize, Header.checksumSize]
    omega
  unfold step
  split
  · exact absurd rfl hf
  · exact Nat.lt_succ_self _
  · exact Nat.lt_succ_self _
  · next f =>
    split
    · exact Nat.lt_succ_self _
    · exact Nat.lt_add_of_pos_right (hsize f)

end Scan

theorem Lookup.lt_length_of_examine_drop {l : Lookup} {b : Bytes} {n : Nat}
    (h : l.examine (b.drop n) ≠ .wait) : n < b.length := by
  apply Nat.lt_of_not_le
  intro hle
  apply h
  rw [List.drop_eq_nil_of_le hle]
  rfl

/-- Scans a stream from a place on, as far as its bytes tell. -/
def scan (setup : ParserSetup) (stream : Bytes) (s : Scan) : Scan :=
  if _h : setup.lookup.examine (stream.drop s.place) = .wait then s
  else scan setup stream (s.step setup (setup.lookup.examine (stream.drop s.place)))
termination_by stream.length - s.place
decreasing_by
  have hlt := s.place_lt_step setup _h
  have hin := Lookup.lt_length_of_examine_drop _h
  omega

section Scanning

variable {setup : ParserSetup} {stream : Bytes} {s : Scan}

/-- A scan stops where there are too few bytes to tell. -/
theorem scan_of_wait (h : setup.lookup.examine (stream.drop s.place) = .wait) :
    scan setup stream s = s := by
  rw [scan, dif_pos h]

theorem scan_of_ne_wait (h : setup.lookup.examine (stream.drop s.place) ≠ .wait) :
    scan setup stream s =
      scan setup stream (s.step setup (setup.lookup.examine (stream.drop s.place))) := by
  rw [scan, dif_neg h]

/-- A scan goes on with what follows from what stands at its place. -/
theorem scan_step (setup : ParserSetup) (stream : Bytes) (s : Scan) :
    scan setup stream (s.step setup (setup.lookup.examine (stream.drop s.place)))
      = scan setup stream s := by
  by_cases h : setup.lookup.examine (stream.drop s.place) = .wait
  · rw [h]
    rfl
  · exact (scan_of_ne_wait h).symm

/-- At the place where a scan stops there are too few bytes to tell. -/
theorem examine_scan (setup : ParserSetup) (stream : Bytes) (s : Scan) :
    setup.lookup.examine (stream.drop (scan setup stream s).place) = .wait := by
  induction s using scan.induct setup stream with
  | case1 s h => rwa [scan_of_wait h]
  | case2 s h ih => rwa [scan_of_ne_wait h]

/-- A scan that was interrupted and goes on with more bytes comes to the same. -/
theorem scan_append (setup : ParserSetup) (stream more : Bytes) (s : Scan) :
    scan setup (stream ++ more) (scan setup stream s) = scan setup (stream ++ more) s := by
  induction s using scan.induct setup stream with
  | case1 s h => rw [scan_of_wait h]
  | case2 s h ih =>
    have hin : s.place < stream.length := Lookup.lt_length_of_examine_drop h
    have same : setup.lookup.examine ((stream ++ more).drop s.place)
        = setup.lookup.examine (stream.drop s.place) := by
      rw [List.drop_append_of_le_length (Nat.le_of_lt hin)]
      exact Lookup.examine_append h more
    rw [scan_of_ne_wait h, ih, ← same, scan_step]

end Scanning
end Mavlink
