import Mavlink.Proofs.Link.Authentication

/-!
# Streams of whole frames

A stream in which nothing is damaged consists of whole frames, and of bytes between them
that start no frame.  A scan passes over the one and the other (`scan_pass`,
`scan_accept`), and never has to come back: what it reports of the stream is what the
sequence tracker tells of the frames one after another (`SequenceTracker.reports`).

* `scan_spaced` --- what a scan finds in such a stream, if every signature in it is in
  order when its turn comes (`Scan.Trusts`);
* `Run.of_spaced` --- what a parser therefore reports of it, however it is cut.
-/

namespace Mavlink

/-- Bytes of which none starts a frame. -/
def Bytes.Quiet (b : Bytes) : Prop := ∀ byte ∈ b, Version.ofMarker? byte = none

instance (b : Bytes) : Decidable b.Quiet := List.decidableBAll _ _

/-- The bytes of frames one after another, each behind other bytes. -/
def spaced (pieces : List (Bytes × Frame)) : Bytes :=
  pieces.flatMap fun piece => piece.1 ++ piece.2.toBytes

theorem spaced_cons (gap : Bytes) (f : Frame) (pieces : List (Bytes × Frame)) :
    spaced ((gap, f) :: pieces) = gap ++ f.toBytes ++ spaced pieces := List.flatMap_cons

/-- The number of bytes before frames that are not part of one. -/
def spare (pieces : List (Bytes × Frame)) : Nat := (pieces.flatMap (·.1)).length

theorem spare_cons (gap : Bytes) (f : Frame) (pieces : List (Bytes × Frame)) :
    spare ((gap, f) :: pieces) = gap.length + spare pieces := List.length_append

/-- What is reported when a frame arrives and so many are found missing before it. -/
def onArrival (missing : Option Nat) (f : Frame) : List ParserEvent :=
  (missing.map (.packetLoss f.sender)).toList ++ [.frame f]

namespace SequenceTracker

/-- Hears a frame, if senders are followed. -/
def follow (t : SequenceTracker) (tracking : Bool) (f : Frame) : Option Nat × SequenceTracker :=
  if tracking then t.track f.sender f.header.sequence else (none, t)

/-- What is reported of frames one after another. -/
def reports (tracking : Bool) : SequenceTracker → List Frame → List ParserEvent
  | _, [] => []
  | t, f :: fs =>
    onArrival (t.follow tracking f).1 f ++ reports tracking (t.follow tracking f).2 fs

end SequenceTracker

namespace Scan

/-- Passes over bytes that start no frame. -/
def pass (s : Scan) (gap : Bytes) : Scan :=
  { s with place := s.place + gap.length, skipped := s.skipped + gap.length }

@[simp] theorem pass_nil (s : Scan) : s.pass [] = s := rfl

theorem pass_cons (s : Scan) (byte : UInt8) (gap : Bytes) :
    s.pass (byte :: gap) = s.skip.pass gap := by
  simp only [pass, skip, List.length_cons, Nat.add_assoc, Nat.add_comm 1]

/-- Only the timestamps matter to authentication. -/
theorem authenticate_congr {s s' : Scan} (h : s.timestamps = s'.timestamps)
    (signer : Option Signer) (f : Frame) : s.authenticate signer f = s'.authenticate signer f := by
  unfold authenticate
  rw [h]

/-- The signatures of frames are in order one after another. -/
def Trusts (setup : ParserSetup) : Scan → List Frame → Prop
  | _, [] => True
  | s, f :: fs => ∃ timestamps, s.authenticate setup.signer f = some timestamps ∧
      Trusts setup (s.accept setup.trackSequences timestamps f) fs

theorem Trusts.congr {setup : ParserSetup} {s s' : Scan} {frames : List Frame}
    (h : s.Trusts setup frames) (same : s.timestamps = s'.timestamps) :
    s'.Trusts setup frames := by
  induction frames generalizing s s' with
  | nil => trivial
  | cons f fs ih =>
    obtain ⟨timestamps, authentic, rest⟩ := h
    exact ⟨timestamps, authenticate_congr same _ f ▸ authentic, ih rest rfl⟩

/-- Without a signer every frame is trusted. -/
theorem trusts_of_unsigned {setup : ParserSetup} (unsigned : setup.signer = none) (s : Scan)
    (frames : List Frame) : s.Trusts setup frames := by
  induction frames generalizing s with
  | nil => trivial
  | cons f fs ih => exact ⟨s.timestamps, by rw [unsigned, authenticate], ih _⟩

end Scan

/-- A frame that is read from its own bytes is read from them whatever follows. -/
theorem Frame.decode_toBytes_append {l : Lookup} {f : Frame} (h : Frame.decode f.toBytes l = .ok f)
    (r : Bytes) : Frame.decode (f.toBytes ++ r) l = .ok f := by
  rw [decode_eq_ok_iff] at h ⊢
  exact ⟨List.prefix_append _ _, h.2⟩

theorem Frame.length_toBytes_of_decode {l : Lookup} {f : Frame}
    (h : Frame.decode f.toBytes l = .ok f) : f.toBytes.length = f.size :=
  (decode_eq_ok_iff.1 h).2.1.length_toBytes

section Scanning

variable {setup : ParserSetup} {stream : Bytes} {s : Scan}

/-- A scan passes over bytes that start no frame. -/
theorem scan_pass {gap rest : Bytes} (quiet : gap.Quiet)
    (ahead : stream.drop s.place = gap ++ rest) :
    scan setup stream (s.pass gap) = scan setup stream s := by
  induction gap generalizing s with
  | nil => rfl
  | cons byte gap ih =>
    have noise : setup.lookup.examine (stream.drop s.place) = .noise := by
      rw [ahead, List.cons_append]
      exact Lookup.examine_noise (quiet byte List.mem_cons_self) _
    have further : stream.drop s.skip.place = gap ++ rest := by
      show stream.drop (s.place + 1) = gap ++ rest
      rw [← List.drop_drop, ahead]
      rfl
    rw [Scan.pass_cons, ih (fun b hb => quiet b (List.mem_cons_of_mem _ hb)) further,
      ← scan_step setup stream s, noise]
    rfl

/-- A scan passes over a frame whose signature is in order. -/
theorem scan_accept {f : Frame} {timestamps : Dictionary SigningStream Timestamp} {rest : Bytes}
    (readable : Frame.decode f.toBytes setup.lookup = .ok f)
    (authentic : s.authenticate setup.signer f = some timestamps)
    (ahead : stream.drop s.place = f.toBytes ++ rest) :
    scan setup stream (s.accept setup.trackSequences timestamps f) = scan setup stream s := by
  have found : setup.lookup.examine (stream.drop s.place) = .frame f := by
    rw [ahead, Lookup.examine_eq_frame_iff]
    exact Frame.decode_toBytes_append readable rest
  rw [← scan_step setup stream s, found, Scan.step_accepted authentic]

/-- **What a scan finds in a stream of whole frames.** -/
theorem scan_spaced {pieces : List (Bytes × Frame)} {tail : Bytes}
    (quiet : ∀ piece ∈ pieces, piece.1.Quiet) (still : tail.Quiet)
    (readable : ∀ f ∈ pieces.map (·.2), Frame.decode f.toBytes setup.lookup = .ok f)
    (trusted : s.Trusts setup (pieces.map (·.2)))
    (ahead : stream.drop s.place = spaced pieces ++ tail) :
    (scan setup stream s).events
        = s.events ++ s.sequences.reports setup.trackSequences (pieces.map (·.2)) ∧
      (scan setup stream s).sequences = (pieces.map (·.2)).foldl
        (fun t f => (t.follow setup.trackSequences f).2) s.sequences ∧
      (scan setup stream s).skipped = s.skipped + spare pieces + tail.length ∧
      stream.drop (scan setup stream s).place = [] := by
  induction pieces generalizing s with
  | nil =>
    have ahead : stream.drop s.place = tail ++ [] := by rw [List.append_nil]; exact ahead
    have ended : stream.drop (s.pass tail).place = [] := by
      show stream.drop (s.place + tail.length) = []
      rw [← List.drop_drop, ahead, List.drop_left]
    have stopped : scan setup stream s = s.pass tail := by
      rw [← scan_pass still ahead, scan_of_wait]
      rw [ended]
      rfl
    rw [stopped]
    exact ⟨(List.append_nil _).symm, rfl, rfl, ended⟩
  | cons piece pieces ih =>
    obtain ⟨gap, f⟩ := piece
    obtain ⟨timestamps, authentic, trusted⟩ := trusted
    have authentic : (s.pass gap).authenticate setup.signer f = some timestamps := authentic
    have trusted : ((s.pass gap).accept setup.trackSequences timestamps f).Trusts setup
        (pieces.map (·.2)) := trusted.congr rfl
    have readable_f := readable f List.mem_cons_self
    rw [spaced_cons, List.append_assoc, List.append_assoc] at ahead
    have behind : stream.drop (s.pass gap).place = f.toBytes ++ (spaced pieces ++ tail) := by
      show stream.drop (s.place + gap.length) = _
      rw [← List.drop_drop, ahead, List.drop_left]
    have further : stream.drop ((s.pass gap).accept setup.trackSequences timestamps f).place
        = spaced pieces ++ tail := by
      show stream.drop ((s.pass gap).place + f.size) = _
      rw [← List.drop_drop, behind, ← Frame.length_toBytes_of_decode readable_f, List.drop_left]
    obtain ⟨events, sequences, skipped, ended⟩ := ih
      (fun piece hp => quiet piece (List.mem_cons_of_mem _ hp))
      (fun g hg => readable g (List.mem_cons_of_mem _ hg)) trusted further
    rw [scan_accept readable_f authentic behind,
      scan_pass (quiet _ List.mem_cons_self) ahead] at events sequences skipped ended
    refine ⟨?_, sequences, ?_, ended⟩
    · rw [events, Scan.events_accept, List.map_cons, SequenceTracker.reports, List.append_assoc]
      rfl
    · rw [skipped, spare_cons]
      show s.skipped + gap.length + spare pieces + tail.length = _
      omega

end Scanning

namespace Run

/-- What a parser reports of a stream of whole frames, what it then knows of the senders,
and that it passes over the other bytes and holds none. -/
theorem of_spaced {setup : ParserSetup} {calls : List Call} {pieces : List (Bytes × Frame)}
    {tail : Bytes} (quiet : ∀ piece ∈ pieces, piece.1.Quiet) (still : tail.Quiet)
    (readable : ∀ f ∈ pieces.map (·.2), Frame.decode f.toBytes setup.lookup = .ok f)
    (trusted : Scan.Trusts setup {} (pieces.map (·.2)))
    (arrived : calls.flatMap Call.bytes = spaced pieces ++ tail) :
    (ofCalls setup calls).log.map (·.2)
        = SequenceTracker.empty.reports setup.trackSequences (pieces.map (·.2)) ∧
      (ofCalls setup calls).parser.sequences = (pieces.map (·.2)).foldl
        (fun t f => (t.follow setup.trackSequences f).2) .empty ∧
      { (ofCalls setup calls).parser.stats with droppedEvents := 0 } = ParserStats.ofEvents
        ((ofCalls setup calls).log.map (·.2)) (spare pieces + tail.length) ∧
      (ofCalls setup calls).parser.buffered = 0 := by
  obtain ⟨⟨held, -, sequences, -, stats⟩, log⟩ := follows_ofCalls setup calls
  obtain ⟨-, -, idle, -, -, -⟩ := accounted_ofCalls setup calls
  rw [stream_ofCalls, arrived] at held sequences stats log
  obtain ⟨events', sequences', skipped, ended⟩ := scan_spaced (s := {}) quiet still readable trusted
    (List.drop_zero (l := spaced pieces ++ tail))
  have events : (ofCalls setup calls).log.map (·.2)
      = (scan setup (spaced pieces ++ tail) {}).events := congrArg (List.map (·.2)) log
  refine ⟨events.trans events', sequences.trans sequences', ?_, ?_⟩
  · have none_before : ({} : Scan).skipped = 0 := rfl
    rw [stats, events, Scan.stats, skipped, none_before, Nat.zero_add]
  · rw [ended] at held
    rw [Parser.buffered, ← List.length_append, ← held]
    rfl

end Run
end Mavlink
