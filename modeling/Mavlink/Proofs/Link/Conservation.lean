import Mathlib
import Mavlink.Proofs.Link.ParserLife
import Mavlink.Proofs.Wire.PartialFrames

/-!
# Nothing is lost or counted twice

A rejected candidate gives up one byte, and all its other bytes are read again, perhaps
many times.  In spite of that every byte is accounted for once: it was given up, it is in a
frame that was reported, or it is held.  For a scan this is plain, because it never goes
back (`Scan.Balanced`); and the parser agrees with the scan of its stream.

The reports are accounted for as well.  Every report adds to the counter of its kind, and
has been handed out, is in the queue, or is counted as dropped.  Only the oldest are
dropped, so the queue holds the end of what was reported.

* `Lookup.refusal_of_examine` --- the kinds of errors that are reported;
* `Run.queued_suffix` --- the queue holds the newest reports;
* `Run.conserves` --- the whole account.
-/

namespace Mavlink

/-- The reasons for which a candidate is refused, as they are counted. -/
inductive Refusal where
  | checksum
  | signature
  | unknown
  | header
  deriving DecidableEq

/-- For what a candidate with an error is refused.  The other errors are those of bytes at
the beginning of which no whole candidate stands. -/
def DecodeError.refusal? : DecodeError → Option Refusal
  | .crcMismatch .. => some .checksum
  | .badSignature .. => some .signature
  | .unknownMessage .. => some .unknown
  | .incompatibleFlags .. | .invalidPayloadLength .. => some .header
  | .truncated .. | .invalidMarker .. => none

namespace ParserEvent

/-- Whether a frame is reported. -/
def isFrame : ParserEvent → Bool
  | .frame _ => true
  | _ => false

/-- The bytes of the frame that is reported. -/
def size : ParserEvent → Nat
  | .frame f => f.size
  | _ => 0

/-- The refusal that is reported. -/
def refusal? : ParserEvent → Option Refusal
  | .error e => e.refusal?
  | _ => none

end ParserEvent

/-! ## What can be refused -/

/-- What is damaged is refused. -/
theorem DecodeError.refusal_of_isDamage {e : DecodeError} (damage : e.isDamage) :
    e.refusal? ≠ none := by
  cases e <;> first | exact Option.some_ne_none _ | cases damage

/-- A frame whose bytes are there is not refused for want of bytes. -/
theorem Frame.refusal_of_decode {l : Lookup} {b : Bytes} {h : Header} {e : DecodeError}
    (read : Header.decode b = .ok h) (whole : h.frameSize ≤ b.length)
    (refused : decode b l = .error e) : e.refusal? ≠ none := by
  rcases decode_of_long (l := l) read whole with ⟨f, found, -⟩ | found | ⟨e', found, damage⟩
  · cases found.symm.trans refused
  · cases found.symm.trans refused
    exact Option.some_ne_none _
  · cases found.symm.trans refused
    exact DecodeError.refusal_of_isDamage damage

/-- A candidate is refused for one of the reasons that are counted. -/
theorem Lookup.refusal_of_examine {l : Lookup} {b : Bytes} {e : DecodeError}
    (found : l.examine b = .fault e) : e.refusal? ≠ none := by
  rcases b with _ | ⟨byte, r⟩
  · cases found
  · cases hv : Version.ofMarker? byte with
    | none =>
      rw [examine_noise hv] at found
      cases found
    | some version =>
      rw [Version.ofMarker?_eq_some_iff] at hv
      subst hv
      have whole : version.headerSize ≤ r.length + 1 := by
        apply Nat.le_of_not_lt
        intro short
        rw [examine_short short] at found
        cases found
      cases read : Header.decode (version.marker :: r) with
      | error e' =>
        rw [examine_of_error whole read] at found
        cases found
        obtain ⟨flags, rfl⟩ := Header.exists_flags_of_decode_marker whole read
        exact Option.some_ne_none _
      | ok h =>
        rw [examine_of_header read] at found
        split at found
        · cases found
          exact Option.some_ne_none _
        · split at found
          · cases found
          · next long =>
            split at found
            · next refused =>
              cases found
              exact Frame.refusal_of_decode read (Nat.le_of_not_lt long) refused
            · cases found

/-! ## The account of a scan -/

namespace Scan

/-- The bytes behind a scan were passed over one by one, or are those of the frames that it
has reported; and every error that it has reported is of a kind that is counted. -/
structure Balanced (s : Scan) : Prop where
  bytes : s.place = s.skipped + (s.events.map (·.size)).sum
  refusals : ∀ e, .error e ∈ s.events → e.refusal? ≠ none

theorem balanced_start : Balanced {} := ⟨rfl, nofun⟩

theorem Balanced.skip {s : Scan} (h : s.Balanced) : s.skip.Balanced := by
  refine ⟨?_, h.refusals⟩
  show s.place + 1 = s.skipped + 1 + (s.events.map (·.size)).sum
  rw [h.bytes]
  omega

theorem Balanced.refuse {s : Scan} (h : s.Balanced) {e : DecodeError} (counted : e.refusal? ≠ none) :
    (s.refuse e).Balanced := by
  refine ⟨?_, ?_⟩ <;> rw [events_refuse]
  · rw [List.map_append, List.sum_append]
    exact h.skip.bytes
  · intro e' reported
    rcases List.mem_append.1 reported with before | now
    · exact h.refusals e' before
    · cases List.mem_singleton.1 now
      exact counted

theorem Balanced.accept {s : Scan} (h : s.Balanced) (tracking : Bool)
    (timestamps : Dictionary SigningStream Timestamp) (f : Frame) :
    (s.accept tracking timestamps f).Balanced := by
  refine ⟨?_, ?_⟩ <;> rw [events_accept]
  · show s.place + f.size = s.skipped + _
    rw [h.bytes, List.map_append, List.sum_append]
    cases (s.hear tracking f).1 <;> simp [ParserEvent.size, Nat.add_assoc]
  · intro e reported
    rcases List.mem_append.1 reported with before | now
    · exact h.refusals e before
    · cases heard : (s.hear tracking f).1 <;> simp [heard] at now

/-- The account of a scan stays balanced, whatever it finds in bytes. -/
theorem Balanced.step {s : Scan} (h : s.Balanced) (setup : ParserSetup) (b : Bytes) :
    (s.step setup (setup.lookup.examine b)).Balanced := by
  cases found : setup.lookup.examine b with
  | wait => exact h
  | noise => exact h.skip
  | fault e => exact h.refuse (Lookup.refusal_of_examine found)
  | frame f =>
    cases authentic : s.authenticate setup.signer f with
    | none =>
      have counted : (DecodeError.badSignature f.messageId).refusal? ≠ none := nofun
      rw [step_refused authentic]
      exact h.refuse counted
    | some timestamps =>
      rw [step_accepted authentic]
      exact h.accept setup.trackSequences timestamps f

end Scan

/-! ## How many reports there can be -/

namespace Parser

/-- Settling a finding costs a byte for every report: a refusal gives one up, and a frame
has more bytes than the two reports that it can cause. -/
theorem length_reports_settle_le {p : Parser} (stage : ParserStage) {finding : Finding}
    (begun : p.buffer ≠ []) (whole : ∀ f, finding = .frame f → p.buffer.length = f.size) :
    (p.reports finding).length + (p.settle stage finding).buffered ≤ p.buffered := by
  cases finding with
  | wait => exact Nat.le_of_eq (Nat.zero_add _)
  | noise =>
    show 0 + ([].length + p.replay.length) ≤ p.buffer.length + p.replay.length
    simp
  | fault e =>
    have given_up := buffered_reject_lt p e begun
    show 1 + (p.reject e).buffered ≤ p.buffered
    omega
  | frame f =>
    cases hv : p.verify f with
    | none =>
      have given_up := buffered_reject_lt p (.badSignature f.messageId) begun
      rw [settle_refused hv, reports_refused hv]
      show 1 + _ ≤ p.buffered
      omega
    | some timestamps =>
      have reports := length_reports_le p (.frame f)
      obtain ⟨-, -, buffer, replay, -⟩ := noteSequence_keeps
        { p with buffer := [], stage := .seek, timestamps := timestamps } f
      have left : (p.accept timestamps f).buffered = p.replay.length := by
        rw [accept, buffered_deliver, buffered, buffer, replay]
        exact Nat.zero_add _
      have size : 2 ≤ f.size := by
        rw [Frame.size, Header.frameSize, Header.checksumSize]
        omega
      have length := whole f rfl
      rw [settle_accepted hv, left, buffered]
      omega

/-- Reading a byte costs a byte for every report, of this byte and those that are held. -/
theorem length_reported_le {p : Parser} (coherent : p.Coherent) (byte : UInt8) :
    (p.reported byte).length + (p.step byte).buffered ≤ p.buffered + 1 := by
  obtain ⟨stage, stepped, -⟩ := step_eq coherent byte
  have waited : p.setup.lookup.examine p.buffer = .wait := coherent.examine
  have begun : (p.grow byte).buffer ≠ [] :=
    List.append_ne_nil_of_right_ne_nil _ (List.cons_ne_nil _ _)
  have settled := length_reports_settle_le (p := p.grow byte) stage begun
    fun f found => Lookup.length_of_examine_frame waited found
  rw [buffered_grow] at settled
  rw [reported_eq coherent, stepped]
  exact settled

theorem length_drainLog_le {p : Parser} (coherent : p.Coherent) (received : Nat) :
    (p.drainLog received).length + p.drain.buffered ≤ p.buffered := by
  induction p using drain.induct with
  | case1 p h =>
    rw [drain_of_nil h, drainLog_of_nil h]
    exact Nat.le_of_eq (Nat.zero_add _)
  | case2 p byte rest h ih =>
    have coherent : ({ p with replay := rest } : Parser).Coherent := coherent
    have first := length_reported_le coherent byte
    have others := ih (coherent_step coherent byte)
    have held := buffered_of_replay h
    rw [drain_of_cons h, drainLog_of_cons h, List.length_append, List.length_map]
    omega

/-- **Every report is paid for with a byte** that was held before or is read, and is not
held any more. -/
theorem length_pushLog_le {p : Parser} (coherent : p.Coherent) (received : Nat) (bytes : Bytes) :
    (p.pushLog received bytes).length + (p.push bytes).buffered ≤ p.buffered + bytes.length := by
  induction bytes generalizing p received with
  | nil => exact Nat.le_of_eq (Nat.zero_add _)
  | cons byte bytes ih =>
    have first := length_reported_le coherent byte
    have stepped := coherent_step coherent byte
    have again := length_drainLog_le stepped (received + 1)
    have rest := ih (coherent_drain stepped) (received + 1)
    rw [push_cons, pushLog, List.length_append, List.length_append, List.length_map,
      List.length_cons]
    omega

end Parser

namespace ParserStats

theorem lostPackets_ofEvents (events : List ParserEvent) (skipped : Nat) :
    (ofEvents events skipped).lostPackets = (events.map (·.lost)).sum := by
  rw [List.sum_eq_foldl, List.foldl_map]
  rfl

/-- Every counter counts the reports of one kind, if the errors are of the kinds that are
counted. -/
theorem ofEvents_eq {events : List ParserEvent}
    (counted : ∀ e, .error e ∈ events → e.refusal? ≠ none) (skipped : Nat) :
    ofEvents events skipped =
      { frames := events.countP (·.isFrame)
        crcErrors := events.countP (·.refusal? = some .checksum)
        signatureErrors := events.countP (·.refusal? = some .signature)
        unknownMessages := events.countP (·.refusal? = some .unknown)
        invalidHeaders := events.countP (·.refusal? = some .header)
        skippedBytes := skipped
        lostPackets := (events.map (·.lost)).sum } := by
  rw [← lostPackets_ofEvents events skipped, ofEvents, mk.injEq]
  refine ⟨?_, ?_, ?_, ?_, ?_, rfl, rfl, rfl⟩
  all_goals
    apply List.countP_congr
    intro event reported
    rcases event with f | e | ⟨peer, lost⟩
    · simp [ParserEvent.isFrame, ParserEvent.refusal?]
    · have counted := counted e reported
      cases e <;>
        simp [ParserEvent.isFrame, ParserEvent.refusal?, DecodeError.refusal?] at counted ⊢
    · simp [ParserEvent.isFrame, ParserEvent.refusal?]

end ParserStats

namespace Run

/-- A call takes events only from the front of the queue, and reports put events only at its
end. -/
theorem suffix_answer {setup : ParserSetup} {r : Run} (steady : Steady setup r)
    (h : r.parser.events <:+ r.log.map (·.2)) (call : Call) :
    (r.answer call).parser.events <:+ (r.answer call).log.map (·.2) := by
  obtain ⟨events, parser, moved, short, log, -⟩ := r.exists_answer call
  have queued := Parser.queued_push steady.coherent steady.fits r.stream.length call.bytes
  have read : (r.read call.bytes).parser.events <:+ (r.read call.bytes).log.map (·.2) := by
    obtain ⟨before, all⟩ := h
    show (r.parser.push call.bytes).events <:+ (r.log ++ _).map (·.2)
    rw [queued.events, List.map_append, ← all, List.append_assoc]
    exact (List.drop_suffix _ _).trans (List.suffix_append _ _)
  have left : events <:+ (r.read call.bytes).parser.events :=
    List.suffix_of_suffix_length_le (moved ▸ List.suffix_append _ _) (List.suffix_append _ _) short
  rw [parser, log]
  exact left.trans read

/-- The queue holds the newest reports. -/
theorem queued_suffix (setup : ParserSetup) (calls : List Call) :
    (ofCalls setup calls).parser.events <:+ (ofCalls setup calls).log.map (·.2) := by
  have both : Steady setup (ofCalls setup calls) ∧
      (ofCalls setup calls).parser.events <:+ (ofCalls setup calls).log.map (·.2) := by
    apply ofCalls_induction
      (P := fun r => Steady setup r ∧ r.parser.events <:+ r.log.map (·.2))
    · exact ⟨steady_start setup, List.suffix_refl _⟩
    · rintro r call ⟨steady, h⟩
      exact ⟨steady.answer call, suffix_answer steady h call⟩
  exact both.2

/-- **Bytes and reports are conserved.**  However a stream is cut and whenever events are
taken, every byte of it was given up, is in a frame that was reported, or is held.  Each
counter is the number of the reports of its kind, and no error is of another kind.  The
queue holds the newest reports in their order, not more than there is room for; every other
report was handed out or is counted as dropped. -/
theorem conserves (setup : ParserSetup) (calls : List Call) :
    let r := ofCalls setup calls
    let emitted := r.log.map (·.2)
    (calls.flatMap Call.bytes).length
      = r.parser.stats.skippedBytes + (emitted.map (·.size)).sum + r.parser.buffered ∧
    r.parser.stats.frames = emitted.countP (·.isFrame) ∧
    r.parser.stats.crcErrors = emitted.countP (·.refusal? = some .checksum) ∧
    r.parser.stats.signatureErrors = emitted.countP (·.refusal? = some .signature) ∧
    r.parser.stats.unknownMessages = emitted.countP (·.refusal? = some .unknown) ∧
    r.parser.stats.invalidHeaders = emitted.countP (·.refusal? = some .header) ∧
    (∀ e, .error e ∈ emitted → e.refusal? ≠ none) ∧
    r.parser.stats.lostPackets = (emitted.map (·.lost)).sum ∧
    r.parser.events <:+ emitted ∧
    r.parser.events.length ≤ max setup.eventCapacity 1 ∧
    r.taken.length + r.parser.stats.droppedEvents + r.parser.events.length = emitted.length := by
  intro r emitted
  obtain ⟨log, -, -, stats, place, -, -⟩ := follows_scan setup calls
  obtain ⟨own, -, -, fits, -, dropped⟩ := accounted_ofCalls setup calls
  have balanced : (scan setup (calls.flatMap Call.bytes) {}).Balanced :=
    scan_induction (fun s b h => h.step setup b) _ Scan.balanced_start
  have events : emitted = (scan setup (calls.flatMap Call.bytes) {}).events :=
    congrArg (List.map (·.2)) log
  obtain ⟨bytes, refusals⟩ := balanced
  rw [← events] at bytes refusals
  rw [Scan.stats, ← events, ParserStats.ofEvents_eq refusals] at stats
  have counted (counter : ParserStats → Nat) := congrArg counter stats
  refine ⟨?_, counted (·.frames), counted (·.crcErrors), counted (·.signatureErrors),
    counted (·.unknownMessages), counted (·.invalidHeaders), refusals, counted (·.lostPackets),
    queued_suffix setup calls, ?_, ?_⟩
  · have skipped : r.parser.stats.skippedBytes = _ := counted (·.skippedBytes)
    rw [skipped, ← bytes, place]
  · have fits : r.parser.events.length ≤ max r.parser.setup.eventCapacity 1 := fits
    rwa [own] at fits
  · have dropped : (r.taken ++ r.parser.events).length + r.parser.stats.droppedEvents
        = r.log.length := dropped
    rw [List.length_append] at dropped
    rw [List.length_map]
    omega

end Run
end Mavlink
