import Mavlink.Proofs.Link.ParserRun

/-!
# The parser scans its stream

The parser never has more of the stream than the bytes it holds, and a rejected
candidate makes it read bytes again that were themselves being read again.  What carries
over all of this is `Agrees`: the bytes held, those of the candidate and those that wait,
are just the bytes of the stream from the place of a scan on, and both know the same of
the senders.

* `Agrees.step` --- whenever the parser takes up a byte that waits, the scan goes on by
  what it then finds, which may be nothing;
* `Agrees.drain` --- so the scan has come to its end when nothing waits any more;
* `Run.follows_scan` --- and a parser has at all times reported just what a scan of all
  that it has read finds.
-/

namespace Mavlink

namespace ParserStats

theorem ofEvents_frame (events : List ParserEvent) (f : Frame) (skipped : Nat) :
    ofEvents (events ++ [.frame f]) skipped =
      { ofEvents events skipped with frames := (ofEvents events skipped).frames + 1 } := by
  simp [ofEvents, ParserEvent.lost]

theorem ofEvents_packetLoss (events : List ParserEvent) (peer : Address) (lost skipped : Nat) :
    ofEvents (events ++ [.packetLoss peer lost]) skipped =
      { ofEvents events skipped with
        lostPackets := (ofEvents events skipped).lostPackets + lost } := by
  simp [ofEvents, ParserEvent.lost]

theorem ofEvents_error (events : List ParserEvent) (e : DecodeError) (skipped : Nat) :
    ofEvents (events ++ [.error e]) (skipped + 1) =
      { (ofEvents events skipped).countRejected e with
        skippedBytes := (ofEvents events skipped).skippedBytes + 1 } := by
  cases e <;> simp [ofEvents, countRejected, ParserEvent.lost]

end ParserStats

/-- A parser and a scan that remember the same timestamps judge signatures alike. -/
theorem Parser.verify_eq_authenticate {p : Parser} {s : Scan} (h : p.timestamps = s.timestamps)
    (f : Frame) : p.verify f = s.authenticate p.setup.signer f := by
  unfold verify Scan.authenticate
  cases p.setup.signer with
  | none => simp only [h]
  | some signer =>
    simp only [h]
    cases signer.accepts f with
    | false => rfl
    | true =>
      cases f.signature with
      | none => rfl
      | some signature =>
        by_cases proxy : signer.incoming = .proxy
        · simp [proxy, Option.filter]
        · cases hl : s.timestamps.find? ⟨signature.link, f.sender⟩ with
          | none => simp [proxy, hl, Option.filter]
          | some last =>
            by_cases hle : signature.timestamp ≤ last
            · have hlt : ¬ last < signature.timestamp := Fin.not_lt.2 hle
              simp [proxy, hl, hle, hlt, Option.filter]
            · have hlt : last < signature.timestamp := Fin.not_le.1 hle
              simp [proxy, hl, hle, hlt, Option.filter]

/-- The parser and the scan stand at one place of the stream and know the same. -/
structure Agrees (stream : Bytes) (s : Scan) (p : Parser) : Prop where
  held : stream.drop s.place = p.buffer ++ p.replay
  place : s.place + p.buffered = stream.length
  sequences : p.sequences = s.sequences
  timestamps : p.timestamps = s.timestamps
  stats : { p.stats with droppedEvents := 0 } = s.stats

namespace Agrees

variable {stream : Bytes} {s : Scan} {p : Parser}

/-- Bytes that are given up or delivered from the front of what is held. -/
theorem drop_place (h : Agrees stream s p) (gone rest : Bytes)
    (split : p.buffer ++ p.replay = gone ++ rest) :
    stream.drop (s.place + gone.length) = rest ∧
      s.place + gone.length + rest.length = stream.length := by
  have hplace := h.place
  rw [Parser.buffered, ← List.length_append, split, List.length_append] at hplace
  refine ⟨?_, by omega⟩
  rw [← List.drop_drop, h.held, split, List.drop_left]

theorem skip (h : Agrees stream s p) {byte : UInt8} (hb : p.buffer = [byte]) :
    Agrees stream s.skip (p.settle .seek .noise) := by
  obtain ⟨held, place⟩ := h.drop_place [byte] p.replay (by rw [hb])
  refine ⟨held, ?_, h.sequences, h.timestamps, ?_⟩
  · rw [← place]
    simp [Parser.buffered, Parser.settle, Scan.skip]
  · exact congrArg (fun t : ParserStats => { t with skippedBytes := t.skippedBytes + 1 }) h.stats

theorem refuse (h : Agrees stream s p) (hb : p.buffer ≠ []) (e : DecodeError) :
    Agrees stream (s.refuse e) (p.reject e) := by
  obtain ⟨byte, rest, hb⟩ := List.exists_cons_of_ne_nil hb
  obtain ⟨held, place⟩ := h.drop_place [byte] (rest ++ p.replay) (by rw [hb]; rfl)
  have hdrop : (p.reject e).replay = rest ++ p.replay := by
    show p.buffer.drop 1 ++ p.replay = rest ++ p.replay
    rw [hb]
    rfl
  refine ⟨?_, ?_, h.sequences, h.timestamps, ?_⟩
  · rw [hdrop]
    exact held
  · rw [← place, Parser.buffered, hdrop]
    exact congrArg (s.place + 1 + ·) (Nat.zero_add _)
  · have events : (s.refuse e).events = s.events ++ [.error e] := List.map_append
    rw [Scan.stats, events]
    refine Eq.trans ?_ (ParserStats.ofEvents_error s.events e s.skipped).symm
    have counted := congrArg (fun t : ParserStats =>
      { t.countRejected e with skippedBytes := t.skippedBytes + 1 }) h.stats
    refine Eq.trans ?_ counted
    cases e <;> rfl

/-- The parser and the scan hear a sender alike. -/
theorem hear (sequences : p.sequences = s.sequences)
    (stats : { p.stats with droppedEvents := 0 } = s.stats) (f : Frame) :
    (p.noteSequence f).sequences = (s.hear p.setup.trackSequences f).2 ∧
    p.losses f = ((s.hear p.setup.trackSequences f).1.map (.packetLoss f.sender ·)).toList ∧
    { (p.noteSequence f).stats with droppedEvents := 0 }
      = ParserStats.ofEvents (s.events ++ p.losses f) s.skipped := by
  unfold Parser.noteSequence Parser.losses Scan.hear
  rw [← sequences]
  cases p.setup.trackSequences with
  | false =>
    refine ⟨rfl, rfl, ?_⟩
    simp only [Bool.false_eq_true, if_false, List.append_nil]
    exact stats
  | true =>
    simp only [if_true]
    obtain ⟨lost, sequences⟩ := p.sequences.track f.sender f.header.sequence
    cases lost with
    | none =>
      refine ⟨rfl, trivial, ?_⟩
      simp only [Option.map_none, Option.toList_none, List.append_nil]
      exact stats
    | some lost =>
      refine ⟨rfl, trivial, ?_⟩
      simp only [Option.map_some, Option.toList_some]
      rw [ParserStats.ofEvents_packetLoss]
      exact congrArg (fun t : ParserStats => { t with lostPackets := t.lostPackets + lost }) stats

theorem accept (h : Agrees stream s p) {f : Frame} (hb : p.buffer.length = f.size)
    (timestamps : Dictionary SigningStream Timestamp) :
    Agrees stream (s.accept p.setup.trackSequences timestamps f) (p.accept timestamps f) := by
  obtain ⟨held, place⟩ := h.drop_place p.buffer p.replay rfl
  obtain ⟨-, -, hbuffer, hreplay, htimestamps⟩ := Parser.noteSequence_keeps
    { p with buffer := [], stage := .seek, timestamps := timestamps } f
  obtain ⟨sequences, losses, stats⟩ := hear
    (p := { p with buffer := [], stage := .seek, timestamps := timestamps }) h.sequences h.stats f
  have hbuffer : (p.accept timestamps f).buffer = [] := hbuffer
  have hreplay : (p.accept timestamps f).replay = p.replay := hreplay
  rw [hb] at held place
  refine ⟨?_, ?_, sequences, htimestamps, ?_⟩
  · rw [hbuffer, hreplay]
    exact held
  · rw [← place, Parser.buffered, hbuffer, hreplay]
    exact congrArg (s.place + f.size + ·) (Nat.zero_add _)
  · have losses : p.losses f
        = ((s.hear p.setup.trackSequences f).1.map (.packetLoss f.sender ·)).toList := losses
    have events : (s.accept p.setup.trackSequences timestamps f).events
        = s.events ++ p.losses f ++ [.frame f] := by
      rw [losses, Scan.events, Scan.accept]
      cases (s.hear p.setup.trackSequences f).1 <;> simp [Scan.events]
    rw [Scan.stats, events]
    refine Eq.trans ?_ (ParserStats.ofEvents_frame _ f _).symm
    exact congrArg (fun t : ParserStats => { t with frames := t.frames + 1 }) stats

/-- **Whatever the candidate turns out to be, the parser and the scan settle it alike.** -/
theorem settle (h : Agrees stream s p) (stage : ParserStage) (finding : Finding)
    (noise : finding = .noise → ∃ byte, p.buffer = [byte]) (begun : p.buffer ≠ [])
    (whole : ∀ f, finding = .frame f → p.buffer.length = f.size) :
    Agrees stream (s.step p.setup finding) (p.settle stage finding) ∧
      (s.step p.setup finding).log = s.log ++ (p.reports finding).map (s.place, ·) := by
  cases finding with
  | wait => exact ⟨⟨h.held, h.place, h.sequences, h.timestamps, h.stats⟩, (List.append_nil _).symm⟩
  | noise =>
    obtain ⟨byte, hb⟩ := noise rfl
    exact ⟨h.skip hb, (List.append_nil _).symm⟩
  | fault e => exact ⟨h.refuse begun e, rfl⟩
  | frame f =>
    have hv := Parser.verify_eq_authenticate h.timestamps f
    unfold Scan.step
    cases hp : p.verify f with
    | none =>
      rw [Parser.settle_refused hp, Parser.reports_refused hp]
      rw [hp] at hv
      simp only [← hv]
      exact ⟨h.refuse begun _, rfl⟩
    | some timestamps =>
      rw [Parser.settle_accepted hp, Parser.reports_accepted hp]
      rw [hp] at hv
      simp only [← hv]
      refine ⟨h.accept (whole f rfl) timestamps, ?_⟩
      rw [(hear h.sequences h.stats f).2.1, Scan.accept]
      cases (s.hear p.setup.trackSequences f).1 <;> simp

/-! ## Reading on -/

/-- When the parser takes up a byte that waits, the scan goes on by what is then found. -/
theorem step (h : Agrees stream s p) (coherent : p.Coherent) {byte : UInt8} {rest : Bytes}
    (hr : p.replay = byte :: rest) :
    ∃ s', Agrees stream s' (Parser.step { p with replay := rest } byte) ∧
      s'.log = s.log ++ (Parser.reported { p with replay := rest } byte).map (s.place, ·) ∧
      scan p.setup stream s' = scan p.setup stream s := by
  have coherent : ({ p with replay := rest } : Parser).Coherent := coherent
  obtain ⟨stage, stepped, -⟩ := Parser.step_eq coherent byte
  have waited : p.setup.lookup.examine p.buffer = .wait := coherent.examine
  have held : stream.drop s.place = p.buffer ++ [byte] ++ rest := by
    rw [h.held, hr, List.append_assoc]
    rfl
  have grown : Agrees stream s (Parser.grow { p with replay := rest } byte) := by
    refine ⟨held, ?_, h.sequences, h.timestamps, h.stats⟩
    rw [← h.place, Parser.buffered, Parser.buffered, hr]
    simp only [Parser.grow, List.length_append, List.length_cons, List.length_nil]
    omega
  have single : p.setup.lookup.examine (p.buffer ++ [byte]) = .noise →
      ∃ b, (Parser.grow { p with replay := rest } byte).buffer = [b] := by
    intro noise
    refine ⟨byte, ?_⟩
    show p.buffer ++ [byte] = [byte]
    rw [Lookup.eq_nil_of_examine_noise waited noise]
    rfl
  have begun : p.buffer ++ [byte] ≠ [] :=
    List.append_ne_nil_of_right_ne_nil _ (List.cons_ne_nil _ _)
  obtain ⟨agrees, log⟩ := grown.settle stage (p.setup.lookup.examine (p.buffer ++ [byte]))
    single begun fun f found => Lookup.length_of_examine_frame waited found
  refine ⟨_, stepped ▸ agrees, ?_, ?_⟩
  · rw [Parser.reported_eq coherent]
    exact log
  · by_cases found : p.setup.lookup.examine (p.buffer ++ [byte]) = .wait
    · show scan p.setup stream (s.step p.setup _) = _
      rw [found]
      rfl
    · have same : p.setup.lookup.examine (stream.drop s.place)
          = p.setup.lookup.examine (p.buffer ++ [byte]) := by
        rw [held, Lookup.examine_append found]
      show scan p.setup stream (s.step p.setup _) = _
      rw [← same, scan_step]

/-- Once nothing waits to be read again, the scan has come to its end. -/
theorem drain (h : Agrees stream s p) (coherent : p.Coherent) :
    Agrees stream (scan p.setup stream s) p.drain ∧
      (scan p.setup stream s).log = s.log ++ p.drainLog stream.length := by
  induction p using Parser.drain.induct generalizing s with
  | case1 p hr =>
    have ended : p.setup.lookup.examine (stream.drop s.place) = .wait := by
      rw [h.held, hr, List.append_nil]
      exact coherent.examine
    rw [scan_of_wait ended, Parser.drain_of_nil hr, Parser.drainLog_of_nil hr, List.append_nil]
    exact ⟨h, rfl⟩
  | case2 p byte rest hr ih =>
    have hplace : stream.length - p.buffered = s.place := by
      rw [← h.place]
      exact Nat.add_sub_cancel ..
    have coherent' : ({ p with replay := rest } : Parser).Coherent := coherent
    obtain ⟨s', agrees, log, same⟩ := h.step coherent hr
    have setup := Parser.setup_step coherent' byte
    have rest := ih agrees (Parser.coherent_step coherent' byte)
    rw [setup, same] at rest
    rw [Parser.drain_of_cons hr, Parser.drainLog_of_cons hr, hplace, ← List.append_assoc, ← log]
    exact rest

/-- A byte that comes in waits like the others. -/
theorem receive (h : Agrees stream s p) (idle : p.replay = []) (byte : UInt8) :
    Agrees (stream ++ [byte]) s { p with replay := [byte] } := by
  have hplace := h.place
  have hle : s.place ≤ stream.length := by omega
  refine ⟨?_, ?_, h.sequences, h.timestamps, h.stats⟩
  · rw [List.drop_append_of_le_length hle, h.held, idle, List.append_nil]
  · rw [List.length_append, ← hplace, Parser.buffered, Parser.buffered, idle]
    rfl

/-- The parser agrees with the scan of its stream after every byte. -/
theorem push (h : Agrees stream (scan p.setup stream s) p) (coherent : p.Coherent)
    (idle : p.replay = []) (bytes : Bytes) :
    Agrees (stream ++ bytes) (scan p.setup (stream ++ bytes) s) (p.push bytes) ∧
      (scan p.setup (stream ++ bytes) s).log
        = (scan p.setup stream s).log ++ p.pushLog stream.length bytes := by
  induction bytes generalizing p stream with
  | nil =>
    rw [List.append_nil]
    exact ⟨h, (List.append_nil _).symm⟩
  | cons byte bytes ih =>
    have same : ({ p with replay := [] } : Parser) = p := by
      cases p
      cases idle
      rfl
    have hlen : (stream ++ [byte]).length = stream.length + 1 := List.length_append
    have hheld : (stream ++ [byte]).length - ({ p with replay := [byte] } : Parser).buffered
        = stream.length - p.buffered := by
      rw [hlen, Parser.buffered, Parser.buffered, idle]
      exact Nat.add_sub_add_right ..
    obtain ⟨agrees, log⟩ := (h.receive idle byte).drain coherent
    rw [Parser.drain_of_cons rfl, same, scan_append] at agrees
    rw [Parser.drainLog_of_cons rfl, hheld, same, scan_append, hlen] at log
    have setup : (p.step byte).drain.setup = p.setup := by
      rw [Parser.setup_drain (Parser.coherent_step coherent byte), Parser.setup_step coherent]
    have coherent := Parser.coherent_drain (Parser.coherent_step coherent byte)
    obtain ⟨agrees', log'⟩ := ih (setup.symm ▸ agrees) coherent (Parser.replay_drain _)
    rw [setup, List.append_assoc] at agrees' log'
    rw [hlen, log] at log'
    refine ⟨agrees', log'.trans ?_⟩
    rw [Parser.pushLog, List.append_assoc, List.append_assoc]

/-- The events that wait in the queue do not matter. -/
theorem withEvents (h : Agrees stream s p) (events : List ParserEvent) :
    Agrees stream s { p with events := events } :=
  ⟨h.held, h.place, h.sequences, h.timestamps, h.stats⟩

end Agrees

namespace Run

/-- The parser has reported what a scan of its stream finds, and agrees with it. -/
structure Follows (setup : ParserSetup) (r : Run) : Prop where
  agrees : Agrees r.stream (scan setup r.stream {}) r.parser
  log : r.log = (scan setup r.stream {}).log

theorem Follows.read {setup : ParserSetup} {r : Run} (h : Follows setup r)
    (account : Accounted setup r) (bytes : Bytes) : Follows setup (r.read bytes) := by
  obtain ⟨setup, coherent, idle⟩ := account
  subst setup
  obtain ⟨agrees, log⟩ := h.agrees.push coherent idle bytes
  refine ⟨agrees, ?_⟩
  rw [← h.log] at log
  exact log.symm

theorem Follows.answer {setup : ParserSetup} {r : Run} (h : Follows setup r)
    (account : Accounted setup r) (call : Call) : Follows setup (r.answer call) := by
  obtain ⟨agrees, log⟩ := h.read account call.bytes
  obtain ⟨events, parser, -, -, same, stream⟩ := r.exists_answer call
  refine ⟨?_, ?_⟩
  · rw [stream, parser]
    exact agrees.withEvents events
  · rw [stream, same]
    exact log

theorem follows_start (setup : ParserSetup) : Follows setup (start setup) := by
  have ended : scan setup [] {} = {} := scan_of_wait rfl
  refine ⟨?_, ?_⟩
  · show Agrees [] (scan setup [] {}) (.start setup)
    rw [ended]
    exact ⟨rfl, rfl, rfl, rfl, rfl⟩
  · show [] = (scan setup [] {}).log
    rw [ended]

theorem follows_ofCalls (setup : ParserSetup) (calls : List Call) :
    Follows setup (ofCalls setup calls) := by
  have both : Accounted setup (ofCalls setup calls) ∧ Follows setup (ofCalls setup calls) := by
    apply ofCalls_induction (P := fun r => Accounted setup r ∧ Follows setup r)
    · exact ⟨accounted_start setup, follows_start setup⟩
    · rintro r call ⟨account, follows⟩
      exact ⟨account.answer call, follows.answer account call⟩
  exact both.2

/-- A run has read what was brought to it. -/
theorem stream_foldl {α : Type} {f : Run → α → Run} {brings : α → Bytes}
    (reads : ∀ r a, (f r a).stream = r.stream ++ brings a) (l : List α) (r : Run) :
    (l.foldl f r).stream = r.stream ++ l.flatMap brings := by
  induction l generalizing r with
  | nil => exact (List.append_nil _).symm
  | cons a l ih => rw [List.foldl_cons, ih, reads, List.flatMap_cons, List.append_assoc]

theorem stream_answer (r : Run) (call : Call) :
    (r.answer call).stream = r.stream ++ call.bytes := by
  obtain ⟨-, -, -, -, -, read⟩ := r.exists_answer call
  exact read

theorem stream_ofCalls (setup : ParserSetup) (calls : List Call) :
    (ofCalls setup calls).stream = calls.flatMap Call.bytes :=
  stream_foldl stream_answer calls (start setup)

/-- **The parser scans its stream.**  However the stream is cut and whenever events are
taken, the parser has reported what a scan of the bytes it was given finds, in that order;
it knows the senders, the timestamps and the counts that the scan knows, and holds the
bytes before which the scan stopped.  What it reported was handed out, is in the queue, or
is counted as dropped. -/
theorem follows_scan (setup : ParserSetup) (calls : List Call) :
    let r := ofCalls setup calls
    let s := scan setup (calls.flatMap Call.bytes) {}
    r.log = s.log ∧
    r.parser.sequences = s.sequences ∧
    r.parser.timestamps = s.timestamps ∧
    { r.parser.stats with droppedEvents := 0 } = s.stats ∧
    s.place + r.parser.buffered = (calls.flatMap Call.bytes).length ∧
    (r.taken ++ r.parser.events).Sublist s.events ∧
    (r.taken ++ r.parser.events).length + r.parser.stats.droppedEvents = s.events.length := by
  intro r s
  obtain ⟨⟨-, place, sequences, timestamps, stats⟩, log⟩ := follows_ofCalls setup calls
  obtain ⟨-, -, -, -, kept, dropped⟩ := accounted_ofCalls setup calls
  rw [stream_ofCalls] at log place sequences timestamps stats
  have events : r.log.map (·.2) = s.events := congrArg (List.map (·.2)) log
  refine ⟨log, sequences, timestamps, stats, place, ?_, ?_⟩
  · rw [← events]
    exact kept
  · rw [← events, List.length_map]
    exact dropped

end Run
end Mavlink
