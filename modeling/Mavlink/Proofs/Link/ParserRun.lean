import Mavlink.Proofs.Link.ParserStep

/-!
# Running a parser

What a parser reports goes to a queue of limited length, from which its caller takes
events or loses them.  To speak of all that was ever reported, a run keeps a log beside
the parser.  The log is read off the steps of the parser itself: what a step reports is
what it leaves in an empty queue that has room for it.  Each report is logged with the
place in the stream where the candidate begins; that is where the bytes begin that the
parser holds.

* `Parser.queued_step` --- a queue holds the newest reports, and counts those that gave
  way to them;
* `Run.accounted_ofCalls` --- the log is what was handed to the caller and what is in the
  queue, with as many reports between as were dropped.
-/

namespace Mavlink

/-- The last elements of a list, at most so many. -/
def newest {α : Type} (n : Nat) (l : List α) : List α := l.drop (l.length - n)

theorem newest_of_length_le {α : Type} {n : Nat} {l : List α} (h : l.length ≤ n) :
    newest n l = l := by
  rw [newest, Nat.sub_eq_zero_of_le h]
  rfl

theorem length_newest {α : Type} (n : Nat) (l : List α) :
    (newest n l).length = min n l.length := by
  rw [newest, List.length_drop]
  omega

theorem newest_newest_append {α : Type} (n : Nat) (l m : List α) :
    newest n (newest n l ++ m) = newest n (l ++ m) := by
  have hlen := length_newest n l
  have hdrop : newest n l ++ m = (l ++ m).drop (l.length - n) := by
    rw [newest, List.drop_append_of_le_length (Nat.sub_le _ _)]
  show (newest n l ++ m).drop ((newest n l ++ m).length - n) = (l ++ m).drop ((l ++ m).length - n)
  rw [List.length_append, hlen, hdrop, List.drop_drop, List.length_append]
  congr 1
  omega

namespace Parser

/-! ## The queue -/

/-- The events that are kept at most. -/
def room (p : Parser) : Nat := max p.setup.eventCapacity 1

/-- `q` has the queue of `p` after more events: the newest of them all are kept, and those
that gave way are counted. -/
structure Queued (p q : Parser) (new : List ParserEvent) : Prop where
  setup : q.setup = p.setup
  events : q.events = newest p.room (p.events ++ new)
  dropped : q.stats.droppedEvents
    = p.stats.droppedEvents + ((p.events ++ new).length - p.room)

theorem Queued.of_same {p q : Parser} (setup : q.setup = p.setup) (events : q.events = p.events)
    (dropped : q.stats.droppedEvents = p.stats.droppedEvents) (fits : p.events.length ≤ p.room) :
    Queued p q [] := by
  refine ⟨setup, ?_, ?_⟩
  · rw [List.append_nil, newest_of_length_le fits, events]
  · rw [List.append_nil, Nat.sub_eq_zero_of_le fits, dropped]
    rfl

theorem Queued.trans {p q r : Parser} {a b : List ParserEvent} (hq : Queued p q a)
    (hr : Queued q r b) : Queued p r (a ++ b) := by
  have hroom : q.room = p.room := by rw [room, room, hq.setup]
  refine ⟨hr.setup.trans hq.setup, ?_, ?_⟩
  · rw [hr.events, hq.events, hroom, newest_newest_append, List.append_assoc]
  · have hkept := length_newest p.room (p.events ++ a)
    have hall : (p.events ++ (a ++ b)).length = (p.events ++ a).length + b.length := by
      rw [← List.append_assoc, List.length_append]
    have hrest : (q.events ++ b).length = min p.room (p.events ++ a).length + b.length := by
      rw [List.length_append, hq.events, hkept]
    rw [hr.dropped, hq.dropped, hroom, hall, hrest]
    omega

theorem queued_emit (p : Parser) (e : ParserEvent) : Queued p (p.emit e) [e] := by
  have hlen : (p.events ++ [e]).length = p.events.length + 1 := List.length_append
  have hpos : 1 ≤ p.room := Nat.le_max_right ..
  refine ⟨rfl, ?_, ?_⟩
  · rw [newest, hlen, List.drop_append_of_le_length (by omega)]
    rfl
  · rw [hlen]
    rfl

/-- What is reported of the frames lost before a frame. -/
def losses (p : Parser) (f : Frame) : List ParserEvent :=
  if p.setup.trackSequences then
    ((p.sequences.track f.sender f.header.sequence).1.map (.packetLoss f.sender ·)).toList
  else []

/-- What is reported when the parser settles a finding. -/
def reports (p : Parser) : Finding → List ParserEvent
  | .wait => []
  | .noise => []
  | .fault e => [.error e]
  | .frame f =>
    match p.verify f with
    | none => [.error (.badSignature f.messageId)]
    | some _ => p.losses f ++ [.frame f]

theorem reports_refused {p : Parser} {f : Frame} (h : p.verify f = none) :
    p.reports (.frame f) = [.error (.badSignature f.messageId)] := by
  simp only [reports, h]

theorem reports_accepted {p : Parser} {f : Frame}
    {timestamps : Dictionary SigningStream Timestamp} (h : p.verify f = some timestamps) :
    p.reports (.frame f) = p.losses f ++ [.frame f] := by
  simp only [reports, h]

theorem queued_reject (p : Parser) (e : DecodeError) : Queued p (p.reject e) [.error e] := by
  have h := queued_emit { p with
    replay := p.buffer.drop 1 ++ p.replay
    buffer := []
    stage := .seek
    stats := { p.stats.countRejected e with
      skippedBytes := p.stats.skippedBytes + 1 } } (.error e)
  have hdropped : (p.stats.countRejected e).droppedEvents = p.stats.droppedEvents := by
    cases e <;> rfl
  refine ⟨rfl, h.events, ?_⟩
  rw [← hdropped]
  exact h.dropped

theorem queued_deliver (p : Parser) (f : Frame) : Queued p (p.deliver f) [.frame f] := by
  have h := queued_emit { p with stats := { p.stats with frames := p.stats.frames + 1 } } (.frame f)
  exact ⟨rfl, h.events, h.dropped⟩

theorem queued_noteSequence (p : Parser) (f : Frame) (fits : p.events.length ≤ p.room) :
    Queued p (p.noteSequence f) (p.losses f) := by
  unfold noteSequence losses
  cases p.setup.trackSequences with
  | false => exact .of_same rfl rfl rfl fits
  | true =>
    simp only [if_true]
    obtain ⟨lost, sequences⟩ := p.sequences.track f.sender f.header.sequence
    cases lost with
    | none => exact .of_same rfl rfl rfl fits
    | some lost =>
      have h := queued_emit { p with
        sequences := sequences
        stats := { p.stats with lostPackets := p.stats.lostPackets + lost } }
        (.packetLoss f.sender lost)
      exact ⟨rfl, h.events, h.dropped⟩

/-- The queue after a finding is settled. -/
theorem queued_settle (p : Parser) (stage : ParserStage) (finding : Finding)
    (fits : p.events.length ≤ p.room) :
    Queued p (p.settle stage finding) (p.reports finding) := by
  cases finding with
  | wait => exact .of_same rfl rfl rfl fits
  | noise => exact .of_same rfl rfl rfl fits
  | fault e => exact queued_reject p e
  | frame f =>
    cases hv : p.verify f with
    | none =>
      rw [settle_refused hv, reports_refused hv]
      exact queued_reject p _
    | some timestamps =>
      rw [settle_accepted hv, reports_accepted hv]
      have h := queued_noteSequence
        { p with buffer := [], stage := .seek, timestamps := timestamps } f fits
      have h : Queued p _ (p.losses f) := ⟨h.setup, h.events, h.dropped⟩
      exact h.trans (queued_deliver _ f)

/-! ## The log -/

/-- The parser with an empty queue, in which there is room for all that a step reports. -/
def watched (p : Parser) : Parser :=
  { p with events := [], setup := { p.setup with eventCapacity := 2 } }

/-- What reading a byte reports. -/
def reported (p : Parser) (byte : UInt8) : List ParserEvent := (p.watched.step byte).events

theorem length_reports_le (p : Parser) (finding : Finding) : (p.reports finding).length ≤ 2 := by
  unfold reports
  split
  · exact Nat.zero_le _
  · exact Nat.zero_le _
  · exact Nat.le_succ 1
  · split
    · exact Nat.le_succ 1
    · unfold losses
      split
      · cases (p.sequences.track _ _).1 <;> simp
      · simp

/-- A step reports what the finding that it settles amounts to. -/
theorem reported_eq {p : Parser} (coherent : p.Coherent) (byte : UInt8) :
    p.reported byte = p.reports (p.setup.lookup.examine (p.buffer ++ [byte])) := by
  have watching : p.watched.Coherent := coherent
  obtain ⟨stage, stepped, -⟩ := step_eq watching byte
  have queued := queued_settle (p.watched.grow byte) stage
    (p.setup.lookup.examine (p.buffer ++ [byte])) (Nat.zero_le _)
  rw [reported, stepped]
  refine queued.events.trans ?_
  exact newest_of_length_le (length_reports_le p _)

/-- A step keeps the newest reports in the queue. -/
theorem queued_step {p : Parser} (coherent : p.Coherent) (fits : p.events.length ≤ p.room)
    (byte : UInt8) : Queued p (p.step byte) (p.reported byte) := by
  obtain ⟨stage, stepped, -⟩ := step_eq coherent byte
  have queued := queued_settle (p.grow byte) stage
    (p.setup.lookup.examine (p.buffer ++ [byte])) fits
  rw [stepped, reported_eq coherent]
  exact ⟨queued.setup, queued.events, queued.dropped⟩

/-- What is reported while the bytes that wait are read again, each with the place where its
candidate begins; `received` bytes of the stream have come. -/
def drainLog (received : Nat) (p : Parser) : List (Nat × ParserEvent) :=
  match _h : p.replay with
  | [] => []
  | byte :: rest =>
    (reported { p with replay := rest } byte).map (received - p.buffered, ·)
      ++ drainLog received ({ p with replay := rest }.step byte)
termination_by (p.buffered, p.replay.length)
decreasing_by
  have held := buffered_of_replay _h
  rcases step_moves { p with replay := rest } byte with lt | ⟨eq, same⟩
  · exact Prod.Lex.left _ _ (by omega)
  · rw [eq, same, held, _h]
    exact Prod.Lex.right _ (Nat.lt_succ_self _)

theorem drainLog_of_nil {p : Parser} (h : p.replay = []) (received : Nat) :
    p.drainLog received = [] := by
  rw [drainLog]
  split
  · rfl
  · next heq => rw [h] at heq; cases heq

theorem drainLog_of_cons {p : Parser} {byte : UInt8} {rest : Bytes} (h : p.replay = byte :: rest)
    (received : Nat) :
    p.drainLog received = (reported { p with replay := rest } byte).map (received - p.buffered, ·)
      ++ drainLog received ({ p with replay := rest }.step byte) := by
  rw [drainLog]
  split
  · next heq => rw [h] at heq; cases heq
  · next heq =>
    rw [h] at heq
    cases heq
    rfl

theorem map_snd_map_prod (n : Nat) (events : List ParserEvent) :
    (events.map (n, ·)).map (·.2) = events := by
  rw [List.map_map]
  exact List.map_id _

theorem Queued.fits {p q : Parser} {new : List ParserEvent} (h : Queued p q new) :
    q.events.length ≤ q.room := by
  have hroom : q.room = p.room := by rw [room, room, h.setup]
  rw [hroom, h.events, length_newest]
  exact Nat.min_le_left ..

theorem queued_drain {p : Parser} (coherent : p.Coherent) (fits : p.events.length ≤ p.room)
    (received : Nat) : Queued p p.drain ((p.drainLog received).map (·.2)) := by
  induction p using drain.induct with
  | case1 p h =>
    rw [drain_of_nil h, drainLog_of_nil h]
    exact .of_same rfl rfl rfl fits
  | case2 p byte rest h ih =>
    have coherent : ({ p with replay := rest } : Parser).Coherent := coherent
    have stepped := queued_step coherent fits byte
    rw [drain_of_cons h, drainLog_of_cons h, List.map_append, map_snd_map_prod]
    have first : Queued p _ _ := ⟨stepped.setup, stepped.events, stepped.dropped⟩
    exact first.trans (ih (coherent_step coherent byte) stepped.fits)

/-- What is reported while bytes are read. -/
def pushLog (received : Nat) (p : Parser) : Bytes → List (Nat × ParserEvent)
  | [] => []
  | byte :: bytes =>
    (p.reported byte).map (received - p.buffered, ·) ++ (p.step byte).drainLog (received + 1)
      ++ pushLog (received + 1) (p.step byte).drain bytes

/-- The queue after bytes were read. -/
theorem queued_push {p : Parser} (coherent : p.Coherent) (fits : p.events.length ≤ p.room)
    (received : Nat) (bytes : Bytes) :
    Queued p (p.push bytes) ((p.pushLog received bytes).map (·.2)) := by
  induction bytes generalizing p received with
  | nil => exact .of_same rfl rfl rfl fits
  | cons byte bytes ih =>
    have stepped := queued_step coherent fits byte
    have again := queued_drain (coherent_step coherent byte) stepped.fits (received + 1)
    have rest := ih (coherent_drain (coherent_step coherent byte)) again.fits (received + 1)
    rw [push_cons, pushLog, List.map_append, List.map_append, map_snd_map_prod]
    exact (stepped.trans again).trans rest

/-- An event is taken from the front of the queue, if there is one. -/
theorem exists_takeEvent (p : Parser) : ∃ events, p.takeEvent.2 = { p with events := events } ∧
    p.takeEvent.1.toList ++ events = p.events := by
  obtain ⟨setup, stage, buffer, replay, events, sequences, timestamps, stats⟩ := p
  cases events with
  | nil => exact ⟨[], rfl, rfl⟩
  | cons event events => exact ⟨events, rfl, rfl⟩

end Parser

/-- What a caller asks of a parser. -/
inductive Call where
  | push (bytes : Bytes)
  | feed (bytes : Bytes)
  /-- The next event. -/
  | next

/-- The bytes that a call brings. -/
def Call.bytes : Call → Bytes
  | .push bytes => bytes
  | .feed bytes => bytes
  | .next => []

/-- A parser, and what has happened to it. -/
structure Run where
  parser : Parser
  /-- The bytes it has read. -/
  stream : Bytes
  /-- All that it ever reported, each report with the place where its candidate begins. -/
  log : List (Nat × ParserEvent)
  /-- The events that were handed to the caller. -/
  taken : List ParserEvent

namespace Run

/-- A parser that has read nothing. -/
def start (setup : ParserSetup) : Run := ⟨.start setup, [], [], []⟩

/-- Lets the parser read bytes. -/
def read (r : Run) (bytes : Bytes) : Run where
  parser := r.parser.push bytes
  stream := r.stream ++ bytes
  log := r.log ++ r.parser.pushLog r.stream.length bytes
  taken := r.taken

/-- Answers a call. -/
def answer (r : Run) : Call → Run
  | .push bytes => r.read bytes
  | .feed bytes => { r.read bytes with
      parser := (r.parser.feed bytes).2
      taken := r.taken ++ (r.parser.feed bytes).1 }
  | .next => { r with
      parser := r.parser.takeEvent.2
      taken := r.taken ++ r.parser.takeEvent.1.toList }

/-- A parser that has answered calls. -/
def ofCalls (setup : ParserSetup) (calls : List Call) : Run := calls.foldl answer (start setup)

/-- What holds at the start and is kept by every call holds of every run. -/
theorem ofCalls_induction {setup : ParserSetup} {P : Run → Prop} (started : P (start setup))
    (answered : ∀ r call, P r → P (r.answer call)) (calls : List Call) :
    P (ofCalls setup calls) := by
  have run : ∀ r, P r → P (calls.foldl answer r) := by
    induction calls with
    | nil => exact fun r h => h
    | cons call calls ih => exact fun r h => ih _ (answered r call h)
  exact run _ started

/-- A call reads the bytes that it brings, and then takes events from the front of the queue. -/
theorem exists_answer (r : Run) (call : Call) :
    ∃ events, (r.answer call).parser = { (r.read call.bytes).parser with events := events } ∧
      (r.answer call).taken ++ events
        = (r.read call.bytes).taken ++ (r.read call.bytes).parser.events ∧
      events.length ≤ (r.read call.bytes).parser.events.length ∧
      (r.answer call).log = (r.read call.bytes).log ∧
      (r.answer call).stream = (r.read call.bytes).stream := by
  cases call with
  | push bytes => exact ⟨_, rfl, rfl, Nat.le_refl _, rfl, rfl⟩
  | feed bytes => exact ⟨[], rfl, List.append_nil _, Nat.zero_le _, rfl, rfl⟩
  | next =>
    have log : (r.read Call.next.bytes).log = r.log := List.append_nil _
    have stream : (r.read Call.next.bytes).stream = r.stream := List.append_nil _
    have parser : (r.read Call.next.bytes).parser = r.parser := rfl
    have taken : (r.read Call.next.bytes).taken = r.taken := rfl
    obtain ⟨events, left, front⟩ := r.parser.exists_takeEvent
    rw [log, stream, parser, taken, ← front]
    exact ⟨events, left, List.append_assoc .., List.length_append ▸ Nat.le_add_left .., rfl, rfl⟩

/-- What holds between two calls: the stage fits the candidate, nothing waits to be read
again, the queue is not too long, and what was handed to the caller or is in the queue has
been reported. -/
structure Steady (setup : ParserSetup) (r : Run) : Prop where
  setup : r.parser.setup = setup
  coherent : r.parser.Coherent
  idle : r.parser.replay = []
  fits : r.parser.events.length ≤ r.parser.room
  kept : (r.taken ++ r.parser.events).Sublist (r.log.map (·.2))

theorem steady_start (setup : ParserSetup) : Steady setup (start setup) :=
  ⟨rfl, Parser.coherent_start setup, rfl, Nat.zero_le _, .slnil⟩

theorem Steady.read {setup : ParserSetup} {r : Run} (h : Steady setup r) (bytes : Bytes) :
    Steady setup (r.read bytes) := by
  have queued := Parser.queued_push h.coherent h.fits r.stream.length bytes
  have hlog : (r.read bytes).log = r.log ++ r.parser.pushLog r.stream.length bytes := rfl
  have htaken : (r.read bytes).taken = r.taken := rfl
  have hparser : (r.read bytes).parser = r.parser.push bytes := rfl
  refine ⟨queued.setup.trans h.setup, Parser.coherent_push h.coherent bytes,
    Parser.replay_push h.idle bytes, queued.fits, ?_⟩
  rw [hlog, htaken, hparser, queued.events, List.map_append]
  refine ((List.drop_sublist _ _).append_left r.taken).trans ?_
  rw [← List.append_assoc]
  exact h.kept.append_right _

theorem Steady.answer {setup : ParserSetup} {r : Run} (h : Steady setup r) (call : Call) :
    Steady setup (r.answer call) := by
  obtain ⟨setup', coherent, idle, fits, kept⟩ := h.read call.bytes
  obtain ⟨events, parser, moved, short, log, -⟩ := r.exists_answer call
  refine ⟨?_, ?_, ?_, ?_, ?_⟩ <;> rw [parser]
  · exact setup'
  · exact coherent
  · exact idle
  · exact Nat.le_trans short fits
  · rw [moved, log]
    exact kept

/-- What also holds as long as the parser is not reset: every report was handed to the
caller, is in the queue, or was dropped and counted. -/
structure Accounted (setup : ParserSetup) (r : Run) : Prop where
  setup : r.parser.setup = setup
  coherent : r.parser.Coherent
  idle : r.parser.replay = []
  fits : r.parser.events.length ≤ r.parser.room
  kept : (r.taken ++ r.parser.events).Sublist (r.log.map (·.2))
  dropped : (r.taken ++ r.parser.events).length + r.parser.stats.droppedEvents = r.log.length

theorem Steady.accounted {setup : ParserSetup} {r : Run} (h : Steady setup r)
    (dropped : (r.taken ++ r.parser.events).length + r.parser.stats.droppedEvents
      = r.log.length) : Accounted setup r :=
  ⟨h.setup, h.coherent, h.idle, h.fits, h.kept, dropped⟩

theorem Accounted.steady {setup : ParserSetup} {r : Run} (h : Accounted setup r) :
    Steady setup r := ⟨h.setup, h.coherent, h.idle, h.fits, h.kept⟩

theorem Accounted.read {setup : ParserSetup} {r : Run} (h : Accounted setup r) (bytes : Bytes) :
    Accounted setup (r.read bytes) := by
  refine (h.steady.read bytes).accounted ?_
  have queued := Parser.queued_push h.coherent h.fits r.stream.length bytes
  have hlog : (r.read bytes).log = r.log ++ r.parser.pushLog r.stream.length bytes := rfl
  have htaken : (r.read bytes).taken = r.taken := rfl
  have hparser : (r.read bytes).parser = r.parser.push bytes := rfl
  have hold := h.dropped
  have hkept := length_newest r.parser.room
    (r.parser.events ++ (r.parser.pushLog r.stream.length bytes).map (·.2))
  rw [List.length_append] at hold
  rw [hlog, htaken, hparser, List.length_append, queued.events, queued.dropped, hkept,
    List.length_append, List.length_append, List.length_map]
  omega

theorem Accounted.answer {setup : ParserSetup} {r : Run} (h : Accounted setup r) (call : Call) :
    Accounted setup (r.answer call) := by
  refine (h.steady.answer call).accounted ?_
  obtain ⟨events, parser, moved, -, log, -⟩ := r.exists_answer call
  rw [parser, moved, log]
  exact (h.read call.bytes).dropped

theorem accounted_start (setup : ParserSetup) : Accounted setup (start setup) :=
  (steady_start setup).accounted rfl

theorem accounted_ofCalls (setup : ParserSetup) (calls : List Call) :
    Accounted setup (ofCalls setup calls) :=
  ofCalls_induction (accounted_start setup) (fun _ call h => h.answer call) calls

end Run
end Mavlink
