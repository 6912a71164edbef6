import Mathlib
import Mavlink.Proofs.Link.Conservation
import Mavlink.Proofs.Link.Resynchronization
import Mavlink.Stream.FrameReader

/-!
# What a reader receives

A reader asks its source for bytes only when its parser has no event left, so the events of
one delivery are all handed out before the next one is read.  One delivery cannot make the
parser forget an event: every report is paid for with a byte, at most 512 bytes come at once
and fewer than 280 were held, and a queue of 1024 has room for as many reports
(`Ready.push`).  Therefore nothing is lost between the source and the caller, whatever the
sizes of the deliveries and wherever reading is interrupted or fails.

What the caller is told is written down delivery by delivery (`transcript`), and compared
with the answers on the one side and with a run of the parser on the other.

* `FrameReader.answers_transcript` --- the answers to receptions are those of the
  transcript, and then that the stream has ended;
* `Run.taken_feeds` --- the events of the transcript are those that a caller takes who feeds
  the parser with the deliveries himself;
* `FrameReader.Ready.recv` --- the parser of a reader always has room for what the next
  delivery makes it report;
* `FrameReader.receives_stream` --- so a reader tells just what a parser with an unlimited
  queue reports of the whole stream.
-/

namespace Mavlink

namespace FrameReader

/-- The answers to so many receptions one after another, and the reader after them. -/
def receive : Nat → FrameReader → List (Except TransferError ParserEvent) × FrameReader
  | 0, r => ([], r)
  | n + 1, r => (r.recv.1 :: (receive n r.recv.2).1, (receive n r.recv.2).2)

/-- Whether an answer is that reading has failed. -/
def isFailure : Except TransferError ParserEvent → Bool
  | .error .readFailed => true
  | _ => false

/-! ## One reception -/

section Reception

variable {source : Source} {pending : List Delivery} {p : Parser}

/-- An event that is left is handed out. -/
theorem recv_of_event {event : ParserEvent} {events : List ParserEvent}
    (left : p.events = event :: events) :
    recv ⟨source, p⟩ = (.ok event, ⟨source, { p with events := events }⟩) := by
  rw [recv, await]
  simp only [Parser.takeEvent, left]

theorem recv_of_ended (idle : p.events = []) :
    recv ⟨⟨[], false⟩, p⟩ = (.error .endOfStream, ⟨⟨[], false⟩, p⟩) := by
  rw [recv, await]
  simp only [Parser.takeEvent, idle]
  rfl

/-- An interruption means nothing. -/
theorem recv_of_interrupted (idle : p.events = []) :
    recv ⟨⟨.interrupted :: pending, false⟩, p⟩ = recv ⟨⟨pending, false⟩, p⟩ := by
  rw [recv, await]
  simp only [Parser.takeEvent, idle]

theorem recv_of_failed (idle : p.events = []) :
    recv ⟨⟨.failed :: pending, false⟩, p⟩ = (.error .readFailed, ⟨⟨pending, false⟩, p⟩) := by
  rw [recv, await]
  simp only [Parser.takeEvent, idle]

theorem recv_of_bytes (idle : p.events = []) {chunk : Bytes} (some_bytes : chunk ≠ []) :
    recv ⟨⟨.bytes chunk :: pending, false⟩, p⟩ = recv ⟨⟨pending, false⟩, p.push chunk⟩ := by
  obtain ⟨byte, rest, rfl⟩ := List.exists_cons_of_ne_nil some_bytes
  rw [recv, await]
  simp only [Parser.takeEvent, idle]

end Reception

/-! ## All receptions -/

/-- Readers with the same next reception receive the same. -/
theorem receive_congr {r s : FrameReader} (h : r.recv = s.recv) (n : Nat) :
    (receive n r).1 = (receive n s).1 := by
  cases n with
  | zero => rfl
  | succ n => rw [receive, receive, h]

/-- The events that are left are handed out first. -/
theorem receive_events (source : Source) (p : Parser) (n : Nat) :
    (receive (p.events.length + n) ⟨source, p⟩).1
      = p.events.map .ok ++ (receive n ⟨source, { p with events := [] }⟩).1 := by
  generalize left : p.events = events
  induction events generalizing p with
  | nil =>
    have same : ({ p with events := [] } : Parser) = p := by
      cases p
      cases left
      rfl
    rw [same, List.length_nil, Nat.zero_add]
    rfl
  | cons event events ih =>
    have rest := ih { p with events := events } rfl
    rw [List.length_cons, Nat.add_right_comm, receive, recv_of_event left, rest]
    rfl

/-- At the end of the stream there is nothing else to be told. -/
theorem receive_ended {p : Parser} (idle : p.events = []) (n : Nat) :
    (receive n ⟨⟨[], false⟩, p⟩).1 = List.replicate n (.error .endOfStream) := by
  induction n with
  | zero => rfl
  | succ n ih => rw [receive, recv_of_ended idle, ih, List.replicate_succ]

/-- What a caller is told who goes on receiving as long as there are deliveries. -/
def transcript : Parser → List Delivery → List (Except TransferError ParserEvent)
  | _, [] => []
  | p, .interrupted :: pending => transcript p pending
  | p, .failed :: pending => .error .readFailed :: transcript p pending
  | p, .bytes chunk :: pending =>
    (p.feed chunk).1.map .ok ++ transcript (p.feed chunk).2 pending

/-- The answers to receptions are those of the transcript, and then that the stream has
ended. -/
theorem answers_transcript {pending : List Delivery} {p : Parser} (idle : p.events = [])
    (some_bytes : .bytes [] ∉ pending) (n : Nat) :
    (receive ((transcript p pending).length + n) ⟨⟨pending, false⟩, p⟩).1
      = transcript p pending ++ List.replicate n (.error .endOfStream) := by
  induction pending generalizing p with
  | nil =>
    rw [transcript, List.length_nil, Nat.zero_add]
    exact receive_ended idle n
  | cons delivery pending ih =>
    have later : .bytes [] ∉ pending := List.not_mem_of_not_mem_cons some_bytes
    cases delivery with
    | interrupted =>
      rw [transcript, receive_congr (recv_of_interrupted idle)]
      exact ih idle later
    | failed =>
      rw [transcript, List.length_cons, Nat.add_right_comm, receive, recv_of_failed idle,
        ih idle later]
      rfl
    | bytes chunk =>
      have here : chunk ≠ [] := by
        rintro rfl
        exact some_bytes List.mem_cons_self
      have rest := ih (p := (p.feed chunk).2) rfl later
      rw [transcript, List.length_append, List.length_map, Nat.add_assoc,
        receive_congr (recv_of_bytes idle here), List.append_assoc, ← rest]
      exact receive_events _ (p.push chunk) _

/-- A caller is told of every failure. -/
theorem countP_transcript (p : Parser) (pending : List Delivery) :
    (transcript p pending).countP isFailure = pending.count .failed := by
  induction pending generalizing p with
  | nil => rfl
  | cons delivery pending ih =>
    cases delivery with
    | interrupted =>
      have other : Delivery.interrupted ≠ .failed := nofun
      rw [transcript, ih, List.count_cons_of_ne other]
    | failed =>
      rw [transcript, List.countP_cons_of_pos rfl, ih, List.count_cons_self]
    | bytes chunk =>
      have events : ((p.feed chunk).1.map Except.ok).countP isFailure = 0 := by
        simp [List.countP_map, isFailure, Function.comp_def]
      have other : Delivery.bytes chunk ≠ .failed := nofun
      rw [transcript, List.countP_append, events, Nat.zero_add, ih, List.count_cons_of_ne other]

theorem length_transcript (p : Parser) (pending : List Delivery) :
    (transcript p pending).length
      = ((transcript p pending).filter (!isFailure ·)).length + pending.count .failed := by
  rw [← countP_transcript p pending, ← List.countP_eq_length_filter,
    List.length_eq_countP_add_countP isFailure, Nat.add_comm]
  simp only [Bool.not_eq_true, Bool.decide_eq_false]

/-! ## Nothing is dropped -/

/-- A parser that has dropped nothing, and has room for all that one delivery can make it
report. -/
structure Ready (p : Parser) : Prop where
  coherent : p.Coherent
  idle : p.replay = []
  room : 791 ≤ p.room
  fits : p.events.length ≤ p.room
  dropped : p.stats.droppedEvents = 0

namespace Ready

variable {p : Parser}

theorem start (lookup : Lookup) : Ready (.start { lookup := lookup }) :=
  ⟨.marker, rfl, show 791 ≤ max 1024 1 by decide, Nat.zero_le _, rfl⟩

/-- Fewer bytes are held than the longest frame has. -/
theorem buffered_le (h : Ready p) : p.buffered ≤ 279 := h.coherent.buffered_le h.idle

/-- Every report on a delivery is paid for with one of its bytes or of those held before. -/
theorem length_pushLog_le (h : Ready p) (received : Nat) {chunk : Bytes}
    (small : chunk.length ≤ Source.chunkSize) : (p.pushLog received chunk).length ≤ 791 := by
  have small : chunk.length ≤ 512 := small
  have paid := Parser.length_pushLog_le h.coherent received chunk
  have held := h.buffered_le
  omega

theorem push (h : Ready p) (none_left : p.events = []) {chunk : Bytes}
    (small : chunk.length ≤ Source.chunkSize) : Ready (p.push chunk) := by
  have queued := Parser.queued_push h.coherent h.fits 0 chunk
  have room : (p.push chunk).room = p.room := by rw [Parser.room, Parser.room, queued.setup]
  have few := h.length_pushLog_le 0 small
  have all_fit : (p.events ++ (p.pushLog 0 chunk).map (·.2)).length ≤ p.room := by
    rw [none_left, List.nil_append, List.length_map]
    exact few.trans h.room
  refine ⟨Parser.coherent_push h.coherent chunk, Parser.replay_push h.idle chunk,
    room.symm ▸ h.room, queued.fits, ?_⟩
  rw [queued.dropped, h.dropped, Nat.sub_eq_zero_of_le all_fit]

theorem withEvents (h : Ready p) {events : List ParserEvent}
    (fewer : events.length ≤ p.events.length) : Ready { p with events := events } :=
  ⟨h.coherent, h.idle, h.room, fewer.trans h.fits, h.dropped⟩

/-- A reader takes deliveries only when its parser has no event left, so the parser stays
ready. -/
theorem recv (h : Ready p) {pending : List Delivery}
    (sized : ∀ chunk, .bytes chunk ∈ pending → chunk ≠ [] ∧ chunk.length ≤ Source.chunkSize) :
    ∃ left q, (FrameReader.recv ⟨⟨pending, false⟩, p⟩).2 = ⟨⟨left, false⟩, q⟩ ∧ Ready q ∧
      left ⊆ pending := by
  induction pending generalizing p with
  | nil =>
    cases left : p.events with
    | nil =>
      rw [recv_of_ended left]
      exact ⟨[], p, rfl, h, List.Subset.refl _⟩
    | cons event events =>
      rw [recv_of_event left]
      exact ⟨[], _, rfl, h.withEvents (left ▸ Nat.le_succ _), List.Subset.refl _⟩
  | cons delivery pending ih =>
    have later (chunk : Bytes) (waits : .bytes chunk ∈ pending) :=
      sized chunk (List.mem_cons_of_mem _ waits)
    cases left : p.events with
    | cons event events =>
      rw [recv_of_event left]
      exact ⟨_, _, rfl, h.withEvents (left ▸ Nat.le_succ _), List.Subset.refl _⟩
    | nil =>
      cases delivery with
      | interrupted =>
        obtain ⟨rest, q, after, ready, fewer⟩ := ih h later
        rw [recv_of_interrupted left]
        exact ⟨rest, q, after, ready, List.subset_cons_of_subset _ fewer⟩
      | failed =>
        rw [recv_of_failed left]
        exact ⟨pending, p, rfl, h, List.subset_cons_self _ _⟩
      | bytes chunk =>
        obtain ⟨some_bytes, small⟩ := sized chunk List.mem_cons_self
        obtain ⟨rest, q, after, ready, fewer⟩ := ih (h.push left small) later
        rw [recv_of_bytes left some_bytes]
        exact ⟨rest, q, after, ready, List.subset_cons_of_subset _ fewer⟩

theorem receive (h : Ready p) {pending : List Delivery}
    (sized : ∀ chunk, .bytes chunk ∈ pending → chunk ≠ [] ∧ chunk.length ≤ Source.chunkSize)
    (n : Nat) : Ready (FrameReader.receive n ⟨⟨pending, false⟩, p⟩).2.parser := by
  induction n generalizing p pending with
  | zero => exact h
  | succ n ih =>
    obtain ⟨left, q, after, ready, fewer⟩ := h.recv sized
    rw [FrameReader.receive, after]
    exact ih ready fun chunk waits => sized chunk (fewer waits)

end Ready

end FrameReader

/-- What a scan finds has nothing to do with the room for events. -/
theorem scan_eventCapacity (setup : ParserSetup) (capacity : Nat) (stream : Bytes) (s : Scan) :
    scan { setup with eventCapacity := capacity } stream s = scan setup stream s := by
  induction s using scan.induct setup stream with
  | case1 s h =>
    rw [scan_of_wait h]
    exact scan_of_wait h
  | case2 s h ih =>
    rw [scan_of_ne_wait h, ← ih]
    exact scan_of_ne_wait h

namespace Parser

/-- A parser that has room for as many events as it has read bytes drops none. -/
theorem push_start_of_enough (setup : ParserSetup) {stream : Bytes}
    (enough : stream.length ≤ setup.eventCapacity) :
    ((start setup).push stream).stats.droppedEvents = 0 ∧
      ((start setup).push stream).events = (scan setup stream {}).events := by
  have coherent : (start setup).Coherent := coherent_start setup
  have queued := queued_push coherent (Nat.zero_le _) 0 stream
  have paid : ((start setup).pushLog 0 stream).length + _ ≤ 0 + stream.length :=
    length_pushLog_le coherent 0 stream
  have room : setup.eventCapacity ≤ (start setup).room := Nat.le_max_left ..
  have fits : ((start setup).events ++ ((start setup).pushLog 0 stream).map
      (·.2)).length ≤ (start setup).room := by
    show (((start setup).pushLog 0 stream).map (·.2)).length ≤ _
    rw [List.length_map]
    omega
  have log := (Run.follows_scan setup [.push stream]).1
  rw [List.flatMap_singleton] at log
  refine ⟨?_, ?_⟩
  · rw [queued.dropped, Nat.sub_eq_zero_of_le fits]
    rfl
  · rw [queued.events, newest_of_length_le fits]
    exact congrArg (List.map (·.2)) log

end Parser

namespace Run

open FrameReader

/-- A caller who has taken all events, of which none was dropped, has been told all that was
reported. -/
theorem taken_eq_events {setup : ParserSetup} {calls : List Call}
    (empty : (ofCalls setup calls).parser.events = [])
    (kept : (ofCalls setup calls).parser.stats.droppedEvents = 0) :
    (ofCalls setup calls).taken = (scan setup (calls.flatMap Call.bytes) {}).events := by
  obtain ⟨-, -, -, -, -, told, count⟩ := follows_scan setup calls
  rw [empty, List.append_nil] at told count
  rw [kept] at count
  exact told.eq_of_length count

/-- The events of a transcript are those that a caller takes who feeds the parser with the
deliveries himself. -/
theorem taken_feeds {r : Run} (idle : r.parser.events = []) (pending : List Delivery) :
    let s := (pending.map fun d => Call.feed d.content).foldl answer r
    s.parser.events = [] ∧
      s.taken.map .ok = r.taken.map .ok ++ (transcript r.parser pending).filter (!isFailure ·) := by
  induction pending generalizing r with
  | nil => exact ⟨idle, (List.append_nil _).symm⟩
  | cons delivery pending ih =>
    have nothing : r.parser.feed [] = ([], r.parser) := by
      obtain ⟨⟨_, _, _, _, events, _, _, _⟩, _, _, _⟩ := r
      cases idle
      rfl
    have rest := ih (r := r.answer (.feed delivery.content)) rfl
    refine ⟨rest.1, ?_⟩
    rw [List.map_cons, List.foldl_cons, rest.2]
    cases delivery with
    | interrupted =>
      simp only [answer, Delivery.content, nothing, List.append_nil, transcript]
    | failed =>
      simp only [answer, Delivery.content, nothing, List.append_nil, transcript]
      rfl
    | bytes chunk =>
      have events : ((r.parser.feed chunk).1.map Except.ok).filter (!isFailure ·)
          = (r.parser.feed chunk).1.map .ok := by
        simp [isFailure]
      simp only [answer, Delivery.content, transcript, List.map_append, List.filter_append, events,
        List.append_assoc]

/-- A parser that is fed with the deliveries one by one stays ready. -/
theorem ready_feeds {r : Run} (idle : r.parser.events = []) (ready : Ready r.parser)
    {pending : List Delivery}
    (sized : ∀ chunk, .bytes chunk ∈ pending → chunk ≠ [] ∧ chunk.length ≤ Source.chunkSize) :
    Ready ((pending.map fun d => Call.feed d.content).foldl answer r).parser := by
  induction pending generalizing r with
  | nil => exact ready
  | cons delivery pending ih =>
    have small : delivery.content.length ≤ Source.chunkSize := by
      cases delivery with
      | interrupted => exact Nat.zero_le _
      | failed => exact Nat.zero_le _
      | bytes chunk => exact (sized chunk List.mem_cons_self).2
    exact ih rfl ((ready.push idle small).withEvents (Nat.zero_le _))
      fun chunk waits => sized chunk (List.mem_cons_of_mem _ waits)

/-- A caller is told all that a scan of the stream reports. -/
theorem filter_transcript (lookup : Lookup) {pending : List Delivery}
    (sized : ∀ chunk, .bytes chunk ∈ pending → chunk ≠ [] ∧ chunk.length ≤ Source.chunkSize) :
    (transcript (.start { lookup := lookup }) pending).filter (!isFailure ·)
      = (scan { lookup := lookup } (pending.flatMap Delivery.content) {}).events.map .ok := by
  obtain ⟨empty, told⟩ := taken_feeds (r := start { lookup := lookup }) rfl pending
  have ready := ready_feeds (r := start { lookup := lookup }) rfl (Ready.start lookup) sized
  have taken := taken_eq_events empty ready.dropped
  have same : (pending.map fun d => Call.feed d.content).flatMap Call.bytes
      = pending.flatMap Delivery.content := List.flatMap_map ..
  rw [same] at taken
  rw [← taken]
  exact told.symm

end Run

namespace FrameReader

/-- **A reader loses nothing and keeps the order.**  A source may cut its stream into pieces
of any size up to that of a chunk, be interrupted and fail in between.  A caller who goes on
receiving is told each failure once; his other answers are the events that a parser reports
which gets the stream in one piece and has room for all events, in that order, and then that
the stream has ended.  The parser of the reader never drops an event, because it holds less
than the longest frame and a chunk more makes it report 791 events at most. -/
theorem receives_stream (lookup : Lookup) (pending : List Delivery)
    (sized : ∀ chunk, .bytes chunk ∈ pending → chunk ≠ [] ∧ chunk.length ≤ Source.chunkSize)
    (capacity : Nat) (enough : (pending.flatMap Delivery.content).length ≤ capacity) :
    let whole := (Parser.start { lookup := lookup, eventCapacity := capacity }).push
      (pending.flatMap Delivery.content)
    let reader : FrameReader := ⟨{ pending := pending }, .start { lookup := lookup }⟩
    whole.stats.droppedEvents = 0 ∧
    (∀ n,
      let answers := (reader.receive (whole.events.length + pending.count .failed + n)).1
      answers.countP isFailure = pending.count .failed ∧
      answers.filter (!isFailure ·)
        = whole.events.map .ok ++ List.replicate n (.error .endOfStream)) ∧
    ∀ n,
      let p := (reader.receive n).2.parser
      p.stats.droppedEvents = 0 ∧ p.buffered ≤ 279 ∧
      ∀ received chunk, chunk.length ≤ Source.chunkSize →
        (p.pushLog received chunk).length ≤ 791 := by
  intro whole reader
  obtain ⟨kept, all⟩ :=
    Parser.push_start_of_enough { lookup := lookup, eventCapacity := capacity } enough
  have all : whole.events = (scan { lookup := lookup } (pending.flatMap Delivery.content) {}).events :=
    all.trans (congrArg Scan.events (scan_eventCapacity { lookup := lookup } capacity _ {}))
  have events : (transcript reader.parser pending).filter (!isFailure ·) = whole.events.map .ok :=
    all ▸ Run.filter_transcript lookup sized
  have length : (transcript reader.parser pending).length
      = whole.events.length + pending.count .failed := by
    rw [length_transcript, events, List.length_map]
  refine ⟨kept, ?_, ?_⟩
  · intro n answers
    have answers : answers
        = transcript reader.parser pending ++ List.replicate n (.error .endOfStream) := by
      show (reader.receive _).1 = _
      rw [← length]
      exact answers_transcript rfl (fun waits => (sized [] waits).1 rfl) n
    rw [answers, List.countP_append, List.filter_append, countP_transcript, events]
    simp [isFailure]
  · intro n p
    have ready : Ready p := (Ready.start lookup).receive sized n
    exact ⟨ready.dropped, ready.buffered_le, fun received _ small =>
      ready.length_pushLog_le received small⟩

/-- A heartbeat that comes in two pieces, with an interruption and a failure between them. -/
theorem heartbeat_received_in_pieces :
    ∃ f : Frame,
      f.toBytes = [0xFD, 9, 0, 0, 1, 1, 1, 0, 0, 0, 0, 0, 0, 0, 6, 8, 0, 4, 3, 0x1A, 0x0E] ∧
      let pending := [.bytes (f.toBytes.take 9), .interrupted, .failed, .bytes (f.toBytes.drop 9)]
      (∀ chunk, .bytes chunk ∈ pending → chunk ≠ [] ∧ chunk.length ≤ Source.chunkSize) ∧
      ((receive 3 ⟨{ pending := pending },
          .start { lookup := ⟨fun _ => some 50, fun _ => some 9⟩ }⟩).1.filter (!isFailure ·))
        = [.ok (.frame f), .error .endOfStream] := by
  let f : Frame := ⟨⟨.v2, 9, 0, 0, 1, 1, 1, 0⟩, ⟨0, .v2, [0, 0, 0, 0, 6, 8, 0, 4, 3]⟩, 0x0E1A, none⟩
  let lookup : Lookup := ⟨fun _ => some 50, fun _ => some 9⟩
  let pending : List Delivery :=
    [.bytes (f.toBytes.take 9), .interrupted, .failed, .bytes (f.toBytes.drop 9)]
  have sized : ∀ chunk, .bytes chunk ∈ pending →
      chunk ≠ [] ∧ chunk.length ≤ Source.chunkSize := by
    intro chunk waits
    have either : chunk = f.toBytes.take 9 ∨ chunk = f.toBytes.drop 9 := by
      simpa [pending] using waits
    rcases either with rfl | rfl <;> decide
  have events : ((Parser.start { lookup := lookup, eventCapacity := 21 }).push
      (pending.flatMap Delivery.content)).events = [.frame f] := by
    cbv
  have received := (receives_stream lookup pending sized 21 (by decide)).2.1 1
  simp only [events] at received
  exact ⟨f, by decide, sized, received.2⟩

end FrameReader
end Mavlink
