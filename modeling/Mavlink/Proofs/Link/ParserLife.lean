import Mavlink.Proofs.Link.ParserScan

/-!
# The life of a parser

A caller can reset a parser between two calls.  The parser then forgets the candidate that
it holds and the events in its queue, and keeps what it knows of senders and signatures.
Seen from the stream, the bytes held are neither part of a frame nor passed over one by
one: the scan leaps to the end of what has been read and goes on from there.

* `Run.exists_traces` --- what a scan keeps by every step and every leap holds throughout
  the life of a parser.
-/

namespace Mavlink

/-- What a caller does with a parser. -/
inductive Act where
  | call (call : Call)
  | reset

/-- The bytes that an act brings. -/
def Act.bytes : Act → Bytes
  | .call asked => asked.bytes
  | .reset => []

namespace Scan

/-- Leaves the bytes up to a place unread. -/
def leap (s : Scan) (place : Nat) : Scan := { s with place := place }

end Scan

namespace Agrees

/-- A parser that waits for more bytes stands where the scan stops. -/
theorem scan_eq {stream : Bytes} {s : Scan} {p : Parser} (h : Agrees stream s p)
    (coherent : p.Coherent) (idle : p.replay = []) : scan p.setup stream s = s := by
  apply scan_of_wait
  rw [h.held, idle, List.append_nil]
  exact coherent.examine

/-- After a reset the parser stands at the end of what it has read. -/
theorem reset {stream : Bytes} {s : Scan} {p : Parser} (h : Agrees stream s p) :
    Agrees stream (s.leap stream.length) p.reset :=
  ⟨List.drop_length, rfl, h.sequences, h.timestamps, h.stats⟩

end Agrees

/-- What a scan keeps by every step, whatever it finds in bytes, it keeps to its end. -/
theorem scan_induction {setup : ParserSetup} {P : Scan → Prop}
    (stepped : ∀ s b, P s → P (s.step setup (setup.lookup.examine b))) (stream : Bytes)
    {s : Scan} (h : P s) : P (scan setup stream s) := by
  induction s using scan.induct setup stream with
  | case1 s hw => rwa [scan_of_wait hw]
  | case2 s hw ih =>
    rw [scan_of_ne_wait hw]
    exact ih (stepped s _ h)

namespace Run

/-- Resets the parser.  What it has reported stays in the log. -/
def reset (r : Run) : Run := { r with parser := r.parser.reset }

/-- Does what the caller asks for. -/
def act (r : Run) : Act → Run
  | .call call => r.answer call
  | .reset => r.reset

/-- A parser whose caller has acted. -/
def ofActs (setup : ParserSetup) (acts : List Act) : Run := acts.foldl act (start setup)

theorem stream_act (r : Run) (a : Act) : (r.act a).stream = r.stream ++ a.bytes := by
  cases a with
  | call call => exact r.stream_answer call
  | reset => exact (List.append_nil _).symm

theorem stream_ofActs (setup : ParserSetup) (acts : List Act) :
    (ofActs setup acts).stream = acts.flatMap Act.bytes :=
  stream_foldl stream_act acts (start setup)

/-- The scan `s` traces the run: it has reported what the parser has reported, and stands
where the parser stands. -/
structure Traces (setup : ParserSetup) (s : Scan) (r : Run) : Prop where
  steady : Steady setup r
  agrees : Agrees r.stream s r.parser
  log : r.log = s.log

variable {setup : ParserSetup} {s : Scan} {r : Run}

theorem traces_start (setup : ParserSetup) : Traces setup {} (start setup) :=
  ⟨steady_start setup, ⟨rfl, rfl, rfl, rfl, rfl⟩, rfl⟩

theorem Traces.read (h : Traces setup s r) (bytes : Bytes) :
    Traces setup (scan setup (r.stream ++ bytes) s) (r.read bytes) := by
  obtain rfl := h.steady.setup
  have ended := h.agrees.scan_eq h.steady.coherent h.steady.idle
  obtain ⟨agrees, log⟩ :=
    (ended.symm ▸ h.agrees).push (s := s) h.steady.coherent h.steady.idle bytes
  rw [ended, ← h.log] at log
  exact ⟨h.steady.read bytes, agrees, log.symm⟩

theorem Traces.answer (h : Traces setup s r) (call : Call) :
    Traces setup (scan setup (r.stream ++ call.bytes) s) (r.answer call) := by
  obtain ⟨-, agrees, log⟩ := h.read call.bytes
  obtain ⟨events, parser, -, -, same, stream⟩ := r.exists_answer call
  refine ⟨h.steady.answer call, ?_, same.trans log⟩
  rw [stream, parser]
  exact agrees.withEvents events

theorem Steady.reset (h : Steady setup r) : Steady setup r.reset :=
  ⟨h.setup, .marker, rfl, Nat.zero_le _, ((List.nil_sublist _).append_left r.taken).trans h.kept⟩

theorem Traces.reset (h : Traces setup s r) : Traces setup (s.leap r.stream.length) r.reset :=
  ⟨h.steady.reset, h.agrees.reset, h.log⟩

/-- **What a scan keeps by every step and every leap holds throughout the life of a
parser**, of a scan that has reported what the parser has reported. -/
theorem exists_traces {P : Scan → Prop} (started : P {})
    (stepped : ∀ s finding, P s → P (s.step setup finding))
    (leapt : ∀ s place, P s → P (s.leap place)) (acts : List Act) :
    ∃ s, P s ∧ Traces setup s (ofActs setup acts) := by
  have run : ∀ r, (∃ s, P s ∧ Traces setup s r) →
      ∃ s, P s ∧ Traces setup s (acts.foldl act r) := by
    induction acts with
    | nil => exact fun r h => h
    | cons a acts ih =>
      rintro r ⟨s, holds, traces⟩
      apply ih
      cases a with
      | call call =>
        exact ⟨_, scan_induction (fun s b => stepped s _) _ holds, traces.answer call⟩
      | reset => exact ⟨_, leapt s _ holds, traces.reset⟩
  exact run _ ⟨{}, started, traces_start setup⟩

end Run
end Mavlink
