import Mathlib
import Mavlink.Log.Reader
import Mavlink.Proofs.Wire.PartialFrames

/-!
# What a log says

A reader of a log has only a window on it, and asks its source for more bytes up to three
times for one record.  What it tells is nevertheless a function of the bytes alone: of what
stands at the beginning of a log (`Lookup.headOf`), and of the log behind that
(`Lookup.survey`).

A reader is described by its outlook, which is what it is going to tell of the bytes that
it has not used, those included that its source still holds.  Asking for more bytes does
not change the outlook, and a record that is told is the first one of the outlook.

* `LogReader.read_outcome` --- what an attempt to read a record gives, and what it leaves;
* `LogReader.answers_eq` --- attempts one after another are answered with the records of
  the outlook, and then with the end of the log, beside the failures of the source;
* `LogReader.answers_start` --- so what is told of a log is what it says, however it is
  delivered.
-/

namespace Mavlink

/-! ## Logs as a whole -/

/-- How much of a log is done with when a record has been told.  Of a damaged frame only the
marker is given up. -/
def LogRecord.extent (r : LogRecord) : Nat :=
  LogReader.markerOffset + match r.frame with
    | .ok f => f.size
    | .error (.unknownMessage _ raw) => raw.length
    | .error _ => 1

theorem LogRecord.extent_frame (timestamp : UInt64) (f : Frame) :
    LogRecord.extent ⟨timestamp, .ok f⟩ = LogReader.markerOffset + f.size := rfl

theorem LogRecord.extent_unknown (timestamp : UInt64) (id : MessageId) (raw : Bytes) :
    LogRecord.extent ⟨timestamp, .error (.unknownMessage id raw)⟩
      = LogReader.markerOffset + raw.length := rfl

theorem LogRecord.extent_damage (timestamp : UInt64) {e : DecodeError} (h : e.isDamage) :
    LogRecord.extent ⟨timestamp, .error e⟩ = LogReader.markerOffset + 1 := by
  cases e <;> first | rfl | cases h

theorem LogRecord.extent_pos (r : LogRecord) : 0 < r.extent :=
  Nat.lt_of_lt_of_le (by decide) (Nat.le_add_right LogReader.markerOffset _)

/-- What stands at the beginning of a log. -/
inductive LogHead where
  /-- Too few bytes for a record. -/
  | tail
  /-- A byte that begins no record. -/
  | noise
  | record (record : LogRecord)

/-- What a log says: its records, and the count of bytes that are passed over. -/
structure LogSurvey where
  records : List LogRecord
  skipped : Nat

namespace Lookup

/-- Looks at the beginning of a log. -/
def headOf (l : Lookup) (log : Bytes) : LogHead :=
  match Frame.decode (log.drop LogReader.markerOffset) l with
  | .error (.truncated _ _) => .tail
  | .error (.invalidMarker _) => .noise
  | outcome => .record ⟨LogRecord.readTimestamp log, outcome⟩

section Heads

variable {l : Lookup} {log : Bytes}

theorem headOf_tail {expected actual : Nat}
    (h : Frame.decode (log.drop LogReader.markerOffset) l = .error (.truncated expected actual)) :
    l.headOf log = .tail := by
  rw [headOf, h]

theorem headOf_noise {byte : UInt8}
    (h : Frame.decode (log.drop LogReader.markerOffset) l = .error (.invalidMarker byte)) :
    l.headOf log = .noise := by
  rw [headOf, h]

theorem headOf_frame {f : Frame} (h : Frame.decode (log.drop LogReader.markerOffset) l = .ok f) :
    l.headOf log = .record ⟨LogRecord.readTimestamp log, .ok f⟩ := by
  rw [headOf, h]

theorem headOf_unknown {id : MessageId} {raw : Bytes}
    (h : Frame.decode (log.drop LogReader.markerOffset) l = .error (.unknownMessage id raw)) :
    l.headOf log = .record ⟨LogRecord.readTimestamp log, .error (.unknownMessage id raw)⟩ := by
  rw [headOf, h]

theorem headOf_damage {e : DecodeError}
    (h : Frame.decode (log.drop LogReader.markerOffset) l = .error e) (damage : e.isDamage) :
    l.headOf log = .record ⟨LogRecord.readTimestamp log, .error e⟩ := by
  rw [headOf, h]
  cases e <;> first | rfl | cases damage

theorem headOf_of_length_le (h : log.length ≤ LogReader.markerOffset) : l.headOf log = .tail := by
  have nothing : Frame.decode (log.drop LogReader.markerOffset) l = .error (.truncated 1 0) := by
    rw [List.drop_eq_nil_of_le h]
    rfl
  exact headOf_tail nothing

/-- A log that ends in a header holds no record there. -/
theorem headOf_of_short_header {version : Version} {behind : Bytes}
    (marked : log.drop LogReader.markerOffset = version.marker :: behind)
    (short : log.length < LogReader.markerOffset + version.headerSize) : l.headOf log = .tail := by
  have few : behind.length + 1 < version.headerSize := by
    have length := congrArg List.length marked
    rw [List.length_drop, List.length_cons] at length
    omega
  apply headOf_tail
  rw [marked]
  exact Frame.decode_of_header_error (Header.decode_marker_of_short few)

/-- A log that ends in a frame holds no record there. -/
theorem headOf_of_short_frame {h : Header}
    (header : Header.decode (log.drop LogReader.markerOffset) = .ok h)
    (short : log.length < LogReader.markerOffset + h.frameSize) : l.headOf log = .tail := by
  apply headOf_tail
  apply Frame.decode_of_short header
  rw [List.length_drop]
  have := h.frameSize_pos
  omega

end Heads

/-- Reads a whole log. -/
def survey (l : Lookup) (log : Bytes) : LogSurvey :=
  match _h : l.headOf log with
  | .tail => ⟨[], log.length⟩
  | .noise =>
    let rest := l.survey (log.drop 1)
    { rest with skipped := rest.skipped + 1 }
  | .record r =>
    let rest := l.survey (log.drop r.extent)
    { rest with records := r :: rest.records }
termination_by log.length
decreasing_by
  all_goals
    have long : LogReader.markerOffset < log.length := by
      refine Nat.lt_of_not_le fun short => ?_
      rw [headOf_of_length_le short] at _h
      cases _h
    rw [List.length_drop]
  · omega
  · have := r.extent_pos
    omega

section Surveys

variable {l : Lookup} {log : Bytes}

theorem survey_tail (h : l.headOf log = .tail) : l.survey log = ⟨[], log.length⟩ := by
  rw [survey]
  split
  · rfl
  · next found => cases h.symm.trans found
  · next found => cases h.symm.trans found

theorem survey_noise (h : l.headOf log = .noise) :
    l.survey log = ⟨(l.survey (log.drop 1)).records, (l.survey (log.drop 1)).skipped + 1⟩ := by
  rw [survey]
  split
  · next found => cases h.symm.trans found
  · rfl
  · next found => cases h.symm.trans found

theorem survey_record {r : LogRecord} (h : l.headOf log = .record r) :
    l.survey log = ⟨r :: (l.survey (log.drop r.extent)).records,
      (l.survey (log.drop r.extent)).skipped⟩ := by
  rw [survey]
  split
  · next found => cases h.symm.trans found
  · next found => cases h.symm.trans found
  · next r' found =>
    cases h.symm.trans found
    rfl

end Surveys
end Lookup

/-! ## Reading on -/

/-- A source that ends with the last of its deliveries, and not before. -/
structure Source.Steady (s : Source) : Prop where
  whole : s.broken = false
  filled : .bytes [] ∉ s.pending

namespace LogReader

/-- The bytes that have not been used, those included that have not been read. -/
def rest (r : LogReader) : Bytes := r.window ++ r.source.pending.flatMap Delivery.content

/-- How often reading is going to fail. -/
def failures (r : LogReader) : Nat := r.source.pending.count .failed

/-- A reader that has read more of its source, but has used nothing. -/
structure Fetches (r q : LogReader) : Prop where
  steady : q.source.Steady
  lookup : q.lookup = r.lookup
  skipped : q.skipped = r.skipped
  rest : q.rest = r.rest

theorem Fetches.trans {r s q : LogReader} (first : r.Fetches s) (second : s.Fetches q) :
    r.Fetches q :=
  ⟨second.steady, second.lookup.trans first.lookup, second.skipped.trans first.skipped,
    second.rest.trans first.rest⟩

/-- What comes of reading until the window has a size. -/
inductive Filled (r : LogReader) (size : Nat) : Except TransferError Bool × LogReader → Prop
  | full {q : LogReader} (fetches : r.Fetches q) (same : q.failures = r.failures)
      (enough : size ≤ q.window.length) : Filled r size (.ok true, q)
  | short {q : LogReader} (fetches : r.Fetches q) (same : q.failures = r.failures)
      (ended : q.source.pending = []) (few : q.window.length < size) : Filled r size (.ok false, q)
  | failed {q : LogReader} (fetches : r.Fetches q) (less : q.failures + 1 = r.failures) :
      Filled r size (.error .readFailed, q)

theorem Filled.after {r s : LogReader} {size : Nat}
    {outcome : Except TransferError Bool × LogReader} (filled : Filled s size outcome)
    (fetches : r.Fetches s) (same : s.failures = r.failures) : Filled r size outcome := by
  cases filled with
  | full fetches' same' enough =>
    exact .full (fetches.trans fetches') (same'.trans same) enough
  | short fetches' same' ended few =>
    exact .short (fetches.trans fetches') (same'.trans same) ended few
  | failed fetches' less => exact .failed (fetches.trans fetches') (less.trans same)

/-- Bytes that are missing in the window are taken from the source. -/
theorem filled_fill {r : LogReader} (steady : r.source.Steady) (size : Nat) :
    Filled r size (r.fill size) := by
  fun_induction fill r size with
  | case1 r enough => exact .full ⟨steady, rfl, rfl, rfl⟩ rfl enough
  | case2 r few ended =>
    rw [steady.whole]
    exact .short ⟨steady, rfl, rfl, rfl⟩ rfl ended (Nat.lt_of_not_le few)
  | case3 r few pending waits ih =>
    have later : ({ r.source with pending } : Source).Steady :=
      ⟨steady.whole, List.not_mem_of_not_mem_cons (waits ▸ steady.filled)⟩
    refine (ih later).after ⟨later, rfl, rfl, ?_⟩ ?_
    · rw [rest, rest, waits]
      rfl
    · rw [failures, failures, waits]
      rfl
  | case4 r few pending waits =>
    have later : ({ r.source with pending } : Source).Steady :=
      ⟨steady.whole, List.not_mem_of_not_mem_cons (waits ▸ steady.filled)⟩
    refine .failed ⟨later, rfl, rfl, ?_⟩ ?_
    · rw [rest, rest, waits]
      rfl
    · rw [failures, failures, waits, List.count_cons_self]
  | case5 r few pending waits =>
    exact absurd (waits ▸ List.mem_cons_self) steady.filled
  | case6 r few b chunk pending waits ih =>
    have later : ({ r.source with pending } : Source).Steady :=
      ⟨steady.whole, List.not_mem_of_not_mem_cons (waits ▸ steady.filled)⟩
    refine (ih later).after ⟨later, rfl, rfl, ?_⟩ ?_
    · rw [rest, rest, waits]
      exact List.append_assoc ..
    · rw [failures, failures, waits]
      rfl

/-! ## Reading a record -/

/-- What a reader is going to tell: the records, and how many bytes it will then have passed
over. -/
def outlook (r : LogReader) : LogSurvey :=
  { r.lookup.survey r.rest with skipped := r.skipped + (r.lookup.survey r.rest).skipped }

theorem Fetches.outlook {r q : LogReader} (h : r.Fetches q) : q.outlook = r.outlook := by
  rw [LogReader.outlook, LogReader.outlook, h.lookup, h.rest, h.skipped]

/-- What comes of an attempt to read a record: the first one of the outlook; or nothing, if
there is none; or that reading has failed. -/
inductive ReadOutcome (r : LogReader) : Except TransferError (Option LogRecord) × LogReader → Prop
  | record {q : LogReader} {record : LogRecord} (steady : q.source.Steady)
      (same : q.failures = r.failures)
      (first : r.outlook = ⟨record :: q.outlook.records, q.outlook.skipped⟩) :
      ReadOutcome r (.ok (some record), q)
  | ended {q : LogReader} (finished : q.source.pending = []) (whole : q.source.broken = false)
      (empty : q.window = []) (none_left : r.failures = 0)
      (last : r.outlook = ⟨[], q.skipped⟩) : ReadOutcome r (.ok none, q)
  | failed {q : LogReader} (steady : q.source.Steady) (less : q.failures + 1 = r.failures)
      (outlook : q.outlook = r.outlook) : ReadOutcome r (.error .readFailed, q)

theorem ReadOutcome.after {r s : LogReader}
    {outcome : Except TransferError (Option LogRecord) × LogReader} (h : ReadOutcome s outcome)
    (same : s.failures = r.failures) (outlook : s.outlook = r.outlook) :
    ReadOutcome r outcome := by
  cases h with
  | record steady same' first => exact .record steady (same'.trans same) (outlook ▸ first)
  | ended finished whole empty none_left last =>
    exact .ended finished whole empty (same ▸ none_left) (outlook ▸ last)
  | failed steady less outlook' => exact .failed steady (less.trans same) (outlook'.trans outlook)

/-- Bytes that are used are the first ones of those that have not been used. -/
theorem rest_use {r : LogReader} {count : Nat} (enough : count ≤ r.window.length) :
    (r.use count).rest = r.rest.drop count := by
  rw [rest, rest, List.drop_append_of_le_length enough]
  rfl

theorem drop_rest {r : LogReader} {count : Nat} (enough : count ≤ r.window.length) :
    r.rest.drop count = r.window.drop count ++ r.source.pending.flatMap Delivery.content :=
  List.drop_append_of_le_length enough

theorem rest_of_ended {r : LogReader} (ended : r.source.pending = []) : r.rest = r.window := by
  rw [rest, ended, List.flatMap_nil, List.append_nil]

/-- Where too few bytes are left for a record the outlook is the end of the log. -/
theorem ReadOutcome.finish {r : LogReader} (steady : r.source.Steady)
    (ended : r.source.pending = []) (few : r.lookup.headOf r.rest = .tail) :
    ReadOutcome r (.ok none, r.finish) := by
  refine .ended ended steady.whole rfl ?_ ?_
  · rw [failures, ended, List.count_nil]
  · rw [outlook, Lookup.survey_tail few, rest_of_ended ended]
    rfl

/-- A record that stands at the beginning of what is left is told, and its bytes are used. -/
theorem ReadOutcome.use {r : LogReader} {record : LogRecord} (steady : r.source.Steady)
    (stands : r.lookup.headOf r.rest = .record record) (enough : record.extent ≤ r.window.length) :
    ReadOutcome r (.ok (some record), r.use record.extent) := by
  refine .record steady rfl ?_
  rw [outlook, Lookup.survey_record stands, outlook, rest_use enough]
  rfl

theorem ReadOutcome.frame {r : LogReader} (steady : r.source.Steady) {f : Frame}
    (found : Frame.decode (r.rest.drop markerOffset) r.lookup = .ok f) {size : Nat}
    (whole : f.size = size) (enough : markerOffset + size ≤ r.window.length) :
    ReadOutcome r (.ok (some ⟨LogRecord.readTimestamp r.rest, .ok f⟩),
      r.use (markerOffset + size)) := by
  subst whole
  exact .use steady (Lookup.headOf_frame found) enough

theorem ReadOutcome.unknown {r : LogReader} (steady : r.source.Steady) {id : MessageId}
    {raw : Bytes}
    (found : Frame.decode (r.rest.drop markerOffset) r.lookup = .error (.unknownMessage id raw))
    {size : Nat} (whole : raw.length = size) (enough : markerOffset + size ≤ r.window.length) :
    ReadOutcome r (.ok (some ⟨LogRecord.readTimestamp r.rest, .error (.unknownMessage id raw)⟩),
      r.use (markerOffset + size)) := by
  subst whole
  exact .use steady (Lookup.headOf_unknown found) enough

/-- Of a damaged record the timestamp and the marker are used. -/
theorem ReadOutcome.damage {r : LogReader} (steady : r.source.Steady) {e : DecodeError}
    (faulty : Frame.decode (r.rest.drop markerOffset) r.lookup = .error e) (damage : e.isDamage)
    (enough : markerOffset < r.window.length) :
    ReadOutcome r (.ok (some ⟨LogRecord.readTimestamp r.rest, .error e⟩),
      r.use (markerOffset + 1)) := by
  have extent := LogRecord.extent_damage (LogRecord.readTimestamp r.rest) damage
  rw [← extent]
  exact .use steady (Lookup.headOf_damage faulty damage) (extent ▸ enough)

/-- The timestamp of a record is in the window. -/
theorem readTimestamp_rest {r : LogReader} (enough : markerOffset ≤ r.window.length) :
    LogRecord.readTimestamp r.rest = LogRecord.readTimestamp r.window := by
  have enough : LogRecord.timestampSize ≤ r.window.length := enough
  rw [LogRecord.readTimestamp, LogRecord.readTimestamp, rest, List.take_append_of_le_length enough]

/-- What is in the window behind the marker of a record. -/
theorem exists_seen {r : LogReader} {version : Version} {behind : Bytes}
    (marked : r.rest.drop markerOffset = version.marker :: behind)
    (enough : markerOffset < r.window.length) :
    ∃ seen, r.window.drop markerOffset = version.marker :: seen ∧
      seen.length + 1 = r.window.length - markerOffset ∧
      r.rest.drop markerOffset
        = version.marker :: seen ++ r.source.pending.flatMap Delivery.content := by
  have split := drop_rest (r := r) (Nat.le_of_lt enough)
  cases window : r.window.drop markerOffset with
  | nil => exact absurd (List.drop_eq_nil_iff.1 window) (Nat.not_le.2 enough)
  | cons byte seen =>
    have length := congrArg List.length window
    rw [List.length_drop, List.length_cons] at length
    rw [window] at split
    have same : byte = version.marker := (List.cons.inj (split.symm.trans marked)).1
    exact ⟨seen, by rw [same], length.symm, by rw [split, same]⟩

/-- The frame of a record is decoded in the window as it is in the log. -/
theorem decode_window {r : LogReader} {h : Header} (l : Lookup)
    (header : Header.decode (r.rest.drop markerOffset) = .ok h)
    (enough : markerOffset + h.frameSize ≤ r.window.length) :
    h.frameSize ≤ (r.rest.drop markerOffset).length ∧
      Frame.decode ((r.window.take (markerOffset + h.frameSize)).drop markerOffset) l
        = Frame.decode (r.rest.drop markerOffset) l := by
  have long : h.frameSize ≤ (r.rest.drop markerOffset).length := by
    rw [List.length_drop, rest, List.length_append]
    omega
  have window : (r.window.take (markerOffset + h.frameSize)).drop markerOffset
      = (r.rest.drop markerOffset).take h.frameSize := by
    rw [rest, List.take_drop, List.take_append_of_le_length enough]
  exact ⟨long, by rw [window, Frame.decode_take header long]⟩

/-- A record at the beginning of the window is read as the outlook says. -/
theorem readMarked_outcome {r : LogReader} (steady : r.source.Steady) {version : Version}
    {behind : Bytes} (marked : r.rest.drop markerOffset = version.marker :: behind)
    (enough : markerOffset < r.window.length) :
    ReadOutcome r (r.readMarked version) := by
  rw [readMarked, ← readTimestamp_rest (Nat.le_of_lt enough)]
  have filled := filled_fill steady (markerOffset + version.headerSize)
  generalize r.fill (markerOffset + version.headerSize) = outcome at filled
  cases filled with
  | failed fetches less => exact .failed fetches.steady less fetches.outlook
  | @short q fetches same ended few =>
    rw [← fetches.rest] at marked
    rw [← rest_of_ended ended] at few
    have cut : q.lookup.headOf q.rest = .tail := Lookup.headOf_of_short_header marked few
    exact (ReadOutcome.finish fetches.steady ended cut).after same fetches.outlook
  | @full q fetches same enough =>
    have more : markerOffset < q.window.length := by
      have : 0 < version.headerSize := by cases version <;> decide
      omega
    rw [← fetches.rest] at marked ⊢
    refine .after ?_ same fetches.outlook
    obtain ⟨seen, window, length, rest⟩ := exists_seen marked more
    have long : version.headerSize ≤ seen.length + 1 := by omega
    dsimp only
    cases header : Header.decode (q.window.drop markerOffset) with
    | error e =>
      have faulty : Header.decode (q.rest.drop markerOffset) = .error e := by
        rw [rest, Header.decode_marker_append long, ← window, header]
      have damage : e.isDamage := by
        obtain ⟨flags, rfl⟩ := Header.exists_flags_of_decode_marker long (window ▸ header)
        rfl
      exact .damage fetches.steady (Frame.decode_of_header_error faulty) damage more
    | ok h =>
      have announced : Header.decode (q.rest.drop markerOffset) = .ok h := by
        rw [rest, Header.decode_append (window ▸ header)]
      have filled := filled_fill fetches.steady (markerOffset + h.frameSize)
      dsimp only
      generalize q.fill (markerOffset + h.frameSize) = outcome at filled
      cases filled with
      | failed fetches less => exact .failed fetches.steady less fetches.outlook
      | @short s fetches same ended few =>
        rw [← fetches.rest] at announced
        rw [← rest_of_ended ended] at few
        have cut : s.lookup.headOf s.rest = .tail := Lookup.headOf_of_short_frame announced few
        exact (ReadOutcome.finish fetches.steady ended cut).after same fetches.outlook
      | @full s fetches same enough =>
        rw [← fetches.rest] at announced ⊢
        refine .after ?_ same fetches.outlook
        obtain ⟨long, decoded⟩ := decode_window s.lookup announced enough
        dsimp only
        rw [decoded]
        rcases Frame.decode_of_long (l := s.lookup) announced long with
          ⟨f, found, whole⟩ | found | ⟨e, found, damage⟩
        · rw [found]
          exact .frame fetches.steady found whole enough
        · rw [found]
          exact .unknown fetches.steady found (List.length_take_of_le long) enough
        · have pos := h.frameSize_pos
          have told := ReadOutcome.damage fetches.steady found damage (by omega)
          rw [found]
          cases e <;> first | exact told | cases damage

/-- The byte that may be a marker is the first one behind a timestamp. -/
theorem exists_behind {r : LogReader} (enough : markerOffset < r.window.length) :
    ∃ behind, r.rest.drop markerOffset = r.window.getD markerOffset 0 :: behind := by
  rw [drop_rest (Nat.le_of_lt enough), List.drop_eq_getElem_cons enough,
    List.getD_eq_getElem _ _ enough]
  exact ⟨_, rfl⟩

/-- Reading passes over bytes that begin no record, and then reads a record. -/
theorem read_outcome {r : LogReader} (steady : r.source.Steady) : ReadOutcome r r.read := by
  fun_induction read r with
  | case1 r error q filling =>
    have filled := filling ▸ filled_fill steady (markerOffset + 1)
    cases filled with
    | failed fetches less => exact .failed fetches.steady less fetches.outlook
  | case2 r q filling =>
    have filled := filling ▸ filled_fill steady (markerOffset + 1)
    cases filled with
    | short fetches same ended few =>
      rw [← rest_of_ended ended] at few
      have cut : q.lookup.headOf q.rest = .tail :=
        Lookup.headOf_of_length_le (Nat.le_of_lt_succ few)
      exact (ReadOutcome.finish fetches.steady ended cut).after same fetches.outlook
  | case3 r filled filling version marker =>
    have filled := filling ▸ filled_fill steady (markerOffset + 1)
    cases filled with
    | full fetches same enough =>
      obtain ⟨behind, marked⟩ := exists_behind enough
      rw [Version.ofMarker?_eq_some_iff.1 marker] at marked
      exact (readMarked_outcome fetches.steady marked enough).after same fetches.outlook
  | case4 r q filling marker ih =>
    have filled := filling ▸ filled_fill steady (markerOffset + 1)
    cases filled with
    | full fetches same enough =>
      obtain ⟨behind, marked⟩ := exists_behind enough
      have noise : q.lookup.headOf q.rest = .noise :=
        Lookup.headOf_noise (marked ▸ Frame.decode_noise marker behind)
      refine (ih fetches.steady).after same (Eq.trans ?_ fetches.outlook)
      have used : ({ q.use 1 with skipped := q.skipped + 1 } : LogReader).rest = q.rest.drop 1 :=
        rest_use (Nat.le_of_lt (Nat.lt_of_le_of_lt (by decide) enough))
      rw [outlook, outlook, used, Lookup.survey_noise noise]
      simp only [use, Nat.add_assoc, Nat.add_comm 1]

/-! ## Reading a log to its end -/

/-- The answers to so many attempts one after another, and the reader after them. -/
def answers : Nat → LogReader → List (Except TransferError (Option LogRecord)) × LogReader
  | 0, r => ([], r)
  | n + 1, r => (r.read.1 :: (answers n r.read.2).1, (answers n r.read.2).2)

/-- Whether an answer is that reading has failed. -/
def isFailure : Except TransferError (Option LogRecord) → Bool
  | .error .readFailed => true
  | _ => false

/-- At the end of a log there is nothing else to be told. -/
theorem answers_ended {r : LogReader} (finished : r.source.pending = [])
    (whole : r.source.broken = false) (empty : r.window = []) (n : Nat) :
    answers n r = (List.replicate n (.ok none), r) := by
  have same : r.read = (.ok none, r) := by
    obtain ⟨⟨pending, broken⟩, lookup, window, skipped⟩ := r
    cases finished
    cases whole
    cases empty
    rw [read, fill]
    rfl
  induction n with
  | zero => rfl
  | succ n ih => rw [answers, same, ih, List.replicate_succ]

/-- **What a reader tells.**  Beside the failures of the source, attempts are answered with
the records of the outlook, and then with the end of the log; the bytes that were passed over
are then those of the outlook. -/
theorem answers_eq {r : LogReader} (steady : r.source.Steady) (n : Nat) :
    let told := answers (r.outlook.records.length + r.failures + n) r
    told.1.filter (!isFailure ·)
        = r.outlook.records.map (fun record => .ok (some record)) ++ List.replicate n (.ok none) ∧
      (0 < n → told.2.skipped = r.outlook.skipped) := by
  generalize count : r.outlook.records.length + r.failures = k
  have outcome := read_outcome steady
  -- Every answer is a record of the outlook or a failure, until both are used up.
  induction k generalizing r with
  | zero =>
    cases n with
    | zero =>
      have none_left : r.outlook.records = [] := List.eq_nil_of_length_eq_zero (by omega)
      rw [none_left]
      exact ⟨rfl, fun h => absurd h (Nat.lt_irrefl 0)⟩
    | succ n =>
      rw [Nat.zero_add, answers]
      generalize r.read = answer at outcome
      cases outcome with
      | record _ _ first =>
        rw [first, List.length_cons] at count
        omega
      | failed _ less _ => omega
      | ended finished whole empty _ last =>
        have told : (List.replicate (n + 1) (.ok none)).filter (!isFailure ·)
            = List.replicate (n + 1) (.ok none) := List.filter_replicate_of_pos rfl
        rw [answers_ended finished whole empty, last]
        exact ⟨told, fun _ => rfl⟩
  | succ k ih =>
    rw [Nat.add_right_comm, answers]
    generalize r.read = answer at outcome
    cases outcome with
    | record later same first =>
      rw [first, List.length_cons] at count
      obtain ⟨told, skipped⟩ := ih later (by omega) (read_outcome later)
      rw [first]
      exact ⟨congrArg (_ :: ·) told, skipped⟩
    | ended _ _ _ none_left last =>
      rw [last, none_left] at count
      cases count
    | failed later less outlook =>
      obtain ⟨told, skipped⟩ := ih later (by rw [outlook]; omega) (read_outcome later)
      rw [← outlook]
      exact ⟨told, skipped⟩

theorem length_answers (n : Nat) (r : LogReader) : (answers n r).1.length = n := by
  induction n generalizing r with
  | zero => rfl
  | succ n ih => rw [answers, List.length_cons, ih]

/-- Where reading never fails, there are no other answers. -/
theorem answers_of_unfailing {r : LogReader} (steady : r.source.Steady)
    (unfailing : r.failures = 0) (n : Nat) :
    let told := answers (r.outlook.records.length + n) r
    told.1 = r.outlook.records.map (fun record => .ok (some record))
        ++ List.replicate n (.ok none) ∧
      (0 < n → told.2.skipped = r.outlook.skipped) := by
  obtain ⟨told, skipped⟩ := answers_eq steady n
  rw [unfailing, Nat.add_zero] at told skipped
  refine ⟨?_, skipped⟩
  rw [← told]
  refine (List.filter_sublist.eq_of_length ?_).symm
  rw [told, length_answers, List.length_append, List.length_map, List.length_replicate]

/-- What a reader tells of a log is what the log says, however it is delivered. -/
theorem answers_start {l : Lookup} {pending : List Delivery} (some_bytes : .bytes [] ∉ pending)
    (unfailing : .failed ∉ pending) {survey : LogSurvey}
    (content : l.survey (pending.flatMap Delivery.content) = survey) (n : Nat) :
    let told := answers (survey.records.length + n) (start ⟨pending, false⟩ l)
    told.1 = survey.records.map (fun record => .ok (some record)) ++ List.replicate n (.ok none) ∧
      (0 < n → told.2.skipped = survey.skipped) := by
  have outlook : (start ⟨pending, false⟩ l).outlook = survey := by
    rw [← content, outlook, start, Nat.zero_add]
    rfl
  rw [← outlook]
  exact answers_of_unfailing ⟨rfl, some_bytes⟩ (List.count_eq_zero.2 unfailing) n

end LogReader
end Mavlink
