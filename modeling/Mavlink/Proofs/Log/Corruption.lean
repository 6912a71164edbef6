import Mathlib
import Mavlink.Proofs.Link.FrameStream
import Mavlink.Proofs.Log.RecordRoundTrip

/-!
# Damaged records

Of a damaged record only the timestamp and the marker are given up, so the search for the
next one goes on in the rest of the frame, and then in the timestamp behind it.  It looks at
every place there as if it were the beginning of a record.

What it comes to may look like one.  A candidate that is damaged as well costs nine bytes,
and with its marker in the frame it does not reach beyond the next record.  But a marker in
the timestamp does reach beyond it, and so may a candidate that is a whole frame, known or
not, or one that the log is too short for.  If none of these is there the search comes to
the next record, and nothing is lost but the one that was damaged.

* `Lookup.survey_search` --- what is told between a damaged frame and the record behind it;
* `LogReader.reads_around_damage` --- what is told of a log in which one frame was altered;
* `LogReader.damage_hides_next` --- three ways in which the next record is lost.
-/

namespace Mavlink

/-- The bytes of a frame in place of whose payload there are other bytes. -/
def Frame.altered (f : Frame) (payload : Bytes) : Bytes :=
  f.header.toBytes ++ payload ++ f.tail

/-- A record that tells of damage. -/
def LogRecord.IsDamaged (r : LogRecord) : Prop := ∃ e, r.frame = .error e ∧ e.isDamage

namespace Lookup

variable {l : Lookup} {log left rest : Bytes}

/-- Bytes are passed over while no marker stands behind them. -/
theorem records_survey_pass (count : Nat) (inside : LogReader.markerOffset + count ≤ log.length)
    (still : Bytes.Quiet ((log.drop LogReader.markerOffset).take count)) :
    (l.survey log).records = (l.survey (log.drop count)).records := by
  induction count generalizing log with
  | zero => rfl
  | succ count ih =>
    have here : LogReader.markerOffset < log.length := by omega
    have ahead : log.drop LogReader.markerOffset
        = log[LogReader.markerOffset] :: (log.drop 1).drop LogReader.markerOffset := by
      rw [List.drop_eq_getElem_cons here, List.drop_drop, Nat.add_comm 1]
    rw [ahead, List.take_succ_cons] at still
    have noise : l.headOf log = .noise :=
      headOf_noise (ahead ▸ Frame.decode_noise (still _ List.mem_cons_self) _)
    have later : Bytes.Quiet (((log.drop 1).drop LogReader.markerOffset).take count) :=
      fun byte next => still byte (List.mem_cons_of_mem _ next)
    rw [survey_noise noise, ih (by rw [List.length_drop]; omega) later, List.drop_drop,
      Nat.add_comm 1]

theorem records_survey_damage {e : DecodeError}
    (faulty : Frame.decode (log.drop LogReader.markerOffset) l = .error e) (damage : e.isDamage) :
    (l.survey log).records = ⟨LogRecord.readTimestamp log, .error e⟩
      :: (l.survey (log.drop (LogReader.markerOffset + 1))).records := by
  rw [survey_record (headOf_damage faulty damage), LogRecord.extent_damage _ damage]

theorem records_survey_unknown {id : MessageId} {raw : Bytes}
    (unknown : Frame.decode (log.drop LogReader.markerOffset) l = .error (.unknownMessage id raw)) :
    (l.survey log).records = ⟨LogRecord.readTimestamp log, .error (.unknownMessage id raw)⟩
      :: (l.survey (log.drop (LogReader.markerOffset + raw.length))).records := by
  rw [survey_record (headOf_unknown unknown), LogRecord.extent_unknown]

theorem records_survey_truncated {expected actual : Nat}
    (few : Frame.decode (log.drop LogReader.markerOffset) l = .error (.truncated expected actual)) :
    (l.survey log).records = [] := by
  rw [survey_tail (headOf_tail few)]

theorem records_survey_of_length_le (short : log.length ≤ LogReader.markerOffset) :
    (l.survey log).records = [] := by
  rw [survey_tail (headOf_of_length_le short)]

/-- Whatever a marker begins in what is left of a frame, behind as many bytes as a timestamp
has, is damaged. -/
def Harmless (l : Lookup) (left rest : Bytes) : Prop :=
  ∀ place, LogReader.markerOffset ≤ place → ∀ byte ∈ left[place]?,
    Version.ofMarker? byte ≠ none →
      ∃ e, Frame.decode ((left ++ rest).drop place) l = .error e ∧ e.isDamage

/-- What is left without a marker is harmless. -/
theorem harmless_of_quiet (quiet : Bytes.Quiet left) : l.Harmless left rest :=
  fun _ _ byte here marker => absurd (quiet byte (List.mem_of_getElem? here)) marker

theorem Harmless.drop (h : l.Harmless left rest) {count : Nat} (inside : count ≤ left.length) :
    l.Harmless (left.drop count) rest := by
  intro place behind byte here marker
  rw [Option.mem_def, List.getElem?_drop] at here
  have faulty := h (count + place) (by omega) byte here marker
  rwa [← List.drop_drop, List.drop_append_of_le_length inside] at faulty

/-- The last bytes before a record are passed over while the markers that are looked for would
stand in its timestamp. -/
theorem records_survey_before (short : left.length ≤ LogReader.markerOffset)
    (still : Bytes.Quiet (rest.take LogReader.markerOffset))
    (next : rest = [] ∨ LogReader.markerOffset < rest.length) :
    (l.survey (left ++ rest)).records = (l.survey rest).records := by
  rcases next with rfl | next
  · rw [List.append_nil, records_survey_of_length_le short,
      records_survey_of_length_le (Nat.zero_le _)]
  · have quiet : Bytes.Quiet (((left ++ rest).drop LogReader.markerOffset).take left.length) := by
      intro byte here
      rw [List.drop_append, List.drop_eq_nil_of_le short, List.nil_append, List.take_drop,
        Nat.sub_add_cancel short] at here
      exact still byte (List.mem_of_mem_drop here)
    rw [records_survey_pass left.length (by rw [List.length_append]; omega) quiet, List.drop_left]

/-- A search that begins in what is left of a damaged frame comes to the bytes behind it, if
every marker on the way begins a damaged candidate. -/
theorem survey_search (harmless : l.Harmless left rest)
    (still : Bytes.Quiet (rest.take LogReader.markerOffset))
    (next : rest = [] ∨ LogReader.markerOffset < rest.length) :
    ∃ found, (∀ r ∈ found, r.IsDamaged) ∧
      (l.survey (left ++ rest)).records = found ++ (l.survey rest).records := by
  induction size : left.length using Nat.strong_induction_on generalizing left with
  | _ size ih =>
    subst size
    by_cases short : left.length ≤ LogReader.markerOffset
    · exact ⟨[], List.forall_mem_nil _, records_survey_before short still next⟩
    · have inside := Nat.lt_of_not_le short
      have marker : (left ++ rest).drop LogReader.markerOffset
          = left[LogReader.markerOffset] :: (left.drop (LogReader.markerOffset + 1) ++ rest) := by
        rw [List.drop_append_of_le_length (Nat.le_of_lt inside), List.drop_eq_getElem_cons inside,
          List.cons_append]
      cases quiet : Version.ofMarker? left[LogReader.markerOffset] with
      | none =>
        have still_here : Bytes.Quiet (((left ++ rest).drop LogReader.markerOffset).take 1) := by
          rw [marker]
          intro byte here
          rwa [List.mem_singleton.1 here]
        obtain ⟨found, damaged, told⟩ := ih (left.drop 1).length (by rw [List.length_drop]; omega)
          (harmless.drop (by omega)) rfl
        refine ⟨found, damaged, ?_⟩
        rw [records_survey_pass 1 (by rw [List.length_append]; omega) still_here,
          List.drop_append_of_le_length (by omega), told]
      | some version =>
        have here : left[LogReader.markerOffset] ∈ left[LogReader.markerOffset]? :=
          List.getElem?_eq_getElem inside
        obtain ⟨e, faulty, damage⟩ := harmless _ (Nat.le_refl _) _ here
          (by rw [quiet]; exact Option.some_ne_none _)
        obtain ⟨found, damaged, told⟩ := ih (left.drop (LogReader.markerOffset + 1)).length
          (by rw [List.length_drop]; omega) (harmless.drop inside) rfl
        refine ⟨⟨LogRecord.readTimestamp (left ++ rest), .error e⟩ :: found, ?_, ?_⟩
        · rintro r (_ | ⟨_, later⟩)
          · exact ⟨e, rfl, damage⟩
          · exact damaged r later
        · rw [records_survey_damage faulty damage, List.drop_append_of_le_length inside, told]
          rfl

end Lookup

/-! ## A log with an altered frame -/

namespace Frame

variable {l : Lookup} {f : Frame} {payload : Bytes}

theorem length_altered_pos (f : Frame) (payload : Bytes) : 0 < (f.altered payload).length := by
  have header : 0 < f.header.size := by
    rw [Header.size]
    cases f.header.version <;> decide
  rw [altered, List.length_append, List.length_append, Header.length_toBytes]
  omega

/-- A frame keeps its header and its length when its payload is altered. -/
theorem decode_altered_append (consistent : f.Consistent)
    (same_length : payload.length = f.payload.size) (rest : Bytes) :
    decode (f.altered payload ++ rest) l = decode (f.altered payload) l := by
  have length : payload.length = f.header.payloadLength.toNat :=
    same_length.trans consistent.length
  rw [altered, decode_parts consistent.header length consistent.length_tail,
    ← List.append_nil (f.header.toBytes ++ payload ++ f.tail),
    decode_parts consistent.header length consistent.length_tail]

end Frame

/-- What a log says in which the payload of a frame was altered. -/
theorem Lookup.survey_altered {l : Lookup} {before : List LogEntry} {first : List LogRecord}
    (tells : List.Forall₂ (LogEntry.Tells l) before first) (timestamp : UInt64) {f : Frame}
    (readable : Frame.decode f.toBytes l = .ok f) {payload : Bytes}
    (same_length : payload.length = f.payload.size) {e : DecodeError}
    (faulty : Frame.decode (f.altered payload) l = .error e) (damage : e.isDamage) (rest : Bytes) :
    (l.survey (logOf before ++ (LogEntry.toBytes ⟨timestamp, f.altered payload⟩ ++ rest))).records
      = first ++ ⟨timestamp, .error e⟩
        :: (l.survey ((f.altered payload).drop 1 ++ rest)).records := by
  have consistent := (Frame.decode_eq_ok_iff.1 readable).2.1
  let entry : LogEntry := ⟨timestamp, f.altered payload⟩
  have stands :
      Frame.decode ((entry.toBytes ++ rest).drop LogReader.markerOffset) l = .error e := by
    rw [LogEntry.drop_toBytes_append, Frame.decode_altered_append consistent same_length, faulty]
  have found : l.headOf (entry.toBytes ++ rest) = .record ⟨timestamp, .error e⟩ := by
    rw [headOf_damage stands damage, LogEntry.readTimestamp_toBytes_append]
  have left : (entry.toBytes ++ rest).drop (LogReader.markerOffset + 1)
      = (f.altered payload).drop 1 ++ rest := by
    rw [← List.drop_drop, LogEntry.drop_toBytes_append,
      List.drop_append_of_le_length (f.length_altered_pos payload)]
  rw [survey_logOf_append tells, survey_record found, LogRecord.extent_damage _ damage, left]

theorem logOf_append (before after : List LogEntry) :
    logOf (before ++ after) = logOf before ++ logOf after := List.flatMap_append

/-- A log has no bytes, or more than a timestamp. -/
theorem logOf_eq_nil_or_lt {l : Lookup} {entries : List LogEntry} {records : List LogRecord}
    (tells : List.Forall₂ (LogEntry.Tells l) entries records) :
    logOf entries = [] ∨ LogReader.markerOffset < (logOf entries).length := by
  cases tells with
  | nil => exact .inl rfl
  | @cons e r entries records tell tells =>
    right
    obtain ⟨header, -, whole⟩ := tell.exists_header
    have := header.frameSize_pos
    rw [logOf_cons, List.length_append, LogEntry.length_toBytes]
    omega

namespace LogReader

/-- **What a damaged record costs.**  Entries are written, and the payload of one frame is
altered so that its checksum is not the right one any more.  The records before it are read,
and then the error with the timestamp of its record.  If no byte of the next timestamp is a
marker, and what the markers begin that are left in the frame is damaged as well, the records
after it are read too, all of them and in order, and only errors come between. -/
theorem reads_around_damage {l : Lookup} {before after : List LogEntry}
    {first last : List LogRecord} (tells : List.Forall₂ (LogEntry.Tells l) before first)
    (tells_after : List.Forall₂ (LogEntry.Tells l) after last) (timestamp : UInt64) {f : Frame}
    (readable : Frame.decode f.toBytes l = .ok f) {payload : Bytes}
    (same_length : payload.length = f.payload.size) {id : MessageId} {expected actual : UInt16}
    (mismatch : Frame.decode (f.altered payload) l = .error (.crcMismatch id expected actual))
    {pending : List Delivery} (some_bytes : .bytes [] ∉ pending) (unfailing : .failed ∉ pending)
    (delivered : pending.flatMap Delivery.content = (LogWriter.writeAll ⟨.empty none⟩
      (before ++ ⟨timestamp, f.altered payload⟩ :: after)).2.sink.bytes) :
    ∃ others,
      (∀ n, (answers (before.length + 1 + others.length + n) (start ⟨pending, false⟩ l)).1
        = (first ++ ⟨timestamp, .error (.crcMismatch id expected actual)⟩ :: others).map
            (fun record => .ok (some record)) ++ List.replicate n (.ok none)) ∧
      (Bytes.Quiet ((logOf after).take markerOffset) →
        l.Harmless ((f.altered payload).drop 1) (logOf after) →
          ∃ found, others = found ++ last ∧ ∀ r ∈ found, r.IsDamaged) := by
  have written : (LogWriter.writeAll ⟨.empty none⟩
      (before ++ ⟨timestamp, f.altered payload⟩ :: after)).2.sink.bytes = logOf before
        ++ (LogEntry.toBytes ⟨timestamp, f.altered payload⟩ ++ logOf after) := by
    rw [Sink.empty, LogWriter.writeAll_unlimited, List.nil_append, logOf_append, logOf_cons]
  have records := Lookup.survey_altered tells timestamp readable same_length mismatch rfl
    (logOf after)
  rw [← written, ← delivered] at records
  let left := (f.altered payload).drop 1
  refine ⟨(l.survey (left ++ logOf after)).records, fun n => ?_, fun still harmless => ?_⟩
  · have told := (answers_start (l := l) some_bytes unfailing rfl n).1
    rw [records, List.length_append, List.length_cons, ← tells.length_eq] at told
    rw [← told, Nat.add_assoc before.length, Nat.add_comm 1]
  · obtain ⟨found, damaged, told⟩ := Lookup.survey_search harmless still
      (logOf_eq_nil_or_lt tells_after)
    have rest := Lookup.survey_logOf_append tells_after []
    have nothing : (l.survey []).records = [] := Lookup.records_survey_of_length_le (Nat.zero_le _)
    rw [List.append_nil, nothing, List.append_nil] at rest
    rw [rest] at told
    exact ⟨found, told, damaged⟩

/-- What is told of a log that comes in one piece. -/
theorem answers_piece {l : Lookup} {log : Bytes} (some_bytes : log ≠ []) {records : List LogRecord}
    (content : (l.survey log).records = records) (n : Nat) :
    (answers (records.length + n) (start ⟨[.bytes log], false⟩ l)).1
      = records.map (fun record => .ok (some record)) ++ List.replicate n (.ok none) := by
  have filled : .bytes [] ∉ [Delivery.bytes log] := by
    rw [List.mem_singleton, Delivery.bytes.injEq]
    exact some_bytes.symm
  have whole : l.survey ([Delivery.bytes log].flatMap Delivery.content) = l.survey log := by
    rw [List.flatMap_singleton]
    rfl
  rw [← content]
  exact (answers_start filled (by simp) whole n).1

/-- The heartbeat of an autopilot. -/
def heartbeat : Frame :=
  ⟨⟨.v2, 9, 0, 0, 1, 1, 1, 0⟩, ⟨0, .v2, [0, 0, 0, 0, 6, 8, 0, 4, 3]⟩, 0x0E1A, none⟩

/-- A lookup that knows heartbeats and nothing else. -/
def heartbeatsOnly : Lookup := ⟨fun id => if id = 0 then some 50 else none, fun _ => none⟩

theorem heartbeat_readable : Frame.decode heartbeat.toBytes heartbeatsOnly = .ok heartbeat := by
  decide +kernel

/-- A heartbeat that is altered between two others costs only itself. -/
theorem reads_around_altered_heartbeat :
    ∃ others : List LogRecord,
      let payload : Bytes := [0, 0, 0, 0, 22, 8, 0, 4, 3]
      let log := logOf
        [⟨1, heartbeat.toBytes⟩, ⟨2, heartbeat.altered payload⟩, ⟨3, heartbeat.toBytes⟩]
      Frame.decode (heartbeat.altered payload) heartbeatsOnly
          = .error (.crcMismatch 0 0x4CAA 0x0E1A) ∧
        (∀ n, (answers (1 + 1 + others.length + n)
            (start ⟨[.bytes log], false⟩ heartbeatsOnly)).1
          = (⟨1, .ok heartbeat⟩ :: ⟨2, .error (.crcMismatch 0 0x4CAA 0x0E1A)⟩ :: others).map
              (fun record => .ok (some record)) ++ List.replicate n (.ok none)) ∧
        ∃ found, others = found ++ [⟨3, .ok heartbeat⟩] ∧ ∀ r ∈ found, r.IsDamaged := by
  let payload : Bytes := [0, 0, 0, 0, 22, 8, 0, 4, 3]
  let pending : List Delivery := [.bytes (logOf
    [⟨1, heartbeat.toBytes⟩, ⟨2, heartbeat.altered payload⟩, ⟨3, heartbeat.toBytes⟩])]
  have mismatch : Frame.decode (heartbeat.altered payload) heartbeatsOnly
      = .error (.crcMismatch 0 0x4CAA 0x0E1A) := by decide +kernel
  have same_length : payload.length = heartbeat.payload.size := by decide
  have whole : heartbeat.toBytes.length = heartbeat.size := by decide
  have first : LogEntry.Tells heartbeatsOnly ⟨1, heartbeat.toBytes⟩ ⟨1, .ok heartbeat⟩ :=
    .frame heartbeat_readable whole
  have last : LogEntry.Tells heartbeatsOnly ⟨3, heartbeat.toBytes⟩ ⟨3, .ok heartbeat⟩ :=
    .frame heartbeat_readable whole
  have some_bytes : .bytes [] ∉ pending := by decide
  have unfailing : .failed ∉ pending := by decide
  have left : Bytes.Quiet ((heartbeat.altered payload).drop 1) := by decide
  obtain ⟨others, told, rest⟩ := reads_around_damage (.cons first .nil) (.cons last .nil) 2
    heartbeat_readable same_length mismatch some_bytes unfailing rfl
  exact ⟨others, mismatch, told, rest (by decide) (Lookup.harmless_of_quiet left)⟩

/-! ## What hides the next record -/

/-- The log of two heartbeats of which the first one is altered. -/
def alteredLog (payload : Bytes) (next : UInt64) : Bytes :=
  logOf [⟨1, heartbeat.altered payload⟩, ⟨next, heartbeat.toBytes⟩]

/-- What is left of that log when the first heartbeat is given up. -/
def alteredRest (payload : Bytes) (next : UInt64) : Bytes :=
  (heartbeat.altered payload).drop 1 ++ logOf [⟨next, heartbeat.toBytes⟩]

theorem records_alteredLog {payload : Bytes}
    (same_length : payload.length = heartbeat.payload.size) {e : DecodeError}
    (faulty : Frame.decode (heartbeat.altered payload) heartbeatsOnly = .error e)
    (damage : e.isDamage) (next : UInt64) :
    (heartbeatsOnly.survey (alteredLog payload next)).records
      = ⟨1, .error e⟩ :: (heartbeatsOnly.survey (alteredRest payload next)).records :=
  Lookup.survey_altered .nil 1 heartbeat_readable same_length faulty damage
    (logOf [⟨next, heartbeat.toBytes⟩])

/-- **Three ways to lose the next record.**  A marker in the timestamp of the second heartbeat
begins a candidate that reaches into its frame.  Or what is left of the first one begins a
candidate of an unknown message that takes in the second, or one that the log is too short
for. -/
theorem damage_hides_next :
    (let payload : Bytes := [0, 0, 0, 0, 22, 8, 0, 4, 3];
      Frame.decode (heartbeat.altered payload) heartbeatsOnly
          = .error (.crcMismatch 0 0x4CAA 0x0E1A) ∧
        (answers 3 (start ⟨[.bytes (alteredLog payload 0xFD)], false⟩ heartbeatsOnly)).1
          = [.ok (some ⟨1, .error (.crcMismatch 0 0x4CAA 0x0E1A)⟩),
            .ok (some ⟨0x0E00000000000000, .error (.incompatibleFlags 9)⟩), .ok none]) ∧
    (let payload : Bytes := [0xFE, 30, 0, 1, 1, 7, 8, 4, 3];
      Frame.decode (heartbeat.altered payload) heartbeatsOnly
          = .error (.crcMismatch 0 0x2AEA 0x0E1A) ∧
        (answers 3 (start ⟨[.bytes (alteredLog payload 2)], false⟩ heartbeatsOnly)).1
          = [.ok (some ⟨1, .error (.crcMismatch 0 0x2AEA 0x0E1A)⟩),
            .ok (some ⟨0x10101000000,
              .error (.unknownMessage 7 (((alteredLog payload 2).drop 18).take 38))⟩), .ok none]) ∧
    (let payload : Bytes := [0xFE, 0xFF, 0, 1, 1, 7, 8, 4, 3];
      Frame.decode (heartbeat.altered payload) heartbeatsOnly
          = .error (.crcMismatch 0 0xB29A 0x0E1A) ∧
        (answers 2 (start ⟨[.bytes (alteredLog payload 2)], false⟩ heartbeatsOnly)).1
          = [.ok (some ⟨1, .error (.crcMismatch 0 0xB29A 0x0E1A)⟩), .ok none]) := by
  refine ⟨?_, ?_, ?_⟩
  · let payload : Bytes := [0, 0, 0, 0, 22, 8, 0, 4, 3]
    let left := alteredRest payload 0xFD
    have mismatch : Frame.decode (heartbeat.altered payload) heartbeatsOnly
        = .error (.crcMismatch 0 0x4CAA 0x0E1A) := by decide +kernel
    have faulty : Frame.decode ((left.drop 19).drop markerOffset) heartbeatsOnly
        = .error (.incompatibleFlags 9) := by decide +kernel
    have records : (heartbeatsOnly.survey (alteredLog payload 0xFD)).records
        = [⟨1, .error (.crcMismatch 0 0x4CAA 0x0E1A)⟩,
          ⟨0x0E00000000000000, .error (.incompatibleFlags 9)⟩] := by
      rw [records_alteredLog (by decide) mismatch rfl,
        Lookup.records_survey_pass 19 (by decide) (by decide),
        Lookup.records_survey_damage faulty rfl,
        Lookup.records_survey_pass 13 (by decide) (by decide),
        Lookup.records_survey_of_length_le (by decide)]
      rfl
    exact ⟨mismatch, answers_piece (by decide) records 1⟩
  · let payload : Bytes := [0xFE, 30, 0, 1, 1, 7, 8, 4, 3]
    let left := alteredRest payload 2
    have mismatch : Frame.decode (heartbeat.altered payload) heartbeatsOnly
        = .error (.crcMismatch 0 0x2AEA 0x0E1A) := by decide +kernel
    have unknown : Frame.decode ((left.drop 1).drop markerOffset) heartbeatsOnly
        = .error (.unknownMessage 7 (((alteredLog payload 2).drop 18).take 38)) := by
      decide +kernel
    have records : (heartbeatsOnly.survey (alteredLog payload 2)).records
        = [⟨1, .error (.crcMismatch 0 0x2AEA 0x0E1A)⟩, ⟨0x10101000000,
            .error (.unknownMessage 7 (((alteredLog payload 2).drop 18).take 38))⟩] := by
      rw [records_alteredLog (by decide) mismatch rfl,
        Lookup.records_survey_pass 1 (by decide) (by decide),
        Lookup.records_survey_unknown unknown, Lookup.records_survey_of_length_le (by decide)]
      rfl
    exact ⟨mismatch, answers_piece (by decide) records 1⟩
  · let payload : Bytes := [0xFE, 0xFF, 0, 1, 1, 7, 8, 4, 3]
    let left := alteredRest payload 2
    have mismatch : Frame.decode (heartbeat.altered payload) heartbeatsOnly
        = .error (.crcMismatch 0 0xB29A 0x0E1A) := by decide +kernel
    have few : Frame.decode ((left.drop 1).drop markerOffset) heartbeatsOnly
        = .error (.truncated 263 40) := by decide +kernel
    have records : (heartbeatsOnly.survey (alteredLog payload 2)).records
        = [⟨1, .error (.crcMismatch 0 0xB29A 0x0E1A)⟩] := by
      rw [records_alteredLog (by decide) mismatch rfl,
        Lookup.records_survey_pass 1 (by decide) (by decide),
        Lookup.records_survey_truncated few]
    exact ⟨mismatch, answers_piece (by decide) records 1⟩

end LogReader
end Mavlink
