import Mathlib
import Mavlink.Log.Writer
import Mavlink.Proofs.Link.Scanner
import Mavlink.Proofs.Log.LogScan

/-!
# Writing a log and reading what is left of it

A log that was written entry by entry may end anywhere, because the machine that wrote it
may stop at any time.  Every entry that is whole is read back, with its timestamp and its
frame, or with the bytes of its frame if the message is not known.  The bytes of the entry
that is not whole are passed over: a part of a record is never mistaken for another one.

The reason is that a reader that begins at an entry ends at the next one.  It looks for a
marker just behind the timestamp, finds it, and the header behind the marker says how long
the entry is.

* `Lookup.survey_logOf` --- what a log says that was cut off somewhere;
* `LogReader.reads_entries` --- what is therefore read of it, in whatever pieces it comes.
-/

namespace Mavlink

/-- An entry of a log: a moment, and the bytes of a frame. -/
structure LogEntry where
  timestamp : UInt64
  frame : Bytes

namespace LogEntry

/-- The bytes of an entry. -/
def toBytes (e : LogEntry) : Bytes := LogRecord.toBytes e.timestamp e.frame

theorem length_toBytes (e : LogEntry) :
    e.toBytes.length = LogReader.markerOffset + e.frame.length := by
  rw [toBytes, LogRecord.toBytes, List.length_append, Bytes.length_big]
  rfl

/-- What a reader should tell of an entry.  Its bytes are those of a frame that can be read,
or they are as many as their header says but nothing is known of the message. -/
inductive Tells (l : Lookup) (e : LogEntry) : LogRecord → Prop
  | frame {f : Frame} (readable : Frame.decode e.frame l = .ok f)
      (whole : e.frame.length = f.size) : Tells l e ⟨e.timestamp, .ok f⟩
  | unknown {h : Header} (header : Header.decode e.frame = .ok h)
      (whole : e.frame.length = h.frameSize) (unknown : l.fingerprint h.messageId = none) :
      Tells l e ⟨e.timestamp, .error (.unknownMessage h.messageId e.frame)⟩

end LogEntry

/-- The bytes of entries one after another. -/
def logOf (entries : List LogEntry) : Bytes := entries.flatMap LogEntry.toBytes

theorem logOf_cons (e : LogEntry) (entries : List LogEntry) :
    logOf (e :: entries) = e.toBytes ++ logOf entries := List.flatMap_cons

/-- How many entries lie before a place of their log. -/
def wholeBefore : Nat → List LogEntry → Nat
  | _, [] => 0
  | place, e :: entries =>
    if e.toBytes.length ≤ place then wholeBefore (place - e.toBytes.length) entries + 1 else 0

/-- The bytes before a place that belong to the entry there. -/
def partBefore (place : Nat) (entries : List LogEntry) : Nat :=
  ((logOf entries).take place).length - (logOf (entries.take (wholeBefore place entries))).length

section Places

variable {place : Nat} {e : LogEntry} {entries : List LogEntry}

theorem wholeBefore_of_le (whole : e.toBytes.length ≤ place) :
    wholeBefore place (e :: entries) = wholeBefore (place - e.toBytes.length) entries + 1 :=
  if_pos whole

theorem wholeBefore_of_lt (cut : place < e.toBytes.length) :
    wholeBefore place (e :: entries) = 0 :=
  if_neg (Nat.not_le.2 cut)

theorem wholeBefore_le_length (place : Nat) (entries : List LogEntry) :
    wholeBefore place entries ≤ entries.length := by
  induction entries generalizing place with
  | nil => exact Nat.le_refl _
  | cons e entries ih =>
    by_cases whole : e.toBytes.length ≤ place
    · rw [wholeBefore_of_le whole]
      exact Nat.succ_le_succ (ih _)
    · rw [wholeBefore_of_lt (Nat.lt_of_not_le whole)]
      exact Nat.zero_le _

theorem take_logOf_of_le (whole : e.toBytes.length ≤ place) :
    (logOf (e :: entries)).take place
      = e.toBytes ++ (logOf entries).take (place - e.toBytes.length) := by
  rw [logOf_cons, List.take_append, List.take_of_length_le whole]

theorem take_logOf_of_lt (cut : place < e.toBytes.length) :
    (logOf (e :: entries)).take place = e.toBytes.take place := by
  rw [logOf_cons, List.take_append_of_le_length (Nat.le_of_lt cut)]

theorem partBefore_nil (place : Nat) : partBefore place [] = 0 := by
  rw [partBefore, logOf, List.flatMap_nil, List.take_nil]
  exact Nat.zero_sub _

theorem partBefore_of_le (whole : e.toBytes.length ≤ place) :
    partBefore place (e :: entries) = partBefore (place - e.toBytes.length) entries := by
  rw [partBefore, partBefore, take_logOf_of_le whole, wholeBefore_of_le whole, List.take_succ_cons,
    logOf_cons, List.length_append, List.length_append, Nat.add_sub_add_left]

theorem partBefore_of_lt (cut : place < e.toBytes.length) :
    partBefore place (e :: entries) = (e.toBytes.take place).length := by
  rw [partBefore, take_logOf_of_lt cut, wholeBefore_of_lt cut]
  rfl

end Places

/-! ## Writing entries -/

theorem Sink.write_unlimited {s : Sink} (unlimited : s.limit = none) (bytes : Bytes) :
    s.write bytes = (.ok (), ⟨s.bytes ++ bytes, none⟩) := by
  obtain ⟨written, limit⟩ := s
  cases unlimited
  exact Prod.ext (if_neg (Nat.lt_irrefl _)) rfl

namespace LogWriter

/-- Writes entries one after another, as long as they are taken. -/
def writeAll (w : LogWriter) : List LogEntry → Except TransferError Unit × LogWriter
  | [] => (.ok (), w)
  | e :: entries =>
    match w.write e.timestamp e.frame with
    | (.error error, w) => (.error error, w)
    | (.ok (), w) => w.writeAll entries

theorem write_unlimited (written : Bytes) (e : LogEntry) :
    write ⟨⟨written, none⟩⟩ e.timestamp e.frame = (.ok (), ⟨⟨written ++ e.toBytes, none⟩⟩) := by
  rw [write, Sink.write_unlimited rfl]
  dsimp only
  rw [Sink.write_unlimited rfl, List.append_assoc, LogEntry.toBytes, LogRecord.toBytes,
    LogRecord.toBytes, List.append_nil]

/-- A sink that has room takes all entries. -/
theorem writeAll_unlimited (written : Bytes) (entries : List LogEntry) :
    writeAll ⟨⟨written, none⟩⟩ entries = (.ok (), ⟨⟨written ++ logOf entries, none⟩⟩) := by
  induction entries generalizing written with
  | nil =>
    rw [logOf, List.flatMap_nil, List.append_nil]
    rfl
  | cons e entries ih =>
    rw [writeAll, write_unlimited]
    dsimp only
    rw [ih, logOf_cons, List.append_assoc]

end LogWriter

/-! ## One entry -/

namespace LogEntry

variable {l : Lookup} {e : LogEntry} {r : LogRecord}

theorem drop_toBytes_append (e : LogEntry) (rest : Bytes) :
    (e.toBytes ++ rest).drop LogReader.markerOffset = e.frame ++ rest := by
  rw [toBytes, LogRecord.toBytes, List.append_assoc]
  exact List.drop_left' (Bytes.length_big ..)

/-- The timestamp of an entry is read back. -/
theorem readTimestamp_toBytes_append (e : LogEntry) (rest : Bytes) :
    LogRecord.readTimestamp (e.toBytes ++ rest) = e.timestamp := by
  have small : e.timestamp.toNat % Nat.pow 256 LogRecord.timestampSize = e.timestamp.toNat :=
    Nat.mod_eq_of_lt e.timestamp.toNat_lt
  rw [LogRecord.readTimestamp, toBytes, LogRecord.toBytes, List.append_assoc,
    List.take_left' (Bytes.length_big ..), Bytes.ofBig_big, small, UInt64.ofNat_toNat]

/-- The header of an entry says how long its frame is. -/
theorem Tells.exists_header (h : e.Tells l r) :
    ∃ header, Header.decode e.frame = .ok header ∧ e.frame.length = header.frameSize := by
  cases h with
  | frame readable whole => exact ⟨_, (Frame.header_of_decode readable).1, whole⟩
  | unknown header whole _ => exact ⟨_, header, whole⟩

/-- Once an entry is told it is done with, and nothing else is. -/
theorem Tells.extent (h : e.Tells l r) : r.extent = e.toBytes.length := by
  rw [length_toBytes]
  cases h with
  | frame _ whole => rw [LogRecord.extent_frame, whole]
  | unknown => exact LogRecord.extent_unknown ..

/-- What an entry tells stands at the beginning of a log that begins with it. -/
theorem Tells.headOf_append (h : e.Tells l r) (rest : Bytes) :
    l.headOf (e.toBytes ++ rest) = .record r := by
  obtain ⟨header, announced, whole⟩ := h.exists_header
  have stands : Frame.decode ((e.toBytes ++ rest).drop LogReader.markerOffset) l
      = Frame.decode e.frame l := by
    rw [drop_toBytes_append, Frame.decode_append announced (Nat.le_of_eq whole.symm)]
  have timestamp := e.readTimestamp_toBytes_append rest
  cases h with
  | frame readable _ => rw [Lookup.headOf_frame (stands.trans readable), timestamp]
  | unknown header whole unknown =>
    have raw := Frame.decode_of_unknown header (Nat.le_of_eq whole.symm) unknown
    rw [List.take_of_length_le (Nat.le_of_eq whole)] at raw
    rw [Lookup.headOf_unknown (stands.trans raw), timestamp]

/-- Nothing is told of an entry that is not whole. -/
theorem Tells.headOf_take (h : e.Tells l r) {place : Nat} (cut : place < e.toBytes.length) :
    l.headOf (e.toBytes.take place) = .tail := by
  obtain ⟨header, announced, whole⟩ := h.exists_header
  have length : (e.toBytes.take place).length = place := List.length_take_of_le (Nat.le_of_lt cut)
  rw [length_toBytes, whole] at cut
  by_cases early : place ≤ LogReader.markerOffset
  · exact Lookup.headOf_of_length_le (length.trans_le early)
  · obtain ⟨seen, rfl⟩ := Nat.exists_eq_add_of_lt (Nat.lt_of_not_le early)
    have frame : (e.toBytes.take (LogReader.markerOffset + seen + 1)).drop LogReader.markerOffset
        = e.frame.take (seen + 1) := by
      rw [Nat.add_assoc, ← List.take_drop, ← List.append_nil e.toBytes, drop_toBytes_append,
        List.append_nil]
    by_cases reach : header.size ≤ seen + 1
    · have read := Header.decode_take announced reach
      rw [← frame] at read
      exact Lookup.headOf_of_short_frame read (length.trans_lt cut)
    · obtain ⟨behind, starts⟩ := Header.exists_marker announced
      rw [starts, List.take_succ_cons] at frame
      have short : LogReader.markerOffset + seen + 1
          < LogReader.markerOffset + header.version.headerSize := by
        rw [Header.size] at reach
        omega
      exact Lookup.headOf_of_short_header frame (length.trans_lt short)

end LogEntry

/-- What a log says that begins with entries. -/
theorem Lookup.survey_logOf_append {l : Lookup} {entries : List LogEntry}
    {records : List LogRecord} (tells : List.Forall₂ (LogEntry.Tells l) entries records)
    (rest : Bytes) :
    l.survey (logOf entries ++ rest)
      = ⟨records ++ (l.survey rest).records, (l.survey rest).skipped⟩ := by
  induction tells with
  | nil => rfl
  | @cons e r entries records tell tells ih =>
    rw [logOf_cons, List.append_assoc, Lookup.survey_record (tell.headOf_append _), tell.extent,
      List.drop_left, ih]
    rfl

/-- What a log says that was cut off at a place. -/
theorem Lookup.survey_logOf {l : Lookup} {entries : List LogEntry} {records : List LogRecord}
    (tells : List.Forall₂ (LogEntry.Tells l) entries records) (place : Nat) :
    l.survey ((logOf entries).take place)
      = ⟨records.take (wholeBefore place entries), partBefore place entries⟩ := by
  induction tells generalizing place with
  | nil =>
    have nothing : (logOf []).take place = [] := List.take_nil
    have empty : l.headOf [] = .tail := Lookup.headOf_of_length_le (Nat.zero_le _)
    rw [nothing, Lookup.survey_tail empty, partBefore_nil]
    rfl
  | @cons e r entries records tell tells ih =>
    by_cases whole : e.toBytes.length ≤ place
    · rw [take_logOf_of_le whole, Lookup.survey_record (tell.headOf_append _), tell.extent,
        List.drop_left, ih, wholeBefore_of_le whole, partBefore_of_le whole, List.take_succ_cons]
    · have cut := Nat.lt_of_not_le whole
      rw [take_logOf_of_lt cut, Lookup.survey_tail (tell.headOf_take cut), wholeBefore_of_lt cut,
        partBefore_of_lt cut, List.take_zero]

namespace LogReader

/-- **What was written is read, as far as it is there.**  Entries are written to a sink that
takes all of them, and their log is cut off at any place.  However it is then delivered, the
records of the entries before the cut are read, in order, and then the end of the log; the
bytes that were passed over are those of the entry that was cut. -/
theorem reads_entries {l : Lookup} {entries : List LogEntry} {records : List LogRecord}
    (tells : List.Forall₂ (LogEntry.Tells l) entries records) (place : Nat)
    {pending : List Delivery} (some_bytes : .bytes [] ∉ pending) (unfailing : .failed ∉ pending)
    (delivered : pending.flatMap Delivery.content
      = (LogWriter.writeAll ⟨.empty none⟩ entries).2.sink.bytes.take place) (n : Nat) :
    (LogWriter.writeAll ⟨.empty none⟩ entries).1 = .ok () ∧
      let told := answers (wholeBefore place entries + n) (start ⟨pending, false⟩ l)
      told.1 = (records.take (wholeBefore place entries)).map (fun record => .ok (some record))
          ++ List.replicate n (.ok none) ∧
        (0 < n → told.2.skipped = partBefore place entries) := by
  have written : LogWriter.writeAll ⟨.empty none⟩ entries = (.ok (), ⟨⟨logOf entries, none⟩⟩) :=
    LogWriter.writeAll_unlimited [] entries
  rw [written] at delivered ⊢
  have content : l.survey (pending.flatMap Delivery.content)
      = ⟨records.take (wholeBefore place entries), partBefore place entries⟩ := by
    rw [delivered]
    exact Lookup.survey_logOf tells place
  have count : (records.take (wholeBefore place entries)).length = wholeBefore place entries := by
    rw [List.length_take, ← tells.length_eq]
    exact Nat.min_eq_left (wholeBefore_le_length place entries)
  have told := answers_start some_bytes unfailing content n
  rw [count] at told
  exact ⟨rfl, told⟩

/-- A heartbeat, a message that is not known, and the beginning of another heartbeat, in two
pieces with an interruption between them. -/
theorem cut_log_read_back :
    ∃ f : Frame,
      f.toBytes = [0xFD, 9, 0, 0, 1, 1, 1, 0, 0, 0, 0, 0, 0, 0, 6, 8, 0, 4, 3, 0x1A, 0x0E] ∧
      let unknown : Bytes := [0xFE, 1, 0, 1, 1, 7, 42, 0, 0]
      let log := (LogWriter.writeAll ⟨.empty none⟩
        [⟨1, f.toBytes⟩, ⟨2, unknown⟩, ⟨3, f.toBytes⟩]).2.sink.bytes
      let told := answers 3 (start
        ⟨[.bytes (log.take 30), .interrupted, .bytes ((log.take 58).drop 30)], false⟩
        ⟨fun id => if id = 0 then some 50 else none, fun _ => none⟩)
      told.1 = [.ok (some ⟨1, .ok f⟩), .ok (some ⟨2, .error (.unknownMessage 7 unknown)⟩), .ok none] ∧
        told.2.skipped = 12 := by
  let f : Frame := ⟨⟨.v2, 9, 0, 0, 1, 1, 1, 0⟩, ⟨0, .v2, [0, 0, 0, 0, 6, 8, 0, 4, 3]⟩, 0x0E1A, none⟩
  let l : Lookup := ⟨fun id => if id = 0 then some 50 else none, fun _ => none⟩
  let unknown : Bytes := [0xFE, 1, 0, 1, 1, 7, 42, 0, 0]
  let entries : List LogEntry := [⟨1, f.toBytes⟩, ⟨2, unknown⟩, ⟨3, f.toBytes⟩]
  let log := (LogWriter.writeAll ⟨.empty none⟩ entries).2.sink.bytes
  let pending : List Delivery :=
    [.bytes (log.take 30), .interrupted, .bytes ((log.take 58).drop 30)]
  have readable : Frame.decode f.toBytes l = .ok f :=
    Lookup.examine_eq_frame_iff.1 (by decide +kernel)
  have whole : f.toBytes.length = f.size := by decide
  let header : Header := ⟨.v1, 1, 0, 0, 0, 1, 1, 7⟩
  have first : LogEntry.Tells l ⟨1, f.toBytes⟩ ⟨1, .ok f⟩ := .frame readable whole
  have second : LogEntry.Tells l ⟨2, unknown⟩ ⟨2, .error (.unknownMessage 7 unknown)⟩ :=
    .unknown (e := ⟨2, unknown⟩) (h := header) rfl rfl rfl
  have third : LogEntry.Tells l ⟨3, f.toBytes⟩ ⟨3, .ok f⟩ := .frame readable whole
  have delivered : pending.flatMap Delivery.content = log.take 58 := by decide
  have two : wholeBefore 58 entries = 2 := by decide
  have twelve : partBefore 58 entries = 12 := by decide
  have told := (reads_entries (.cons first (.cons second (.cons third .nil))) 58 (by decide)
    (by decide) delivered 1).2
  rw [two, twelve] at told
  exact ⟨f, by decide, told.1, told.2 (by decide)⟩

end LogReader
end Mavlink
