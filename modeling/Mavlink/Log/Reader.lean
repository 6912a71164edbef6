import Mavlink.Log.Record
import Mavlink.Stream.Source

/-!
# Reading telemetry logs

The reader keeps a window on the log and looks for a record at its beginning.  What
cannot be a record, because no marker stands behind eight bytes, is passed over byte
by byte.  Of a record whose frame is damaged, only the timestamp and the marker are
given up, so that the search goes on inside the frame.

A frame of an unknown message is well formed as far as anybody can tell, so it is
taken as a whole.
-/

namespace Mavlink

/-- A log being read. -/
structure LogReader where
  source : Source
  lookup : Lookup
  /-- The bytes that were read and have not been used. -/
  window : Bytes
  /-- The bytes that were passed over. -/
  skipped : Nat

namespace LogReader

/-- Starts reading a log. -/
def start (source : Source) (lookup : Lookup) : LogReader := ⟨source, lookup, [], 0⟩

/-- The bytes of the log that have not been used. -/
def held (r : LogReader) : Nat := r.window.length + r.source.remaining

/-- Reads until the window has a size.  Answers whether the log is that long. -/
def fill (r : LogReader) (size : Nat) : Except TransferError Bool × LogReader :=
  if size ≤ r.window.length then (.ok true, r)
  else
    match _h : r.source.pending with
    | [] => (if r.source.broken then .error .readFailed else .ok false, r)
    | .interrupted :: pending => fill { r with source := { r.source with pending } } size
    | .failed :: pending => (.error .readFailed, { r with source := { r.source with pending } })
    | .bytes [] :: pending => (.ok false, { r with source := { r.source with pending } })
    | .bytes (b :: chunk) :: pending =>
      fill { r with
        source := { r.source with pending }, window := r.window ++ b :: chunk } size
termination_by r.source.pending.length
decreasing_by all_goals simp [_h]

theorem held_fill (r : LogReader) (size : Nat) : (r.fill size).2.held = r.held := by
  fun_induction fill r size
  all_goals simp_all [held, Source.remaining, Delivery.size]
  omega

theorem le_length_fill (r : LogReader) (size : Nat) (h : (r.fill size).1 = .ok true) :
    size ≤ (r.fill size).2.window.length := by
  fun_induction fill r size <;> simp_all
  split at h <;> simp_all

/-- Where the marker of a record stands. -/
def markerOffset : Nat := LogRecord.timestampSize

/-- Uses bytes of the window. -/
def use (r : LogReader) (count : Nat) : LogReader := { r with window := r.window.drop count }

/-- Gives up the bytes that are left; they are too few for a record. -/
def finish (r : LogReader) : LogReader :=
  { r with window := [], skipped := r.skipped + r.window.length }

/-- Reads the record at the beginning of a window that has a marker in place. -/
def readMarked (r : LogReader) (version : Version) :
    Except TransferError (Option LogRecord) × LogReader :=
  let timestamp := LogRecord.readTimestamp r.window
  match r.fill (markerOffset + version.headerSize) with
  | (.error error, r) => (.error error, r)
  | (.ok false, r) => (.ok none, r.finish)
  | (.ok true, r) =>
    match Header.decode (r.window.drop markerOffset) with
    | .error error => (.ok (some ⟨timestamp, .error error⟩), r.use (markerOffset + 1))
    | .ok header =>
      let size := markerOffset + header.frameSize
      match r.fill size with
      | (.error error, r) => (.error error, r)
      | (.ok false, r) => (.ok none, r.finish)
      | (.ok true, r) =>
        match Frame.decode ((r.window.take size).drop markerOffset) r.lookup with
        | .ok frame => (.ok (some ⟨timestamp, .ok frame⟩), r.use size)
        | .error (.unknownMessage id raw) =>
          (.ok (some ⟨timestamp, .error (.unknownMessage id raw)⟩), r.use size)
        | .error error => (.ok (some ⟨timestamp, .error error⟩), r.use (markerOffset + 1))

/-- Reads the next record; there is none at the end of the log. -/
def read (r : LogReader) : Except TransferError (Option LogRecord) × LogReader :=
  match _h : r.fill (markerOffset + 1) with
  | (.error error, r) => (.error error, r)
  | (.ok false, r) => (.ok none, r.finish)
  | (.ok true, filled) =>
    match Version.ofMarker? (filled.window.getD markerOffset 0) with
    | some version => filled.readMarked version
    | none => read { filled.use 1 with skipped := filled.skipped + 1 }
termination_by r.held
decreasing_by
  have same := held_fill r (markerOffset + 1)
  have long := le_length_fill r (markerOffset + 1) (by rw [_h])
  rw [_h] at same long
  simp only [held, use, List.length_drop] at *
  omega

end LogReader
end Mavlink
