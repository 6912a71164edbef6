import Mavlink.Log.Record
import Mavlink.Stream.Sink

/-!
# Writing telemetry logs

The timestamp of a record is written before its frame.  If the sink refuses a part
of the timestamp, nothing of the frame is written.
-/

namespace Mavlink

/-- A log being written. -/
structure LogWriter where
  sink : Sink

namespace LogWriter

/-- Writes a record. -/
def write (w : LogWriter) (timestamp : UInt64) (frame : Bytes) :
    Except TransferError Unit × LogWriter :=
  match w.sink.write (LogRecord.toBytes timestamp []) with
  | (.error error, sink) => (.error error, ⟨sink⟩)
  | (.ok (), sink) =>
    let (written, sink) := sink.write frame
    (written, ⟨sink⟩)

/-- Writes a frame at a moment, given in nanoseconds of Unix time. -/
def writeFrame (w : LogWriter) (nanos : Int) (frame : Frame) :
    Except TransferError Unit × LogWriter :=
  w.write (LogRecord.timestampOfNanos nanos) frame.toBytes

/-- Makes sure that what was written has arrived. -/
def flush (w : LogWriter) : Except TransferError Unit := w.sink.flush

end LogWriter
end Mavlink
