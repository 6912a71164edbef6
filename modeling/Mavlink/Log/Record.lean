import Mavlink.Wire.Frame

/-!
# Telemetry logs

A log is a sequence of records, each the time in microseconds of Unix time as eight
bytes, the most significant first, and the bytes of a frame.
-/

namespace Mavlink

/-- What a log says about a moment. -/
structure LogRecord where
  /-- Microseconds of Unix time. -/
  timestamp : UInt64
  /-- The frame, or why it was rejected. -/
  frame : Except DecodeError Frame

namespace LogRecord

/-- The bytes of a timestamp. -/
def timestampSize : Nat := 8

/-- The timestamp of a moment, given in nanoseconds of Unix time.  Moments before
count as its beginning. -/
def timestampOfNanos (nanos : Int) : UInt64 := UInt64.ofNat (nanos.toNat / 1000)

/-- The bytes of a record. -/
def toBytes (timestamp : UInt64) (frame : Bytes) : Bytes :=
  Bytes.big timestampSize timestamp.toNat ++ frame

/-- The timestamp at the beginning of a record. -/
def readTimestamp (record : Bytes) : UInt64 :=
  UInt64.ofNat (Bytes.ofBig (record.take timestampSize))

end LogRecord
end Mavlink
