import Mavlink.Bytes

/-!
# Signature timestamps

A signature is stamped with the time in units of ten microseconds since the
beginning of 2015, as a number of 48 bits.  What does not fit is dropped, and
moments before 2015 count as its beginning.
-/

namespace Mavlink

/-- A number of 48 bits, six bytes on the wire. -/
abbrev Word48 := Fin 0x1000000000000

namespace Word48

/-- The low 48 bits of a number. -/
def ofNat (n : Nat) : Word48 := Fin.ofNat 0x1000000000000 n

/-- The six bytes, least significant first. -/
def toBytes (w : Word48) : Bytes := Bytes.little 6 w.val

/-- The number of the first six bytes. -/
def ofBytes (bytes : Bytes) : Word48 := ofNat (Bytes.ofLittle (bytes.take 6))

end Word48

/-- Tens of microseconds since the beginning of 2015. -/
abbrev Timestamp := Word48

namespace Timestamp

/-- The greatest timestamp. -/
def max : Nat := 0xFFFFFFFFFFFF

/-- The beginning of 2015 in seconds of Unix time. -/
def epochSeconds : Nat := 1420070400

/-- The timestamp of a moment, given in nanoseconds of Unix time. -/
def ofUnixNanos (nanos : Int) : Timestamp :=
  Word48.ofNat ((nanos - epochSeconds * 1000000000).toNat / 10000)

/-- The moment of a timestamp in microseconds of Unix time. -/
def toUnixMicros (t : Timestamp) : Nat := epochSeconds * 1000000 + t.val * 10

end Timestamp

/-- The last timestamp that was given out.  Everybody who signs with one key
draws timestamps from one of these, so none is given out twice. -/
structure SigningClock where
  last : Nat
  deriving DecidableEq, Inhabited

namespace SigningClock

/-- A clock that is started at a moment. -/
def start (now : Timestamp) : SigningClock := ⟨now.val - 1⟩

/-- Gives out the time, or the number after the last one where time has not moved on. -/
def next (c : SigningClock) (now : Timestamp) : Timestamp × SigningClock :=
  let stamp := Nat.max now.val (c.last + 1)
  (Word48.ofNat stamp, ⟨stamp⟩)

end SigningClock
end Mavlink
