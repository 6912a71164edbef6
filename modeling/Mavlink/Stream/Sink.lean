import Mavlink.Error

/-!
# Where bytes go

A sink collects bytes, up to a limit if it has one.  What does not fit is not
written, but what fits before it is.
-/

namespace Mavlink

/-- A place to write bytes to. -/
structure Sink where
  /-- What has been written. -/
  bytes : Bytes
  limit : Option Nat
  deriving DecidableEq

namespace Sink

/-- Nothing written yet. -/
def empty (limit : Option Nat) : Sink := ⟨[], limit⟩

/-- The bytes of a piece for which there is room. -/
def fitting (s : Sink) (bytes : Bytes) : Bytes :=
  match s.limit with
  | none => bytes
  | some limit => bytes.take (limit - s.bytes.length)

/-- Writes bytes.  If there is no room for all of them the others are written all the
same. -/
def write (s : Sink) (bytes : Bytes) : Except TransferError Unit × Sink :=
  let fits := s.fitting bytes
  (if fits.length < bytes.length then .error .writeFailed else .ok (),
    { s with bytes := s.bytes ++ fits })

/-- Makes sure that what was written has arrived, which a sink without room for more
cannot do. -/
def flush (s : Sink) : Except TransferError Unit :=
  if s.limit = some s.bytes.length then .error .flushFailed else .ok ()

end Sink
end Mavlink
