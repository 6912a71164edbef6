import Mavlink.Error

/-!
# Where bytes come from

A source hands out bytes in pieces of its own choosing.  An attempt to read may be
interrupted, which means nothing, or fail, after which reading may go on.  A piece
without bytes is the end of the stream; once a source has nothing left to hand out
it ends, or fails, for good.
-/

namespace Mavlink

/-- What one attempt to read gives. -/
inductive Delivery where
  | bytes (chunk : Bytes)
  | interrupted
  | failed
  deriving DecidableEq

/-- The bytes of a delivery. -/
def Delivery.content : Delivery → Bytes
  | .bytes chunk => chunk
  | .interrupted | .failed => []

/-- The count of bytes in a delivery. -/
def Delivery.size : Delivery → Nat
  | .bytes chunk => chunk.length
  | .interrupted | .failed => 0

/-- A stream of bytes to be read. -/
structure Source where
  /-- What the next attempts give. -/
  pending : List Delivery
  /-- Whether the attempts after these fail; otherwise the stream has ended. -/
  broken : Bool := false
  deriving DecidableEq

namespace Source

/-- What an attempt gives once nothing is pending. -/
def final (s : Source) : Delivery := if s.broken then .failed else .bytes []

/-- Attempts to read. -/
def read (s : Source) : Delivery × Source :=
  match s.pending with
  | [] => (s.final, s)
  | d :: pending => (d, { s with pending := pending })

/-- The bytes that have not been read. -/
def remaining (s : Source) : Nat := s.pending.foldr (fun d n => d.size + n) 0

/-- Cuts bytes into deliveries of at most the sizes given; an attempt of size zero is
interrupted, and what is left at the end comes in one piece. -/
def cut : List Nat → Bytes → List Delivery
  | _, [] => []
  | [], rest => [.bytes rest]
  | 0 :: sizes, rest => .interrupted :: cut sizes rest
  | size :: sizes, rest => .bytes (rest.take size) :: cut sizes (rest.drop size)

/-- The most bytes that are asked for at once. -/
def chunkSize : Nat := 512

/-- A source of bytes that hands out at most the sizes given, over and over.  As
long as one of them is not zero, every turn moves at least a byte, so there are no
more turns than bytes. -/
def ofSizes (sizes : List Nat) (bytes : Bytes) (broken : Bool) : Source :=
  let sizes := if sizes = [] then [chunkSize] else sizes.map (min chunkSize)
  ⟨cut (List.replicate bytes.length sizes).flatten bytes, broken⟩

end Source
end Mavlink
