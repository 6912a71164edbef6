import Mavlink.Dictionary
import Mavlink.Wire.Address

/-!
# Counting losses

Every sender numbers its frames modulo 256.  If the number jumps by more than
one, the frames between were lost; a number that comes twice is not a loss, and
neither is the first.
-/

namespace Mavlink

/-- What is known of a sender. -/
structure Peer where
  address : Address
  /-- The number of its last frame. -/
  last : UInt8
  received : Nat
  lost : Nat
  deriving DecidableEq

/-- The senders that have been heard. -/
structure SequenceTracker where
  peers : Dictionary Address Peer
  deriving DecidableEq

namespace SequenceTracker

/-- Nobody has been heard. -/
def empty : SequenceTracker := ⟨∅⟩

/-- The frames lost between two numbers of a sender. -/
def gap (last sequence : UInt8) : Nat := (sequence - last).toNat - 1

/-- Hears a frame.  Answers how many frames were lost before it, if any. -/
def track (t : SequenceTracker) (sender : Address) (sequence : UInt8) :
    Option Nat × SequenceTracker :=
  match t.peers.find? sender with
  | none => (none, ⟨t.peers.insert sender ⟨sender, sequence, 1, 0⟩⟩)
  | some peer =>
    let lost := gap peer.last sequence
    let peer := { peer with
      last := sequence, received := peer.received + 1, lost := peer.lost + lost }
    (if lost = 0 then none else some lost, ⟨t.peers.insert sender peer⟩)

end SequenceTracker

/-- The numbers that a sender gives its frames. -/
structure Sequencer where
  /-- The number of the next frame. -/
  current : UInt8
  deriving DecidableEq, Inhabited

namespace Sequencer

/-- The next number, and the sequencer after it. -/
def advance (s : Sequencer) : UInt8 × Sequencer := (s.current, ⟨s.current + 1⟩)

end Sequencer
end Mavlink
