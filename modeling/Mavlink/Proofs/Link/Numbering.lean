import Mathlib.Logic.Function.Basic
import Mavlink.Proofs.Link.FrameStream

/-!
# Numbers of frames

Every sender numbers its frames on from some number, and begins again behind 255; frames of
several senders come in any order (`Numbered`).  A receiver sees only the numbers.  From the
number of the last frame of a sender to that of its next one it can tell how many are
missing, as long as they are not more than 254.

* `SequenceTracker.gap_of_missing` --- the count of the missing frames;
* `SequenceTracker.reports_of_numbered` --- nothing is reported missing if nothing is.
-/

namespace Mavlink

/-- Frames of senders that each number on from a number of their own. -/
def Numbered (next : Address → Sequencer) : List Frame → Prop
  | [] => True
  | f :: fs => f.header.sequence = (next f.sender).advance.1 ∧
      Numbered (Function.update next f.sender (next f.sender).advance.2) fs

instance Numbered.decidable : (next : Address → Sequencer) → (frames : List Frame) →
    Decidable (Numbered next frames)
  | _, [] => .isTrue trivial
  | next, f :: fs =>
    have := decidable (Function.update next f.sender (next f.sender).advance.2) fs
    inferInstanceAs (Decidable (_ ∧ _))

namespace SequenceTracker

/-- The receiver counts the frames that are missing, if they are at most 254. -/
theorem gap_of_missing (last : UInt8) {missing : Nat} (few : missing ≤ 254) :
    gap last (last + 1 + UInt8.ofNat missing) = missing := by
  have distance : (last + 1 + UInt8.ofNat missing - last).toNat = missing + 1 := by
    have hlast := last.toNat_lt
    rw [UInt8.toNat_sub, UInt8.toNat_add, UInt8.toNat_add, UInt8.toNat_ofNat']
    have hone : (1 : UInt8).toNat = 1 := rfl
    omega
  rw [gap, distance, Nat.add_sub_cancel]

theorem track_of_none {t : SequenceTracker} {sender : Address}
    (unknown : t.peers.find? sender = none) (sequence : UInt8) :
    t.track sender sequence = (none, ⟨t.peers.insert sender ⟨sender, sequence, 1, 0⟩⟩) := by
  simp only [track, unknown]

theorem track_of_some {t : SequenceTracker} {sender : Address} {peer : Peer}
    (known : t.peers.find? sender = some peer) (sequence : UInt8) :
    t.track sender sequence =
      (if gap peer.last sequence = 0 then none else some (gap peer.last sequence),
        ⟨t.peers.insert sender { peer with
          last := sequence
          received := peer.received + 1
          lost := peer.lost + gap peer.last sequence }⟩) := by
  simp only [track, known]

/-- What is known of a sender that has been heard. -/
theorem exists_peer_track (t : SequenceTracker) (sender : Address) (sequence : UInt8) :
    ∃ peer, peer.last = sequence ∧ ∀ a, (t.track sender sequence).2.peers.find? a
      = if a = sender then some peer else t.peers.find? a := by
  cases known : t.peers.find? sender with
  | none =>
    rw [track_of_none known]
    exact ⟨_, rfl, fun a => Dictionary.find?_insert ..⟩
  | some peer =>
    rw [track_of_some known]
    exact ⟨_, rfl, fun a => Dictionary.find?_insert ..⟩

/-- If senders are not followed, nothing is ever reported missing. -/
theorem reports_untracked (t : SequenceTracker) (frames : List Frame) :
    t.reports false frames = frames.map .frame := by
  induction frames with
  | nil => rfl
  | cons f fs ih => exact congrArg (.frame f :: ·) ih

/-- **Nothing is reported missing if nothing is**: the frames of each sender are numbered on
from the last one that was heard of it, if any was. -/
theorem reports_of_numbered {next : Address → Sequencer} {t : SequenceTracker}
    {frames : List Frame} (numbered : Numbered next frames)
    (known : ∀ a, ∀ peer ∈ t.peers.find? a, (next a).current = peer.last + 1) :
    t.reports true frames = frames.map .frame := by
  induction frames generalizing next t with
  | nil => rfl
  | cons f fs ih =>
    obtain ⟨number, numbered⟩ := numbered
    have unbroken : (t.track f.sender f.header.sequence).1 = none := by
      cases hp : t.peers.find? f.sender with
      | none => rw [track_of_none hp]
      | some peer =>
        have follows : f.header.sequence = peer.last + 1 + UInt8.ofNat 0 := by
          rw [number, Sequencer.advance, known f.sender peer hp]
          exact (UInt8.add_zero _).symm
        rw [track_of_some hp, follows, gap_of_missing peer.last (Nat.zero_le _)]
        rfl
    have heard : t.follow true f = t.track f.sender f.header.sequence := rfl
    rw [reports, heard, unbroken]
    refine congrArg (.frame f :: ·) (ih numbered ?_)
    obtain ⟨peer, last, found⟩ := t.exists_peer_track f.sender f.header.sequence
    intro a other hother
    rw [found a] at hother
    split at hother
    · next same =>
      cases hother
      rw [same, Function.update_self, last, number]
      rfl
    · next apart =>
      rw [Function.update_of_ne apart]
      exact known a _ hother

end SequenceTracker
end Mavlink
