import Mathlib.Data.List.Nodup
import Mavlink.Proofs.Link.Numbering
import Mavlink.Proofs.Table.MessageRoundTrip

/-!
# Devices that send on one link

Several devices send on one link.  Each numbers its own frames; those that sign with one
key draw their timestamps from one clock.  In which order the devices send, and what the
time is when they do, is not up to them.  A message that fails to become a frame takes no
number and no timestamp, so the frames of each device are numbered without a gap, whatever
fails between them.

* `Transmitter.sends_of_sendValue` --- all that sending a message does;
* `Fleet.readable_sendAll` --- the frames that are sent can be read;
* `Fleet.numbered_sendAll` --- and are numbered one after another, if no two devices have
  one address.
-/

namespace Mavlink

namespace Transmitter

/-- `t` sends `f` at a moment, and is `t'` after that. -/
structure Sends (t : Transmitter) (now : Timestamp) (f : Frame) (t' : Transmitter) : Prop where
  number : f.header.sequence = t.encoder.sequencer.advance.1
  sender : f.sender = t.encoder.sender
  signature : f.signature
    = (t.encoder.signer.filter (·.shouldSign t.encoder.version f.messageId)).map
      (·.sign f.signedBytes (t.clock.next now).1)
  encoder : t'.encoder = { t.encoder with sequencer := t.encoder.sequencer.advance.2 }
  clock : t'.clock = if f.signature.isSome then (t.clock.next now).2 else t.clock

theorem sends_of_sendPayload {t t' : Transmitter} {now : Timestamp} {payload : Payload}
    {fingerprint : UInt8} {f : Frame}
    (h : t.sendPayload now payload fingerprint = .ok (f, t')) : t.Sends now f t' := by
  unfold sendPayload at h
  split at h
  · cases h
  · next version =>
    have version : payload.version = t.encoder.version := Decidable.not_not.1 version
    cases built : Frame.build ⟨t.encoder.sequencer.advance.1, t.encoder.sender, 0⟩ payload
        fingerprint t.encoder.signer (t.clock.next now).1 with
    | error e =>
      simp only [built] at h
      cases h
    | ok g =>
      simp only [built] at h
      cases h
      obtain ⟨number, sender, signature⟩ := Frame.routing_of_build built
      obtain ⟨consistent, carried, -⟩ := Frame.of_build built
      have id : payload.id = f.messageId := carried ▸ consistent.id
      rw [version, id] at signature
      exact ⟨number, sender, signature, rfl, rfl⟩

/-- **All that sending a message does.**  The frame that comes of it can be read. -/
theorem sends_of_sendValue {table : Table} (keyed : table.Keyed) {t t' : Transmitter}
    {now : Timestamp} {v : MessageValue} {f : Frame}
    (h : t.sendValue now table v = .ok (f, t')) :
    t.Sends now f t' ∧ Frame.decode f.toBytes table.lookup = .ok f := by
  have sent := h
  unfold sendValue at h
  split at h
  · cases h
  · next m known =>
    cases encoded : table.encode v t.encoder.version with
    | error e =>
      rw [encoded] at h
      cases h
    | ok payload =>
      rw [encoded] at h
      refine ⟨sends_of_sendPayload h, ?_⟩
      obtain ⟨g, s, same, -, read⟩ := Table.exists_of_sendValue keyed encoded now []
      cases sent.symm.trans same
      rwa [List.append_nil] at read

end Transmitter

/-- The devices that send on a link, and the clock from which they draw timestamps. -/
structure Fleet where
  encoders : List Encoder
  clock : SigningClock

/-- A message that a device is to send at a moment. -/
structure Sending where
  device : Nat
  now : Timestamp
  value : MessageValue

namespace Fleet

/-- Lets a device send a message. -/
def send (table : Table) (fleet : Fleet) (s : Sending) : Option Frame × Fleet :=
  match fleet.encoders[s.device]? with
  | none => (none, fleet)
  | some encoder =>
    match Transmitter.sendValue ⟨encoder, fleet.clock⟩ s.now table s.value with
    | .error _ => (none, fleet)
    | .ok (f, t) => (some f, ⟨fleet.encoders.set s.device t.encoder, t.clock⟩)

/-- Lets devices send messages one after another: all the frames that come of it. -/
def sendAll (table : Table) : Fleet → List Sending → List Frame × Fleet
  | fleet, [] => ([], fleet)
  | fleet, s :: sendings =>
    let (sent, later) := fleet.send table s
    let (frames, last) := later.sendAll table sendings
    (sent.toList ++ frames, last)

variable {table : Table} {fleet : Fleet}

theorem sendAll_cons (s : Sending) (sendings : List Sending) :
    fleet.sendAll table (s :: sendings)
      = ((fleet.send table s).1.toList ++ ((fleet.send table s).2.sendAll table sendings).1,
        ((fleet.send table s).2.sendAll table sendings).2) := rfl

/-- A frame is sent by one of the devices, or everything stays as it is. -/
theorem send_cases (keyed : table.Keyed) (fleet : Fleet) (s : Sending) :
    fleet.send table s = (none, fleet) ∨
    ∃ before encoder after f t, fleet.encoders = before ++ encoder :: after ∧
      Transmitter.Sends ⟨encoder, fleet.clock⟩ s.now f t ∧
      Frame.decode f.toBytes table.lookup = .ok f ∧
      fleet.send table s = (some f, ⟨before ++ t.encoder :: after, t.clock⟩) := by
  unfold send
  cases there : fleet.encoders[s.device]? with
  | none => exact .inl rfl
  | some encoder =>
    cases sent : Transmitter.sendValue ⟨encoder, fleet.clock⟩ s.now table s.value with
    | error e =>
      simp only [sent]
      exact .inl trivial
    | ok result =>
      obtain ⟨f, t⟩ := result
      obtain ⟨sends, read⟩ := Transmitter.sends_of_sendValue keyed sent
      obtain ⟨inside, here⟩ := List.getElem?_eq_some_iff.1 there
      obtain ⟨before, after, all, -, set⟩ := @List.exists_of_set _ _ t.encoder _ inside
      rw [here] at all
      simp only [sent, set]
      exact .inr ⟨before, encoder, after, f, t, all, sends, read, rfl⟩

/-- The frames that are sent can be read. -/
theorem readable_sendAll (keyed : table.Keyed) (sendings : List Sending) :
    ∀ f ∈ (fleet.sendAll table sendings).1, Frame.decode f.toBytes table.lookup = .ok f := by
  induction sendings generalizing fleet with
  | nil => exact fun _ hf => absurd hf List.not_mem_nil
  | cons s sendings ih =>
    intro f hf
    rw [sendAll_cons] at hf
    rcases List.mem_append.1 hf with first | rest
    · rcases send_cases keyed fleet s with nothing | ⟨_, _, _, g, _, -, -, read, sent⟩
      · rw [nothing] at first
        exact absurd first List.not_mem_nil
      · rw [sent] at first
        cases List.mem_singleton.1 first
        exact read
    · exact ih f rest

/-! ## Numbers -/

/-- The devices give their next frames the numbers `next`, each by its address. -/
def Counts (fleet : Fleet) (next : Address → Sequencer) : Prop :=
  ∀ encoder ∈ fleet.encoders, next encoder.sender = encoder.sequencer

/-- Devices that have addresses of their own count by address. -/
theorem exists_counts (distinct : (fleet.encoders.map (·.sender)).Nodup) :
    ∃ next, fleet.Counts next := by
  obtain ⟨encoders, clock⟩ := fleet
  induction encoders with
  | nil => exact ⟨fun _ => ⟨0⟩, fun _ h => absurd h List.not_mem_nil⟩
  | cons e encoders ih =>
    obtain ⟨other, distinct⟩ := List.nodup_cons.1 distinct
    obtain ⟨next, counts⟩ := ih distinct
    refine ⟨Function.update next e.sender e.sequencer, fun x hx => ?_⟩
    rcases List.mem_cons.1 hx with rfl | hx
    · exact Function.update_self ..
    · have apart : x.sender ≠ e.sender := fun same => other (List.mem_map.2 ⟨x, hx, same⟩)
      rw [Function.update_of_ne apart]
      exact counts x hx

/-- The device that sends counts on; the others do not, and all keep their addresses. -/
theorem Counts.send {before after : List Encoder} {encoder : Encoder} {clock : SigningClock}
    {next : Address → Sequencer} {now : Timestamp} {f : Frame} {t : Transmitter}
    (h : Counts ⟨before ++ encoder :: after, clock⟩ next)
    (distinct : ((before ++ encoder :: after).map (·.sender)).Nodup)
    (sends : Transmitter.Sends ⟨encoder, clock⟩ now f t) :
    Counts ⟨before ++ t.encoder :: after, t.clock⟩
        (Function.update next f.sender (next f.sender).advance.2) ∧
      ((before ++ t.encoder :: after).map (·.sender)).Nodup := by
  have kept : t.encoder.sender = encoder.sender := congrArg (·.sender) sends.encoder
  have counted : t.encoder.sequencer = encoder.sequencer.advance.2 :=
    congrArg (·.sequencer) sends.encoder
  have own : next encoder.sender = encoder.sequencer := h encoder (by simp)
  have apart : ∀ x, x ∈ before ∨ x ∈ after → x.sender ≠ encoder.sender := by
    rw [List.map_append, List.map_cons, List.nodup_middle] at distinct
    intro x hx same
    refine (List.nodup_cons.1 distinct).1 ?_
    rw [← List.map_append, ← same]
    exact List.mem_map_of_mem (List.mem_append.2 hx)
  have sender : f.sender = encoder.sender := sends.sender
  constructor
  · intro x hx
    rw [sender]
    by_cases others : x ∈ before ∨ x ∈ after
    · rw [Function.update_of_ne (apart x others)]
      refine h x (List.mem_append.2 (others.imp_right ?_))
      exact List.mem_cons_of_mem encoder
    · have it : x = t.encoder := by
        rcases List.mem_append.1 hx with left | right
        · exact absurd (.inl left) others
        · exact (List.mem_cons.1 right).resolve_right fun right => others (.inr right)
      rw [it, kept, Function.update_self, own, counted]
  · rw [List.map_append, List.map_cons, kept]
    rwa [List.map_append, List.map_cons] at distinct

/-- **The frames of each device are numbered one after another**, in whatever order the
devices send. -/
theorem numbered_sendAll (keyed : table.Keyed) {next : Address → Sequencer}
    (counts : fleet.Counts next) (distinct : (fleet.encoders.map (·.sender)).Nodup)
    (sendings : List Sending) : Numbered next (fleet.sendAll table sendings).1 := by
  induction sendings generalizing fleet next with
  | nil => trivial
  | cons s sendings ih =>
    rw [sendAll_cons]
    rcases send_cases keyed fleet s with nothing |
      ⟨before, encoder, after, f, t, all, sends, -, sent⟩
    · rw [nothing]
      exact ih counts distinct
    · obtain ⟨encoders, clock⟩ := fleet
      subst all
      rw [sent]
      obtain ⟨counts', distinct'⟩ := counts.send distinct sends
      refine ⟨?_, ih counts' distinct'⟩
      rw [sends.number, sends.sender, counts encoder (by simp)]

end Fleet
end Mavlink
