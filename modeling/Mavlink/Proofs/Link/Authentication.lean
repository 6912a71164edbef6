import Mavlink.Proofs.Link.ParserLife
import Mavlink.Proofs.Signing.KeyAgreement

/-!
# Signatures and replays

A parser that verifies signatures knows the last timestamp that it accepted on each stream
of a link and a sender.  Whoever controls the bytes can make it take up candidates again
and again, and have it reset; all of that changes nothing but by the frames that are
accepted.  The timestamps are a function of those frames (`Frame.stamp`), and therefore no
frame can be accepted whose timestamp is not later than those before it.

* `Scan.authenticate_eq_some_iff` --- when a signature is in order, and what is then
  remembered;
* `Scan.Secure.step` --- what a scan keeps;
* `Run.frames_authentic` --- and what therefore holds throughout the life of a parser.
-/

namespace Mavlink

/-- The frame that an event reports. -/
def ParserEvent.frame? : ParserEvent → Option Frame
  | .frame f => some f
  | _ => none

namespace Frame

/-- Remembers the timestamp of a frame, if it is signed. -/
def stamp (timestamps : Dictionary SigningStream Timestamp) (f : Frame) :
    Dictionary SigningStream Timestamp :=
  match f.signature with
  | none => timestamps
  | some signature => timestamps.insert ⟨signature.link, f.sender⟩ signature.timestamp

theorem stamp_unsigned {f : Frame} (h : f.signature = none)
    (timestamps : Dictionary SigningStream Timestamp) : stamp timestamps f = timestamps := by
  simp only [stamp, h]

theorem find?_stamp {f : Frame} {signature : Signature} (h : f.signature = some signature)
    (timestamps : Dictionary SigningStream Timestamp) (stream : SigningStream) :
    (stamp timestamps f).find? stream
      = if stream = ⟨signature.link, f.sender⟩ then some signature.timestamp
        else timestamps.find? stream := by
  simp only [stamp, h]
  exact Dictionary.find?_insert ..

/-- No timestamp as late has been remembered for the stream of a signed frame. -/
def Fresh (timestamps : Dictionary SigningStream Timestamp) (f : Frame) : Prop :=
  ∀ signature ∈ f.signature, ∀ last ∈ timestamps.find? ⟨signature.link, f.sender⟩,
    last < signature.timestamp

/-- If both frames are signed on one link by one sender, the second one is signed later. -/
def Precedes (f g : Frame) : Prop :=
  ∀ a ∈ f.signature, ∀ b ∈ g.signature, a.link = b.link → f.sender = g.sender →
    a.timestamp < b.timestamp

end Frame

namespace Signer

variable {signer : Signer} {f : Frame}

theorem accepts_of_exempt (exempt : signer.exempts f.messageId = true) :
    signer.accepts f = true := by
  rw [accepts, if_pos exempt]

/-- A frame with a right signature is accepted under every policy. -/
theorem accepts_of_verifies (right : signer.verifies f = true) : signer.accepts f = true := by
  have signed : f.signature.isSome = true := by
    unfold verifies at right
    cases hf : f.signature with
    | none =>
      rw [hf] at right
      cases right
    | some signature => rfl
  unfold accepts
  split
  · rfl
  · cases signer.incoming with
    | proxy => rfl
    | sign => rw [right, Bool.or_true]
    | strict => rw [signed, right, Bool.and_true]

end Signer

/-- Hears a frame. -/
def SequenceTracker.hear (t : SequenceTracker) (f : Frame) : SequenceTracker :=
  (t.track f.sender f.header.sequence).2

namespace Scan

/-- The frames that have been reported. -/
def frames (s : Scan) : List Frame := s.events.filterMap ParserEvent.frame?

@[simp] theorem frames_skip (s : Scan) : s.skip.frames = s.frames := rfl

@[simp] theorem frames_leap (s : Scan) (place : Nat) : (s.leap place).frames = s.frames := rfl

@[simp] theorem frames_refuse (s : Scan) (e : DecodeError) : (s.refuse e).frames = s.frames := by
  simp [frames, ParserEvent.frame?]

@[simp] theorem frames_accept (s : Scan) (tracking : Bool)
    (timestamps : Dictionary SigningStream Timestamp) (f : Frame) :
    (s.accept tracking timestamps f).frames = s.frames ++ [f] := by
  cases h : (s.hear tracking f).1 <;>
    simp [frames, h, ParserEvent.frame?, List.filterMap_cons]

/-- The signature of a frame is in order if the signer accepts it and its timestamp is
fresh; then the timestamp is remembered. -/
theorem authenticate_eq_some_iff {s : Scan} {signer : Signer} (checks : signer.incoming ≠ .proxy)
    {f : Frame} {timestamps : Dictionary SigningStream Timestamp} :
    s.authenticate (some signer) f = some timestamps ↔
      signer.accepts f = true ∧ f.Fresh s.timestamps ∧ timestamps = f.stamp s.timestamps := by
  unfold authenticate Frame.Fresh Frame.stamp
  cases accepted : signer.accepts f with
  | false => simp [accepted]
  | true =>
    cases f.signature with
    | none => simp [accepted, eq_comm]
    | some signature => simp [accepted, Option.filter, checks, eq_comm]

/-- Nothing is remembered of a frame that is not signed, or under the policy to let frames
pass. -/
theorem authenticate_of_accepts {s : Scan} {signer : Signer} {f : Frame}
    (accepted : signer.accepts f = true)
    (passes : f.signature = none ∨ signer.incoming = .proxy) :
    s.authenticate (some signer) f = some s.timestamps := by
  have unread : f.signature.filter (fun _ => signer.incoming ≠ .proxy) = none := by
    rcases passes with unsigned | proxy
    · rw [unsigned]
      rfl
    · rw [Option.filter_eq_none_iff]
      simp [proxy]
  simp only [authenticate, accepted, unread]
  rfl

/-- What a scan with a signer keeps: it has reported what the signer accepts, it remembers
what it has reported, and on each stream every timestamp is later than those before it. -/
structure Secure (signer : Signer) (tracking : Bool) (s : Scan) : Prop where
  accepted : ∀ f ∈ s.frames, signer.accepts f = true
  timestamps : s.timestamps = s.frames.foldl Frame.stamp ∅
  sequences : s.sequences
    = if tracking then s.frames.foldl SequenceTracker.hear .empty else .empty
  remembered : ∀ f ∈ s.frames, ∀ signature ∈ f.signature,
    ∃ last ∈ s.timestamps.find? ⟨signature.link, f.sender⟩, signature.timestamp ≤ last
  ordered : s.frames.Pairwise Frame.Precedes

/-- Only the frames, the timestamps and the senders matter. -/
theorem Secure.of_same {signer : Signer} {tracking : Bool} {s s' : Scan}
    (h : s.Secure signer tracking) (frames : s'.frames = s.frames)
    (timestamps : s'.timestamps = s.timestamps) (sequences : s'.sequences = s.sequences) :
    s'.Secure signer tracking := by
  refine ⟨?_, ?_, ?_, ?_, ?_⟩
  · rw [frames]
    exact h.accepted
  · rw [frames, timestamps]
    exact h.timestamps
  · rw [frames, sequences]
    exact h.sequences
  · rw [frames, timestamps]
    exact h.remembered
  · rw [frames]
    exact h.ordered

/-- A fresh timestamp is later than those of the frames before. -/
theorem Secure.precedes {signer : Signer} {tracking : Bool} {s : Scan}
    (h : s.Secure signer tracking) {f g : Frame} (hg : g ∈ s.frames)
    (fresh : f.Fresh s.timestamps) : g.Precedes f := by
  intro a ha b hb link sender
  obtain ⟨last, hlast, hle⟩ := h.remembered g hg a ha
  rw [link, sender] at hlast
  exact Nat.lt_of_le_of_lt hle (fresh b hb last hlast)

theorem Secure.accept {signer : Signer} {tracking : Bool} {s : Scan}
    (h : s.Secure signer tracking) {f : Frame} (accepted : signer.accepts f = true)
    (fresh : f.Fresh s.timestamps) :
    (s.accept tracking (f.stamp s.timestamps) f).Secure signer tracking := by
  have stamped : (s.accept tracking (f.stamp s.timestamps) f).timestamps
      = f.stamp s.timestamps := rfl
  refine ⟨?_, ?_, ?_, ?_, ?_⟩ <;> rw [frames_accept]
  · intro g hg
    rcases List.mem_append.1 hg with hg | hg
    · exact h.accepted g hg
    · rwa [List.mem_singleton.1 hg]
  · rw [List.foldl_append, ← h.timestamps]
    rfl
  · have heard : (s.accept tracking (f.stamp s.timestamps) f).sequences
        = (s.hear tracking f).2 := rfl
    rw [heard, hear, h.sequences, List.foldl_append]
    cases tracking <;> rfl
  · intro g hg a ha
    rw [stamped]
    cases hf : f.signature with
    | none =>
      rw [Frame.stamp_unsigned hf]
      rcases List.mem_append.1 hg with hg | hg
      · exact h.remembered g hg a ha
      · rw [List.mem_singleton.1 hg, hf] at ha
        cases ha
    | some signature =>
      rw [Frame.find?_stamp hf]
      rcases List.mem_append.1 hg with hg | hg
      · split
        · next same =>
          obtain ⟨link, sender⟩ := SigningStream.mk.inj same
          have earlier := h.precedes hg fresh a ha signature hf link sender
          exact ⟨_, rfl, Nat.le_of_lt earlier⟩
        · exact h.remembered g hg a ha
      · obtain rfl := List.mem_singleton.1 hg
        rw [hf] at ha
        cases ha
        rw [if_pos rfl]
        exact ⟨_, rfl, Nat.le_refl _⟩
  · refine List.pairwise_append.2 ⟨h.ordered, List.pairwise_singleton _ _, ?_⟩
    intro g hg f' hf'
    obtain rfl := List.mem_singleton.1 hf'
    exact h.precedes hg fresh

/-- **A scan stays secure, whatever it finds.** -/
theorem Secure.step {setup : ParserSetup} {signer : Signer} (verified : setup.signer = some signer)
    (checks : signer.incoming ≠ .proxy) {s : Scan} (h : s.Secure signer setup.trackSequences)
    (finding : Finding) : (s.step setup finding).Secure signer setup.trackSequences := by
  cases finding with
  | wait => exact h
  | noise => exact h.of_same rfl rfl rfl
  | fault e => exact h.of_same (frames_refuse s e) rfl rfl
  | frame f =>
    cases ha : s.authenticate setup.signer f with
    | none =>
      rw [step_refused ha]
      exact h.of_same (frames_refuse s _) rfl rfl
    | some timestamps =>
      rw [step_accepted ha]
      rw [verified] at ha
      obtain ⟨accepted, fresh, rfl⟩ := (authenticate_eq_some_iff checks).1 ha
      exact h.accept accepted fresh

end Scan

/-- **A candidate that is rejected leaves no trace in the tables**, for whatever reason it
is rejected. -/
theorem Parser.tables_of_rejected {p : Parser} (coherent : p.Coherent) {byte : UInt8}
    {e : DecodeError} (rejected : .error e ∈ p.reported byte) :
    (p.step byte).timestamps = p.timestamps ∧ (p.step byte).sequences = p.sequences := by
  obtain ⟨stage, stepped, -⟩ := step_eq coherent byte
  rw [reported_eq coherent] at rejected
  rw [stepped]
  cases hf : p.setup.lookup.examine (p.buffer ++ [byte]) with
  | wait => exact ⟨rfl, rfl⟩
  | noise => exact ⟨rfl, rfl⟩
  | fault e => exact ⟨rfl, rfl⟩
  | frame f =>
    have same : (p.grow byte).verify f = p.verify f := rfl
    cases hv : p.verify f with
    | none =>
      rw [settle_refused (same.trans hv)]
      exact ⟨rfl, rfl⟩
    | some timestamps =>
      rw [hf, reports_accepted hv] at rejected
      unfold losses at rejected
      split at rejected <;> simp at rejected

namespace Run

/-- The frames that the parser has reported. -/
def frames (r : Run) : List Frame := (r.log.map (·.2)).filterMap ParserEvent.frame?

/-- **What a parser reports is authentic.**  Suppose that a parser verifies signatures.
Whatever bytes it is given, and however often it is reset: every frame that it reports, if
its message is not exempt, carries a right signature or, unless the policy is strict, none;
on each stream of a link and a sender the timestamps increase, so no signed frame is
reported twice; and the timestamps and senders that it remembers are those of the frames
that it reported, which nothing that it rejected has changed. -/
theorem frames_authentic (setup : ParserSetup) (signer : Signer)
    (verified : setup.signer = some signer) (checks : signer.incoming ≠ .proxy)
    (acts : List Act) :
    let r := ofActs setup acts
    (∀ f ∈ r.frames, signer.exempts f.messageId = false →
      (f.signature.isSome → signer.verifies f) ∧
      (signer.incoming = .strict → f.signature.isSome)) ∧
    r.frames.Pairwise Frame.Precedes ∧
    (r.frames.filter (·.signature.isSome)).Nodup ∧
    r.parser.timestamps = r.frames.foldl Frame.stamp ∅ ∧
    r.parser.sequences
      = (if setup.trackSequences then r.frames.foldl SequenceTracker.hear .empty else .empty) ∧
    (r.taken ++ r.parser.events).Sublist (r.log.map (·.2)) ∧
    ∀ (p : Parser) (byte : UInt8) (e : DecodeError), p.Coherent → .error e ∈ p.reported byte →
      (p.step byte).timestamps = p.timestamps ∧ (p.step byte).sequences = p.sequences := by
  intro r
  have started : Scan.Secure signer setup.trackSequences {} := by
    refine ⟨nofun, rfl, ?_, nofun, .nil⟩
    cases setup.trackSequences <;> rfl
  obtain ⟨s, secure, traces⟩ : ∃ s, s.Secure signer setup.trackSequences ∧ Traces setup s r :=
    exists_traces started (fun s finding h => h.step verified checks finding)
      (fun s place h => h.of_same rfl rfl rfl) acts
  have frames : r.frames = s.frames := by
    rw [Run.frames, traces.log]
    rfl
  rw [frames, traces.agrees.timestamps, traces.agrees.sequences]
  refine ⟨?_, secure.ordered, ?_, secure.timestamps, secure.sequences, traces.steady.kept,
    fun p byte e coherent rejected => Parser.tables_of_rejected coherent rejected⟩
  · intro f hf subjected
    have accepted := secure.accepted f hf
    unfold Signer.accepts at accepted
    rw [subjected] at accepted
    cases policy : signer.incoming with
    | proxy => exact absurd policy checks
    | sign =>
      simp only [policy, Bool.false_eq_true, if_false, Bool.or_eq_true] at accepted
      refine ⟨fun signed => accepted.resolve_left ?_, nofun⟩
      rw [Option.isNone_iff_eq_none]
      exact fun unsigned => absurd signed (by simp [unsigned])
    | strict =>
      simp only [policy, Bool.false_eq_true, if_false, Bool.and_eq_true] at accepted
      exact ⟨fun _ => accepted.2, fun _ => accepted.1⟩
  · -- a signed frame does not precede itself
    refine (secure.ordered.filter _).imp_of_mem fun {f g} hf _ precedes same => ?_
    obtain ⟨signature, signed⟩ := Option.isSome_iff_exists.1 (List.mem_filter.1 hf).2
    subst same
    exact Nat.lt_irrefl _ (precedes signature signed signature signed rfl rfl)

/-- What was reported stays reported. -/
theorem mem_frames_scan {setup : ParserSetup} {s : Scan} {f : Frame} (h : f ∈ s.frames)
    (stream : Bytes) : f ∈ (scan setup stream s).frames := by
  refine scan_induction (P := fun s => f ∈ s.frames) (fun s b h => ?_) stream h
  cases setup.lookup.examine b with
  | wait => exact h
  | noise => exact h
  | fault e => simpa [Scan.step] using h
  | frame g =>
    cases judged : s.authenticate setup.signer g with
    | none =>
      rw [Scan.step_refused judged]
      simpa using h
    | some timestamps =>
      rw [Scan.step_accepted judged]
      simp [h]

/-- A heartbeat that is signed is reported, and reported once, though it comes again after a
reset. -/
theorem signed_heartbeat_not_repeated :
    let signer := Signer.ofKey 1 (.ofText "secret")
    ∃ f, Frame.build ⟨1, ⟨1, 1⟩, 0⟩ ⟨0, .v2, [0, 0, 0, 0, 6, 8, 0, 4, 3]⟩ 50 (some signer) 7
        = .ok f ∧
      f.signature.isSome ∧
      (ofActs { lookup := ⟨fun _ => some 50, fun _ => some 9⟩, signer := some signer }
        [.call (.push f.toBytes), .reset, .call (.push f.toBytes)]).frames.count f = 1 := by
  intro signer
  let setup : ParserSetup :=
    { lookup := ⟨fun _ => some 50, fun _ => some 9⟩, signer := some signer }
  obtain ⟨f, built⟩ : ∃ f, Frame.build ⟨1, ⟨1, 1⟩, 0⟩ ⟨0, .v2, [0, 0, 0, 0, 6, 8, 0, 4, 3]⟩ 50
    (some signer) 7 = .ok f := ⟨_, rfl⟩
  have signature := Signer.signature_of_build rfl built
  have signed : f.signature.isSome = true := by rw [signature, Option.isSome_some]
  refine ⟨f, built, signed, Nat.le_antisymm ?_ (List.one_le_count_iff.2 ?_)⟩
  · have authentic := frames_authentic setup signer rfl (by decide)
    rw [← List.count_filter (p := fun f : Frame => f.signature.isSome) signed]
    exact List.nodup_iff_count.1 (authentic _).2.2.1 _
  · -- the first time it is found and accepted
    have read : setup.lookup.examine f.toBytes = .frame f := by
      obtain ⟨consistent, payload, sum⟩ := Frame.of_build built
      have fits : ∀ limit, setup.lookup.maxLength f.messageId = some limit →
          f.payload.size ≤ limit := by
        rintro _ ⟨⟩
        rw [payload]
        decide
      exact Lookup.examine_eq_frame_iff.2 (Frame.decode_eq_ok_iff.2
        ⟨List.prefix_rfl, consistent, ⟨50, rfl, sum⟩, fits⟩)
    have accepted : Scan.authenticate {} setup.signer f = some (f.stamp ∅) :=
      (Scan.authenticate_eq_some_iff (by decide)).2
        ⟨Signer.accepts_of_verifies (Signer.verifies_of_keyOf signature (if_pos rfl)),
          fun _ _ _ known => (nomatch known), rfl⟩
    have found : f ∈ (scan setup ([] ++ f.toBytes) {}).frames := by
      rw [← scan_step, List.nil_append, List.drop_zero, read, Scan.step_accepted accepted]
      exact mem_frames_scan (by simp) _
    have traced := ((traces_start setup).answer (.push f.toBytes)).reset.answer (.push f.toBytes)
    have reported : f ∈ (((start setup).answer (.push f.toBytes)).reset.answer
        (.push f.toBytes)).frames := by
      rw [frames, traced.log]
      refine mem_frames_scan ?_ _
      rwa [Scan.frames_leap]
    exact reported

end Run
end Mavlink
