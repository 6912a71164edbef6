import Mavlink.Proofs.Link.Sending
import Mavlink.Proofs.Signing.KeyAgreement
import Mavlink.Proofs.Signing.SharedClock

/-!
# A link without losses

What devices send on a link is read at its end as it was sent: the frames of all devices in
the order in which they were sent, however the bytes are cut and whatever stands between
the frames that starts none.  Nothing is reported lost, because every device numbers its
frames without a gap, and nothing is reported damaged.

If the frames are signed, the receiver also has to accept the signatures.  That a signature
is right does not depend on the digest, only on both ends forming the digest of the same
bytes under the same key.  That no frame is taken for a replay depends on the clock: each
timestamp that it gives out is later than all before, as long as 48 bits hold it
(`SigningClock.val_next`).

* `Scan.exists_authenticate` --- a frame that a signer lets go out is accepted by it when it
  comes in;
* `Fleet.Shares.trusts` --- and so are all frames of a link, one after another;
* `Run.reads_all_sent` --- the link without losses.
-/

namespace Mavlink

/-- A signer verifies what it has signed. -/
theorem Signer.verifies_of_sign {signer : Signer} {f : Frame} {timestamp : Timestamp}
    (signed : f.signature = some (signer.sign f.signedBytes timestamp)) :
    signer.verifies f = true :=
  verifies_of_keyOf signed (if_pos rfl)

/-- No timestamp that is remembered is later than the clock. -/
def SigningClock.Past (c : SigningClock) (timestamps : Dictionary SigningStream Timestamp) :
    Prop := ∀ stream, ∀ last ∈ timestamps.find? stream, last.val ≤ c.last

/-- **A frame that goes out is accepted when it comes in**, and no timestamp that is then
remembered is later than the clock. -/
theorem Scan.exists_authenticate {s : Scan} {signer : Signer} (signs : signer.outgoing ≠ .proxy)
    {f : Frame} {c c' : SigningClock} {now : Timestamp}
    (signature : f.signature = if signer.shouldSign .v2 f.messageId then
      some (signer.sign f.signedBytes (c.next now).1) else none)
    (clock : c' = if f.signature.isSome then (c.next now).2 else c)
    (inTime : c'.last ≤ Timestamp.max) (past : c.Past s.timestamps) :
    ∃ timestamps, s.authenticate (some signer) f = some timestamps ∧ c'.Past timestamps := by
  cases exempt : signer.exempts f.messageId with
  | true =>
    have unsigned : f.signature = none := by
      rw [signature]
      simp [Signer.shouldSign, exempt]
    rw [unsigned] at clock
    subst clock
    exact ⟨_, authenticate_of_accepts (Signer.accepts_of_exempt exempt) (.inl unsigned), past⟩
  | false =>
    have signed : f.signature = some (signer.sign f.signedBytes (c.next now).1) := by
      rw [signature]
      simp [Signer.shouldSign, exempt, signs]
    rw [signed] at clock
    subst clock
    obtain ⟨stamp, later⟩ := SigningClock.val_next inTime
    have accepted := Signer.accepts_of_verifies (Signer.verifies_of_sign signed)
    by_cases proxy : signer.incoming = .proxy
    · refine ⟨_, authenticate_of_accepts accepted (.inr proxy), fun stream last known => ?_⟩
      exact Nat.le_trans (past stream last known) (c.last_le_next now)
    · refine ⟨_, (authenticate_eq_some_iff proxy).2 ⟨accepted, ?_, rfl⟩, ?_⟩
      · intro signature hs last known
        cases Option.some.inj (signed.symm.trans hs)
        exact Nat.lt_of_le_of_lt (past _ last known) later
      · intro stream last known
        rw [Frame.find?_stamp signed] at known
        split at known
        · cases known
          exact Nat.le_of_eq stamp
        · exact Nat.le_trans (past stream last known) (c.last_le_next now)

namespace Fleet

variable {table : Table} {fleet : Fleet}

/-- All devices speak the second version and sign as the signer does. -/
structure Shares (fleet : Fleet) (signer : Signer) : Prop where
  signs : signer.outgoing ≠ .proxy
  version : ∀ encoder ∈ fleet.encoders, encoder.version = .v2
  signer : ∀ encoder ∈ fleet.encoders, ∃ policy,
    encoder.signer = some { signer with incoming := policy }

section Step

variable {signer : Signer} {before after : List Encoder} {encoder : Encoder}
  {clock : SigningClock} {now : Timestamp} {f : Frame} {t : Transmitter}

theorem Shares.signature (h : Shares ⟨before ++ encoder :: after, clock⟩ signer)
    (sends : Transmitter.Sends ⟨encoder, clock⟩ now f t) :
    f.signature = if signer.shouldSign .v2 f.messageId then
      some (signer.sign f.signedBytes (clock.next now).1) else none := by
  have there : encoder ∈ before ++ encoder :: after := by simp
  obtain ⟨policy, cloned⟩ := h.signer encoder there
  rw [sends.signature, cloned, h.version encoder there, Option.filter_some]
  show Option.map _ (if signer.shouldSign .v2 f.messageId then _ else _) = _
  split <;> rfl

/-- The devices sign after a frame is sent as they did before. -/
theorem Shares.send (h : Shares ⟨before ++ encoder :: after, clock⟩ signer)
    (sends : Transmitter.Sends ⟨encoder, clock⟩ now f t) :
    Shares ⟨before ++ t.encoder :: after, t.clock⟩ signer := by
  have kept : t.encoder.version = encoder.version ∧ t.encoder.signer = encoder.signer := by
    rw [sends.encoder]
    exact ⟨rfl, rfl⟩
  refine ⟨h.signs, ?_, ?_⟩
  · have version := h.version
    simp only [List.forall_mem_append, List.forall_mem_cons] at version ⊢
    rwa [kept.1]
  · have signer := h.signer
    simp only [List.forall_mem_append, List.forall_mem_cons] at signer ⊢
    rwa [kept.2]

end Step

theorem last_le_sendAll (keyed : table.Keyed) (sendings : List Sending) :
    fleet.clock.last ≤ (fleet.sendAll table sendings).2.clock.last := by
  induction sendings generalizing fleet with
  | nil => exact Nat.le_refl _
  | cons s sendings ih =>
    rw [sendAll_cons]
    refine Nat.le_trans ?_ ih
    rcases send_cases keyed fleet s with nothing | ⟨_, _, _, _, t, -, sends, -, sent⟩
    · exact Nat.le_of_eq (congrArg (·.2.clock.last) nothing.symm)
    · rw [sent]
      show fleet.clock.last ≤ t.clock.last
      rw [sends.clock]
      split
      · exact fleet.clock.last_le_next s.now
      · exact Nat.le_refl _

/-- **All frames that are sent are accepted one after another.** -/
theorem Shares.trusts (keyed : table.Keyed) {setup : ParserSetup} {signer : Signer}
    (verified : setup.signer = some signer) (h : fleet.Shares signer) {sendings : List Sending}
    (inTime : (fleet.sendAll table sendings).2.clock.last ≤ Timestamp.max) {s : Scan}
    (past : fleet.clock.Past s.timestamps) :
    s.Trusts setup (fleet.sendAll table sendings).1 := by
  induction sendings generalizing fleet s with
  | nil => trivial
  | cons sending sendings ih =>
    rw [sendAll_cons] at inTime ⊢
    rcases send_cases keyed fleet sending with nothing |
      ⟨before, encoder, after, f, t, all, sends, -, sent⟩
    · rw [nothing] at inTime ⊢
      exact ih h inTime past
    · obtain ⟨encoders, clock⟩ := fleet
      subst all
      rw [sent] at inTime ⊢
      have soon := Nat.le_trans (last_le_sendAll keyed sendings) inTime
      obtain ⟨timestamps, authentic, past'⟩ :=
        s.exists_authenticate h.signs (h.signature sends) sends.clock soon past
      rw [← verified] at authentic
      exact ⟨timestamps, authentic, ih (h.send sends) inTime past'⟩

end Fleet

namespace Run

/-- **A link without losses.**  Devices that have addresses of their own send messages of a
dialect on one link.  At the end of the link is a parser that knows the dialect.  If it
verifies signatures, all devices sign as it does, and 48 bits hold the time until all is
sent.  Then it reports the frames that were sent, in their order, and nothing else, however
the bytes are cut; it passes over the bytes between the frames, which start no frame, and
holds none. -/
theorem reads_all_sent (d : Dialect) (fleet : Fleet)
    (distinct : (fleet.encoders.map (·.sender)).Nodup) (sendings : List Sending)
    (setup : ParserSetup) (reads : setup.lookup = (Table.ofDialect d).lookup)
    (trusted : ∀ signer ∈ setup.signer, fleet.Shares signer ∧
      (fleet.sendAll (.ofDialect d) sendings).2.clock.last ≤ Timestamp.max)
    (pieces : List (Bytes × Frame)) (tail : Bytes)
    (sent : pieces.map (·.2) = (fleet.sendAll (.ofDialect d) sendings).1)
    (quiet : ∀ piece ∈ pieces, piece.1.Quiet) (still : tail.Quiet)
    (calls : List Call) (arrived : calls.flatMap Call.bytes = spaced pieces ++ tail) :
    let r := ofCalls setup calls
    let frames := (fleet.sendAll (.ofDialect d) sendings).1
    r.log.map (·.2) = frames.map .frame ∧
    (r.parser.stats.droppedEvents = 0 → r.taken ++ r.parser.events = frames.map .frame) ∧
    r.parser.stats.skippedBytes = spare pieces + tail.length ∧
    r.parser.buffered = 0 := by
  intro r frames
  have keyed := Table.keyed_ofDialect d
  have readable : ∀ f ∈ pieces.map (·.2), Frame.decode f.toBytes setup.lookup = .ok f := by
    rw [sent, reads]
    exact Fleet.readable_sendAll keyed sendings
  have trusts : Scan.Trusts setup {} (pieces.map (·.2)) := by
    rw [sent]
    cases signer : setup.signer with
    | none => exact Scan.trusts_of_unsigned signer _ _
    | some signer' =>
      obtain ⟨shares, inTime⟩ := trusted signer' signer
      exact shares.trusts keyed signer inTime fun _ _ known => (nomatch known)
  have unbroken : SequenceTracker.empty.reports setup.trackSequences frames
      = frames.map .frame := by
    cases setup.trackSequences with
    | false => exact SequenceTracker.reports_untracked _ frames
    | true =>
      obtain ⟨next, counts⟩ := Fleet.exists_counts distinct
      have numbered := Fleet.numbered_sendAll keyed counts distinct sendings
      exact SequenceTracker.reports_of_numbered numbered fun _ _ known => (nomatch known)
  obtain ⟨events, -, stats, buffered⟩ := of_spaced quiet still readable trusts arrived
  rw [sent, unbroken] at events
  refine ⟨events, fun all => ?_, congrArg ParserStats.skippedBytes stats, buffered⟩
  obtain ⟨-, -, -, -, kept, dropped⟩ := accounted_ofCalls setup calls
  rw [all] at dropped
  rw [← events]
  exact kept.eq_of_length (by rw [List.length_map]; exact dropped)

/-- Two devices sign notes in turn while the time stands still and the numbers of one of
them pass 255.  A parser that refuses what is not signed reports all three, and passes over
the zero before each of them. -/
theorem signed_notes_read :
    let signer := Signer.ofKey 1 (.ofText "secret")
    let fleet : Fleet := ⟨[⟨.v2, ⟨1, 1⟩, ⟨255⟩, some signer⟩, ⟨.v2, ⟨2, 1⟩, ⟨0⟩, some signer⟩], ⟨4⟩⟩
    let note : MessageValue := ⟨7, Dictionary.ofList [("text", .text "ab")]⟩
    let sendings : List Sending := [⟨0, 5, note⟩, ⟨1, 5, note⟩, ⟨0, 5, note⟩]
    let frames := (fleet.sendAll (.ofDialect Table.notes) sendings).1
    let r := ofCalls
      { lookup := (Table.ofDialect Table.notes).lookup
        signer := some { signer with incoming := .strict } }
      [.feed (spaced (frames.map fun f => ([0], f)) ++ [])]
    frames.length = 3 ∧ r.log.map (·.2) = frames.map .frame ∧
      r.parser.stats.skippedBytes = 3 ∧ r.parser.buffered = 0 := by
  intro signer fleet note sendings frames r
  have three : frames.length = 3 := by decide +kernel
  have whole : (frames.map fun f => (([0] : Bytes), f)).map (·.2) = frames := by
    rw [List.map_map]
    exact List.map_id _
  have quiet : ∀ piece ∈ frames.map fun f => (([0] : Bytes), f), Bytes.Quiet piece.1 := by
    simp only [List.forall_mem_map]
    exact fun _ _ => by decide
  have shares : fleet.Shares { signer with incoming := .strict } := by
    refine ⟨by decide, by decide, ?_⟩
    simp only [fleet, List.forall_mem_cons]
    exact ⟨⟨_, rfl⟩, ⟨_, rfl⟩, fun _ h => absurd h List.not_mem_nil⟩
  obtain ⟨events, -, skipped, buffered⟩ := reads_all_sent Table.notes fleet (by decide) sendings
    { lookup := (Table.ofDialect Table.notes).lookup
      signer := some { signer with incoming := .strict } } rfl
    (fun _ same => Option.some.inj same ▸ ⟨shares, by decide +kernel⟩)
    (frames.map fun f => ([0], f)) [] whole quiet (fun _ h => absurd h List.not_mem_nil)
    [.feed (spaced (frames.map fun f => ([0], f)) ++ [])] (List.flatMap_singleton _ _)
  refine ⟨three, events, skipped.trans ?_, buffered⟩
  rw [spare, List.flatMap_map]
  show (frames.flatMap fun _ => [0]).length + 0 = 3
  rw [List.length_flatMap, List.map_const', three]
  rfl

end Run
end Mavlink
