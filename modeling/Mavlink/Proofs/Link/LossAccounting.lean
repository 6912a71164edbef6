import Mathlib
import Mavlink.Proofs.Link.Conservation
import Mavlink.Proofs.Link.Numbering

/-!
# The account of losses

Frames of several senders go over a link that drops some of them and keeps the order of the
others.  Each sender has numbered its frames before that, so the number of the next frame
that arrives tells how many were dropped since the last one, if they are at most 254.  The
receiver adds these counts up.  What is dropped before the first or after the last frame
that arrives does not show.

The hidden truth is the list of what was sent (`Sent`), from which the account of each
sender is read off (`account`).  `Tallied` says that the receiver has that account; a
frame keeps it so whether it is dropped (`Tallied.dropped`) or arrives (`Tallied.arrived`).

* `Run.counts_losses` --- the account of a parser is exact.
-/

namespace Mavlink

namespace Dictionary

variable {κ ν : Type} [Ord κ] [Std.LawfulEqOrd κ] [Std.TransOrd κ]

/-- Where the old value of a key is replaced by a new one, a sum over the values changes by
their difference. -/
theorem sum_values_insert (d : Dictionary κ ν) (k : κ) (v : ν) (g : ν → Nat) :
    ((d.insert k v).values.map g).sum + ((d.find? k).map g).getD 0
      = (d.values.map g).sum + g v := by
  obtain ⟨l, sorted⟩ := d
  show (((put k v l).map (·.2)).map g).sum + ((look k l).map g).getD 0
    = ((l.map (·.2)).map g).sum + g v
  induction l with
  | nil => simp [put, look]
  | cons b l ih =>
    obtain ⟨first, sorted⟩ := List.pairwise_cons.1 sorted
    have ih := ih sorted
    unfold put look
    cases order : compare k b.1 with
    | lt =>
      have absent : look k l = none := by
        rw [Option.eq_none_iff_forall_not_mem]
        intro w found
        have later := first _ ((look_eq_some_iff sorted).1 found)
        have self : compare k k = .lt := Std.TransCmp.lt_trans order later
        simp [Std.ReflCmp.compare_self] at self
      simp [absent]
      omega
    | eq =>
      simp
      omega
    | gt =>
      simp only [List.map_cons, List.sum_cons, reduceCtorEq, if_false]
      omega

end Dictionary

/-- A frame that was sent, and whether it arrives. -/
structure Sent where
  frame : Frame
  arrives : Bool

/-- The frames that arrive. -/
def arrivals (sent : List Sent) : List Frame := (sent.filter (·.arrives)).map (·.frame)

/-- What was sent by a sender. -/
def sentBy (a : Address) (sent : List Sent) : List Sent := sent.filter (·.frame.sender = a)

/-- The frames that are dropped between the first and the last one that arrives. -/
def droppedBetween (sent : List Sent) : Nat :=
  ((sent.dropWhile (!·.arrives)).rdropWhile (!·.arrives)).countP (!·.arrives)

/-- The frames that are dropped after the last one that arrives. -/
def droppedSince (sent : List Sent) : Nat := (sent.rtakeWhile (!·.arrives)).length

/-- The account of a sender of which this was sent, if any of it arrives. -/
def account (a : Address) (sent : List Sent) : Option Peer :=
  (arrivals sent).getLast?.map fun f =>
    ⟨a, f.header.sequence, (arrivals sent).length, droppedBetween sent⟩

section Account

variable {sent : List Sent} {x : Sent}

theorem arrivals_of_dropped (h : x.arrives = false) : arrivals (sent ++ [x]) = arrivals sent := by
  simp [arrivals, h]

theorem arrivals_of_arrives (h : x.arrives = true) :
    arrivals (sent ++ [x]) = arrivals sent ++ [x.frame] := by
  simp [arrivals, h]

theorem dropWhile_eq_nil : sent.dropWhile (!·.arrives) = [] ↔ arrivals sent = [] := by
  simp [arrivals, List.dropWhile_eq_nil_iff]

theorem dropWhile_concat (h : x.arrives = true ∨ arrivals sent ≠ []) :
    (sent ++ [x]).dropWhile (!·.arrives) = sent.dropWhile (!·.arrives) ++ [x] := by
  rw [List.dropWhile_append]
  split
  · next nothing =>
    rw [List.isEmpty_iff] at nothing
    rw [nothing]
    have arrives := h.resolve_right fun some => some (dropWhile_eq_nil.1 nothing)
    simp [arrives]
  · rfl

theorem droppedBetween_of_nil (h : arrivals sent = []) : droppedBetween sent = 0 := by
  rw [droppedBetween, dropWhile_eq_nil.2 h]
  rfl

theorem droppedBetween_of_dropped (h : x.arrives = false) :
    droppedBetween (sent ++ [x]) = droppedBetween sent := by
  by_cases nothing : arrivals sent = []
  · rw [droppedBetween_of_nil nothing,
      droppedBetween_of_nil ((arrivals_of_dropped h).trans nothing)]
  · rw [droppedBetween, dropWhile_concat (.inr nothing),
      List.rdropWhile_concat_pos _ _ _ (by simp [h])]
    rfl

theorem droppedBetween_of_arrives (h : x.arrives = true) :
    droppedBetween (sent ++ [x]) = (sent.dropWhile (!·.arrives)).countP (!·.arrives) := by
  rw [droppedBetween, dropWhile_concat (.inl h), List.rdropWhile_concat_neg _ _ _ (by simp [h]),
    List.countP_append]
  simp [h]

theorem droppedSince_of_dropped (h : x.arrives = false) :
    droppedSince (sent ++ [x]) = droppedSince sent + 1 := by
  rw [droppedSince, List.rtakeWhile_concat_pos _ _ _ (by simp [h]), List.length_append]
  rfl

theorem droppedSince_of_arrives (h : x.arrives = true) : droppedSince (sent ++ [x]) = 0 := by
  rw [droppedSince, List.rtakeWhile_concat_neg _ _ _ (by simp [h])]
  rfl

/-- What is dropped after the first frame that arrives is dropped before the last one or
after it. -/
theorem countP_dropWhile (h : arrivals sent ≠ []) :
    (sent.dropWhile (!·.arrives)).countP (!·.arrives)
      = droppedBetween sent + droppedSince sent := by
  induction sent using List.reverseRecOn with
  | nil => exact absurd rfl h
  | append_singleton sent x ih =>
    cases hx : x.arrives with
    | true =>
      rw [droppedBetween_of_arrives hx, droppedSince_of_arrives hx, dropWhile_concat (.inl hx),
        List.countP_append]
      simp [hx]
    | false =>
      rw [arrivals_of_dropped hx] at h
      rw [droppedBetween_of_dropped hx, droppedSince_of_dropped hx, dropWhile_concat (.inr h),
        List.countP_append, ih h]
      simp [hx, Nat.add_assoc]

end Account

/-- The frames that an event says are lost of a sender. -/
def ParserEvent.lostOf (a : Address) : ParserEvent → Nat
  | .packetLoss peer lost => if peer = a then lost else 0
  | _ => 0

/-- The frames that events say are lost of a sender. -/
def lossesOf (a : Address) (events : List ParserEvent) : Nat := (events.map (·.lostOf a)).sum

theorem lossesOf_append (a : Address) (events more : List ParserEvent) :
    lossesOf a (events ++ more) = lossesOf a events + lossesOf a more := by
  rw [lossesOf, List.map_append, List.sum_append]
  rfl

theorem lossesOf_onArrival (a : Address) (missing : Nat) (f : Frame) :
    lossesOf a (onArrival (if missing = 0 then none else some missing) f)
      = if f.sender = a then missing else 0 := by
  by_cases nothing : missing = 0
  · simp [lossesOf, onArrival, ParserEvent.lostOf, nothing]
  · simp [lossesOf, onArrival, ParserEvent.lostOf, nothing]

theorem sum_lost_onArrival (missing : Nat) (f : Frame) :
    ((onArrival (if missing = 0 then none else some missing) f).map (·.lost)).sum = missing := by
  by_cases nothing : missing = 0
  · simp [onArrival, ParserEvent.lost, nothing]
  · simp [onArrival, ParserEvent.lost, nothing]

/-- A receiver that knows `t` and has reported `events` has the account of what was sent;
its senders will give their next frames the numbers `next`. -/
structure Tallied (sent : List Sent) (next : Address → Sequencer) (t : SequenceTracker)
    (events : List ParserEvent) : Prop where
  peers : ∀ a, t.peers.find? a = account a (sentBy a sent)
  next : ∀ a, ∀ peer ∈ t.peers.find? a,
    (next a).current = peer.last + 1 + UInt8.ofNat (droppedSince (sentBy a sent))
  losses : ∀ a, lossesOf a events = droppedBetween (sentBy a sent)
  total : (t.peers.values.map (·.lost)).sum = (events.map (·.lost)).sum

theorem sentBy_append (a : Address) (sent rest : List Sent) :
    sentBy a (sent ++ rest) = sentBy a sent ++ sentBy a rest := List.filter_append ..

theorem sentBy_concat (a : Address) (sent : List Sent) (x : Sent) :
    sentBy a (sent ++ [x])
      = if x.frame.sender = a then sentBy a sent ++ [x] else sentBy a sent := by
  rw [sentBy_append]
  split <;> simp [sentBy, *]

theorem account_of_dropped {a : Address} {sent : List Sent} {x : Sent} (h : x.arrives = false) :
    account a (sent ++ [x]) = account a sent := by
  rw [account, arrivals_of_dropped h, droppedBetween_of_dropped h, account]

theorem account_of_arrives {a : Address} {sent : List Sent} {x : Sent} (h : x.arrives = true) :
    account a (sent ++ [x]) = some ⟨a, x.frame.header.sequence, (arrivals sent).length + 1,
      droppedBetween (sent ++ [x])⟩ := by
  rw [account, arrivals_of_arrives h, List.getLast?_concat, List.length_append]
  rfl

theorem account_eq_none_iff {a : Address} {sent : List Sent} :
    account a sent = none ↔ arrivals sent = [] := by
  rw [account, Option.map_eq_none_iff, List.getLast?_eq_none_iff]

namespace Tallied

variable {sent : List Sent} {next : Address → Sequencer} {t : SequenceTracker}
  {events : List ParserEvent} {x : Sent}

theorem nil (next : Address → Sequencer) : Tallied [] next .empty [] :=
  ⟨fun _ => rfl, nofun, fun _ => rfl, rfl⟩

/-- The account stays as it is when a frame is dropped. -/
theorem dropped (h : Tallied sent next t events) (lost : x.arrives = false) :
    Tallied (sent ++ [x])
      (Function.update next x.frame.sender (next x.frame.sender).advance.2) t events := by
  refine ⟨?_, ?_, ?_, h.total⟩
  · intro a
    rw [h.peers, sentBy_concat]
    split
    · rw [account_of_dropped lost]
    · rfl
  · intro a peer known
    have before := h.next a peer known
    rw [sentBy_concat]
    split
    · next own =>
      rw [own, Function.update_self, droppedSince_of_dropped lost]
      show (next a).current + 1 = _
      rw [before, UInt8.ofNat_add, UInt8.add_assoc]
      rfl
    · next other =>
      rw [Function.update_of_ne (Ne.symm other)]
      exact before
  · intro a
    rw [h.losses, sentBy_concat]
    split
    · rw [droppedBetween_of_dropped lost]
    · rfl

/-- When a frame arrives, the receiver finds missing what was dropped since the last one,
and has the account of the sender. -/
theorem exists_missing (h : Tallied sent next t events) (arrives : x.arrives = true)
    (number : x.frame.header.sequence = (next x.frame.sender).current)
    (few : droppedSince (sentBy x.frame.sender sent) ≤ 254) :
    ∃ missing, droppedBetween (sentBy x.frame.sender sent ++ [x])
        = droppedBetween (sentBy x.frame.sender sent) + missing ∧
      ((t.peers.find? x.frame.sender).map (·.lost)).getD 0
        = droppedBetween (sentBy x.frame.sender sent) ∧
      t.track x.frame.sender x.frame.header.sequence =
        (if missing = 0 then none else some missing, ⟨t.peers.insert x.frame.sender
          ⟨x.frame.sender, x.frame.header.sequence,
            (arrivals (sentBy x.frame.sender sent)).length + 1,
            droppedBetween (sentBy x.frame.sender sent ++ [x])⟩⟩) := by
  have peer := h.peers x.frame.sender
  rw [droppedBetween_of_arrives arrives]
  cases known : t.peers.find? x.frame.sender with
  | none =>
    have nothing : arrivals (sentBy x.frame.sender sent) = [] :=
      account_eq_none_iff.1 (peer.symm.trans known)
    have before := droppedBetween_of_nil nothing
    rw [dropWhile_eq_nil.2 nothing, before, nothing, SequenceTracker.track_of_none known]
    exact ⟨0, rfl, rfl, rfl⟩
  | some q =>
    have some_arrived : arrivals (sentBy x.frame.sender sent) ≠ [] := by
      intro nothing
      rw [account_eq_none_iff.2 nothing, known] at peer
      cases peer
    have follows := h.next x.frame.sender q known
    rw [known, account] at peer
    obtain ⟨f, -, rfl⟩ := Option.map_eq_some_iff.1 peer.symm
    rw [countP_dropWhile some_arrived, SequenceTracker.track_of_some known, number, follows,
      SequenceTracker.gap_of_missing _ few]
    exact ⟨_, rfl, rfl, rfl⟩

/-- The account is brought up to date when a frame arrives. -/
theorem arrived (h : Tallied sent next t events) (arrives : x.arrives = true)
    (number : x.frame.header.sequence = (next x.frame.sender).current)
    (few : droppedSince (sentBy x.frame.sender sent) ≤ 254) :
    Tallied (sent ++ [x])
      (Function.update next x.frame.sender (next x.frame.sender).advance.2)
      (t.track x.frame.sender x.frame.header.sequence).2
      (events ++ onArrival (t.track x.frame.sender x.frame.header.sequence).1 x.frame) := by
  obtain ⟨missing, more, old, tracked⟩ := h.exists_missing arrives number few
  rw [tracked]
  refine ⟨?_, ?_, ?_, ?_⟩
  · intro a
    rw [Dictionary.find?_insert, sentBy_concat]
    by_cases own : a = x.frame.sender
    · rw [if_pos own, if_pos own.symm, own, account_of_arrives arrives]
    · rw [if_neg own, if_neg (Ne.symm own), h.peers]
  · intro a peer known
    rw [Dictionary.find?_insert] at known
    rw [sentBy_concat]
    by_cases own : a = x.frame.sender
    · rw [if_pos own] at known
      cases known
      rw [if_pos own.symm, own, Function.update_self, droppedSince_of_arrives arrives, number]
      exact (UInt8.add_zero _).symm
    · rw [if_neg own] at known
      rw [if_neg (Ne.symm own), Function.update_of_ne own]
      exact h.next a peer known
  · intro a
    rw [lossesOf_append, h.losses, lossesOf_onArrival, sentBy_concat]
    by_cases own : x.frame.sender = a
    · subst own
      rw [if_pos rfl, if_pos rfl, more]
    · rw [if_neg own, if_neg own, Nat.add_zero]
  · have sums := Dictionary.sum_values_insert t.peers x.frame.sender
      ⟨x.frame.sender, x.frame.header.sequence, (arrivals (sentBy x.frame.sender sent)).length + 1,
        droppedBetween (sentBy x.frame.sender sent ++ [x])⟩ (·.lost)
    rw [old, more] at sums
    rw [List.map_append, List.sum_append, ← h.total, sum_lost_onArrival, more]
    dsimp only at sums ⊢
    omega

/-- The account is exact after any frames of which no sender loses more than 254 together. -/
theorem run {rest : List Sent} (h : Tallied sent next t events)
    (numbered : Numbered next (rest.map (·.frame)))
    (few : ∀ a, ∀ lost, lost <:+: sentBy a (sent ++ rest) → (∀ x ∈ lost, x.arrives = false) →
      lost.length ≤ 254) :
    ∃ next', Tallied (sent ++ rest) next'
      ((arrivals rest).foldl (fun t f => (t.follow true f).2) t)
      (events ++ t.reports true (arrivals rest)) := by
  induction rest generalizing sent next t events with
  | nil =>
    have none_more : events ++ t.reports true (arrivals []) = events := List.append_nil _
    rw [List.append_nil, none_more]
    exact ⟨next, h⟩
  | cons x rest ih =>
    obtain ⟨number, numbered⟩ := numbered
    have one_more : sent ++ x :: rest = (sent ++ [x]) ++ rest := by simp
    rw [one_more] at few ⊢
    cases arrives : x.arrives with
    | false =>
      have passed : arrivals (x :: rest) = arrivals rest := by simp [arrivals, arrives]
      rw [passed]
      exact ih (h.dropped arrives) numbered few
    | true =>
      have heard : arrivals (x :: rest) = x.frame :: arrivals rest := by simp [arrivals, arrives]
      have since : droppedSince (sentBy x.frame.sender sent) ≤ 254 := by
        apply few x.frame.sender ((sentBy x.frame.sender sent).rtakeWhile (!·.arrives))
        · rw [List.append_assoc, sentBy_append]
          exact (List.rtakeWhile_suffix _ _).isInfix.trans (List.prefix_append _ _).isInfix
        · intro y hy
          simpa using List.mem_rtakeWhile_imp hy
      obtain ⟨next', tallied⟩ := ih (h.arrived arrives number since) numbered few
      rw [List.append_assoc events] at tallied
      rw [heard, SequenceTracker.reports]
      exact ⟨next', tallied⟩

end Tallied

theorem spaced_contiguous (frames : List Frame) :
    spaced (frames.map fun f => ([], f)) = frames.flatMap Frame.toBytes := by
  rw [spaced, List.flatMap_map]
  rfl

namespace Run

/-- **The account of losses is exact.**  Senders number their frames, each on from a number
of its own; their frames come in any order, and any of them are dropped, but of no sender
more than 254 together.  A parser that follows senders reads the frames that arrive.  Then
it knows of every sender of which a frame arrived the number of the last one, how many
arrived, and how many were dropped between the first and the last; it has reported as many
lost of it, and counts as many in all. -/
theorem counts_losses (setup : ParserSetup) (follows : setup.trackSequences = true)
    (unsigned : setup.signer = none) (next : Address → Sequencer) (sent : List Sent)
    (numbered : Numbered next (sent.map (·.frame)))
    (few : ∀ a, ∀ lost, lost <:+: sentBy a sent → (∀ x ∈ lost, x.arrives = false) →
      lost.length ≤ 254)
    (readable : ∀ f ∈ arrivals sent, Frame.decode f.toBytes setup.lookup = .ok f)
    (calls : List Call)
    (arrived : calls.flatMap Call.bytes = (arrivals sent).flatMap Frame.toBytes) :
    let r := ofCalls setup calls
    (∀ a, r.parser.sequences.peers.find? a = (arrivals (sentBy a sent)).getLast?.map fun f =>
      { address := a
        last := f.header.sequence
        received := (arrivals (sentBy a sent)).length
        lost := droppedBetween (sentBy a sent) }) ∧
    (∀ a, lossesOf a (r.log.map (·.2)) = droppedBetween (sentBy a sent)) ∧
    r.parser.stats.lostPackets = (r.parser.sequences.peers.values.map (·.lost)).sum := by
  intro r
  have whole : ((arrivals sent).map fun f => (([] : Bytes), f)).map (·.2) = arrivals sent := by
    rw [List.map_map]
    exact List.map_id _
  have quiet : ∀ piece ∈ (arrivals sent).map fun f => (([] : Bytes), f),
      Bytes.Quiet piece.1 := by
    simp [Bytes.Quiet]
  have still : Bytes.Quiet [] := fun _ hb => absurd hb List.not_mem_nil
  have arrived : calls.flatMap Call.bytes
      = spaced ((arrivals sent).map fun f => ([], f)) ++ [] := by
    rw [spaced_contiguous, List.append_nil, arrived]
  obtain ⟨events, sequences, stats, -⟩ := of_spaced quiet still (whole.symm ▸ readable)
    (Scan.trusts_of_unsigned unsigned _ _) arrived
  rw [whole, follows] at events sequences
  obtain ⟨next', tallied⟩ := (Tallied.nil next).run numbered few
  rw [List.nil_append, List.nil_append, ← events, ← sequences] at tallied
  refine ⟨tallied.peers, tallied.losses, ?_⟩
  have counted := congrArg ParserStats.lostPackets stats
  rw [ParserStats.lostPackets_ofEvents] at counted
  exact counted.trans tallied.total.symm

/-- A heartbeat of a sender under a number. -/
def numberedHeartbeat (sender : Address) (sequence : UInt8) : Frame :=
  let header : Header := ⟨.v2, 9, 0, 0, sequence, sender.system, sender.component, 0⟩
  let payload : Bytes := [0, 0, 0, 0, 6, 8, 0, 4, 3]
  ⟨header, ⟨0, .v2, payload⟩, Frame.checksumOf header payload 50, none⟩

/-- A sender whose numbers pass 255 loses two of its five heartbeats, one of them before the
first that arrives; the other sender loses none. -/
theorem losses_counted_across_wrap :
    let sent : List Sent := [⟨numberedHeartbeat ⟨1, 1⟩ 253, false⟩,
      ⟨numberedHeartbeat ⟨1, 1⟩ 254, true⟩, ⟨numberedHeartbeat ⟨2, 1⟩ 7, true⟩,
      ⟨numberedHeartbeat ⟨1, 1⟩ 255, false⟩, ⟨numberedHeartbeat ⟨1, 1⟩ 0, true⟩,
      ⟨numberedHeartbeat ⟨1, 1⟩ 1, true⟩]
    let r := ofCalls { lookup := ⟨fun _ => some 50, fun _ => some 9⟩ }
      [.push ((arrivals sent).flatMap Frame.toBytes)]
    r.parser.sequences.peers.find? ⟨1, 1⟩ = some ⟨⟨1, 1⟩, 1, 3, 1⟩ ∧
      r.parser.sequences.peers.find? ⟨2, 1⟩ = some ⟨⟨2, 1⟩, 7, 1, 0⟩ ∧
      lossesOf ⟨1, 1⟩ (r.log.map (·.2)) = 1 := by
  intro sent r
  let next : Address → Sequencer := fun a => if a = ⟨1, 1⟩ then ⟨253⟩ else ⟨7⟩
  have numbered : Numbered next (sent.map (·.frame)) := by decide +kernel
  have few : ∀ a, ∀ lost, lost <:+: sentBy a sent → (∀ x ∈ lost, x.arrives = false) →
      lost.length ≤ 254 := by
    intro a lost within _
    have short : lost.length ≤ sent.length := within.length_le.trans (List.length_filter_le _ _)
    exact short.trans (by decide)
  have readable : ∀ f ∈ arrivals sent,
      Frame.decode f.toBytes ⟨fun _ => some 50, fun _ => some 9⟩ = .ok f := by
    have found : ∀ f ∈ arrivals sent,
        Lookup.examine ⟨fun _ => some 50, fun _ => some 9⟩ f.toBytes = .frame f := by
      decide +kernel
    exact fun f hf => Lookup.examine_eq_frame_iff.1 (found f hf)
  obtain ⟨peers, losses, -⟩ := counts_losses { lookup := ⟨fun _ => some 50, fun _ => some 9⟩ } rfl
    rfl next sent numbered few readable [.push ((arrivals sent).flatMap Frame.toBytes)]
    (List.flatMap_singleton _ _)
  refine ⟨(peers _).trans ?_, (peers _).trans ?_, (losses _).trans ?_⟩
  · decide +kernel
  · decide +kernel
  · decide +kernel

end Run
end Mavlink
