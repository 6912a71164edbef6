import Mavlink.Proofs.Link.FrameStream

/-!
# Exempt messages and replays

A signer can exempt messages: whatever signature a frame of such a message carries, the
signer accepts it.  It is exempt from nothing else.  If it carries a signature at all, its
timestamp must be later than the last one of its stream, and is remembered, although
nobody has verified it.

* `Parser.exempt_frame_settled` --- what becomes of such a frame, and of the frames that
  are signed on its stream after it;
* `Run.exempt_heartbeat_refused` --- so one that comes twice is refused the second time.
-/

namespace Mavlink

namespace Parser

theorem verify_eq_some_iff {p : Parser} {signer : Signer} (verified : p.setup.signer = some signer)
    (checks : signer.incoming ≠ .proxy) {f : Frame}
    {timestamps : Dictionary SigningStream Timestamp} :
    p.verify f = some timestamps ↔
      signer.accepts f = true ∧ f.Fresh p.timestamps ∧ timestamps = f.stamp p.timestamps := by
  have same : p.verify f = Scan.authenticate { timestamps := p.timestamps } p.setup.signer f :=
    verify_eq_authenticate rfl f
  rw [same, verified]
  exact Scan.authenticate_eq_some_iff checks

theorem verify_eq_none_of_stale {p : Parser} {signer : Signer}
    (verified : p.setup.signer = some signer) (checks : signer.incoming ≠ .proxy) {f : Frame}
    (stale : ¬ f.Fresh p.timestamps) : p.verify f = none := by
  rw [Option.eq_none_iff_forall_not_mem]
  intro timestamps accepted
  exact stale ((verify_eq_some_iff verified checks).1 accepted).2.1

section Exempt

variable {p : Parser} {signer : Signer} {f : Frame} {byte : UInt8}

/-- A frame with a fresh timestamp is reported if the signer accepts it. -/
theorem settled_of_fresh (coherent : p.Coherent) (verified : p.setup.signer = some signer)
    (checks : signer.incoming ≠ .proxy) (accepted : signer.accepts f = true)
    (whole : Frame.decode (p.buffer ++ [byte]) p.setup.lookup = .ok f)
    (fresh : f.Fresh p.timestamps) :
    p.reported byte = p.losses f ++ [.frame f] ∧
      (p.step byte).timestamps = f.stamp p.timestamps := by
  have found := Lookup.examine_eq_frame_iff.2 whole
  have settled : p.verify f = some (f.stamp p.timestamps) :=
    (verify_eq_some_iff verified checks).2 ⟨accepted, fresh, rfl⟩
  obtain ⟨stage, stepped, -⟩ := step_eq coherent byte
  rw [reported_eq coherent, stepped, found, reports_accepted settled,
    settle_accepted (p := p.grow byte) settled]
  exact ⟨rfl, (noteSequence_keeps _ f).2.2.2.2⟩

/-- A frame with a stale timestamp is refused. -/
theorem settled_of_stale (coherent : p.Coherent) (verified : p.setup.signer = some signer)
    (checks : signer.incoming ≠ .proxy)
    (whole : Frame.decode (p.buffer ++ [byte]) p.setup.lookup = .ok f)
    (stale : ¬ f.Fresh p.timestamps) :
    p.reported byte = [.error (.badSignature f.messageId)] ∧
      (p.step byte).timestamps = p.timestamps := by
  have found := Lookup.examine_eq_frame_iff.2 whole
  have settled : p.verify f = none := verify_eq_none_of_stale verified checks stale
  obtain ⟨stage, stepped, -⟩ := step_eq coherent byte
  rw [reported_eq coherent, stepped, found, reports_refused settled,
    settle_refused (p := p.grow byte) settled]
  exact ⟨rfl, rfl⟩

/-- **What becomes of an exempt frame** when its last byte comes.  If it is not signed, or
signed later than the last frame of its stream, it is reported and its timestamp is
remembered; otherwise it is refused.  In both cases no frame is accepted after it that is
signed on its stream with a timestamp not later than the one that it claims. -/
theorem exempt_frame_settled (coherent : p.Coherent) (verified : p.setup.signer = some signer)
    (checks : signer.incoming ≠ .proxy) (exempt : signer.exempts f.messageId = true)
    (whole : Frame.decode (p.buffer ++ [byte]) p.setup.lookup = .ok f) :
    (f.Fresh p.timestamps → p.reported byte = p.losses f ++ [.frame f] ∧
      (p.step byte).timestamps = f.stamp p.timestamps) ∧
    (¬ f.Fresh p.timestamps → p.reported byte = [.error (.badSignature f.messageId)] ∧
      (p.step byte).timestamps = p.timestamps) ∧
    ∀ a ∈ f.signature, ∀ g : Frame, ∀ b ∈ g.signature, b.link = a.link → g.sender = f.sender →
      b.timestamp ≤ a.timestamp → (p.step byte).verify g = none := by
  have onFresh := settled_of_fresh coherent verified checks (Signer.accepts_of_exempt exempt) whole
  have onStale := settled_of_stale coherent verified checks whole
  refine ⟨onFresh, onStale, ?_⟩
  intro a ha g b hb link sender earlier
  have verified' : (p.step byte).setup.signer = some signer := by
    rw [setup_step coherent, verified]
  apply verify_eq_none_of_stale verified' checks
  intro late
  have late := late b hb
  rw [link, sender] at late
  by_cases fresh : f.Fresh p.timestamps
  · rw [(onFresh fresh).2, Frame.find?_stamp ha, if_pos rfl] at late
    exact absurd earlier (Nat.not_le.2 (late a.timestamp rfl))
  · rw [(onStale fresh).2] at late
    apply fresh
    intro a' ha' last hlast
    cases Option.some.inj (ha.symm.trans ha')
    exact Nat.lt_of_lt_of_le (late last hlast) earlier

end Exempt
end Parser

/-- A signer that refuses what is not signed, except heartbeats. -/
def heartbeatsExempt : Signer :=
  { (Signer.ofKey 1 (.ofText "secret")).exempting [0] with incoming := .strict }

/-- A heartbeat with a signature that nobody made. -/
def forgedHeartbeat : Frame :=
  ⟨⟨.v2, 9, 1, 0, 0, 1, 1, 0⟩, ⟨0, .v2, [0, 0, 0, 0, 6, 8, 0, 4, 3]⟩, 0x78ED,
    some ⟨1, .ofNat 7, .ofNat 0⟩⟩

/-- A parser to which such a heartbeat comes. -/
def heartbeatsExemptSetup : ParserSetup where
  lookup := ⟨fun _ => some 50, fun _ => none⟩
  signer := some heartbeatsExempt

/-- A forged heartbeat whose last byte is missing is reported with that byte, and its
timestamp is remembered. -/
theorem Parser.forged_heartbeat_settled :
    let p : Parser := { start heartbeatsExemptSetup with
      stage := .collect .signature 34
      buffer := forgedHeartbeat.toBytes.dropLast }
    p.reported 0 = p.losses forgedHeartbeat ++ [.frame forgedHeartbeat] ∧
      (p.step 0).timestamps.find? ⟨1, ⟨1, 1⟩⟩ = some 7 := by
  intro p
  have read : Header.decode p.buffer = .ok forgedHeartbeat.header :=
    (Header.decode_eq_ok_iff).2 ⟨⟨by decide, by decide, nofun⟩, by decide +kernel⟩
  have coherent : p.Coherent := .signature read rfl rfl (by decide +kernel)
  have whole : Frame.decode (p.buffer ++ [0]) p.setup.lookup = .ok forgedHeartbeat :=
    Lookup.examine_eq_frame_iff.1 (by decide +kernel)
  obtain ⟨onFresh, -, -⟩ := exempt_frame_settled coherent rfl (by decide) (by decide) whole
  obtain ⟨reported, stamped⟩ := onFresh fun _ _ _ known => (nomatch known)
  exact ⟨reported, by rw [stamped]; decide⟩

/-- A scan gives up the first byte of a frame whose signature is not in order. -/
theorem scan_refuse {setup : ParserSetup} {stream : Bytes} {s : Scan} {f : Frame} {rest : Bytes}
    (readable : Frame.decode f.toBytes setup.lookup = .ok f)
    (forged : s.authenticate setup.signer f = none)
    (ahead : stream.drop s.place = f.toBytes ++ rest) :
    scan setup stream (s.refuse (.badSignature f.messageId)) = scan setup stream s := by
  have found : setup.lookup.examine (stream.drop s.place) = .frame f := by
    rw [ahead, Lookup.examine_eq_frame_iff]
    exact Frame.decode_toBytes_append readable rest
  rw [← scan_step setup stream s, found, Scan.step_refused forged]

namespace Run

/-- **An exempt heartbeat can be refused.**  It is reported when it comes first, and refused
when it comes again. -/
theorem exempt_heartbeat_refused :
    heartbeatsExempt.exempts forgedHeartbeat.messageId = true ∧
      Frame.decode forgedHeartbeat.toBytes heartbeatsExemptSetup.lookup = .ok forgedHeartbeat ∧
      (ofCalls heartbeatsExemptSetup
          [.push forgedHeartbeat.toBytes, .push forgedHeartbeat.toBytes]).log.map (·.2)
        = [.frame forgedHeartbeat, .error (.badSignature 0)] := by
  let stream := forgedHeartbeat.toBytes ++ forgedHeartbeat.toBytes
  let once : Scan := Scan.accept {} true (forgedHeartbeat.stamp ∅) forgedHeartbeat
  let twice : Scan := once.refuse (.badSignature 0)
  have readable : Frame.decode forgedHeartbeat.toBytes heartbeatsExemptSetup.lookup
      = .ok forgedHeartbeat := Lookup.examine_eq_frame_iff.1 (by decide +kernel)
  have exempt : heartbeatsExempt.exempts forgedHeartbeat.messageId = true := by decide
  have accepted : Scan.authenticate {} heartbeatsExemptSetup.signer forgedHeartbeat
      = some (forgedHeartbeat.stamp ∅) :=
    (Scan.authenticate_eq_some_iff (by decide)).2
      ⟨Signer.accepts_of_exempt exempt, fun _ _ _ known => (nomatch known), rfl⟩
  have forged : once.authenticate heartbeatsExemptSetup.signer forgedHeartbeat = none := by
    rw [Option.eq_none_iff_forall_not_mem]
    intro timestamps again
    have fresh := ((Scan.authenticate_eq_some_iff (by decide)).1 again).2.1
    exact absurd (fresh ⟨1, .ofNat 7, .ofNat 0⟩ rfl 7 (by decide)) (by decide)
  have first : scan heartbeatsExemptSetup stream once = scan heartbeatsExemptSetup stream {} :=
    scan_accept readable accepted List.drop_zero
  have again : stream.drop once.place = forgedHeartbeat.toBytes ++ [] := by decide +kernel
  have second : scan heartbeatsExemptSetup stream twice
      = scan heartbeatsExemptSetup stream once := scan_refuse readable forged again
  -- what is left of the second heartbeat starts no frame
  have quiet : Bytes.Quiet (forgedHeartbeat.toBytes.drop 1) := by decide +kernel
  have left : stream.drop twice.place = forgedHeartbeat.toBytes.drop 1 ++ [] := by decide +kernel
  have third : scan heartbeatsExemptSetup stream (twice.pass (forgedHeartbeat.toBytes.drop 1))
      = scan heartbeatsExemptSetup stream twice := scan_pass quiet left
  have ended : scan heartbeatsExemptSetup stream (twice.pass (forgedHeartbeat.toBytes.drop 1))
      = twice.pass (forgedHeartbeat.toBytes.drop 1) := scan_of_wait (by decide +kernel)
  have log := (follows_scan heartbeatsExemptSetup
    [.push forgedHeartbeat.toBytes, .push forgedHeartbeat.toBytes]).1
  have arrived : [Call.push forgedHeartbeat.toBytes, .push forgedHeartbeat.toBytes].flatMap
      Call.bytes = stream := by decide +kernel
  refine ⟨exempt, readable, ?_⟩
  rw [log, arrived, ← first, ← second, ← third, ended]
  rfl

end Run
end Mavlink
