import Mavlink.Proofs.Link.Scanner

/-!
# What a step of the parser does

Between two bytes the stage of a parser is determined by the bytes of its candidate:
`Awaits` says how.  Those bytes are always too few to tell anything, and with the next
byte one of four things happens, according to what then stands at the beginning of the
candidate.  `Parser.step_eq` is the whole of it; nothing about the parser needs its
stages any more.
-/

namespace Mavlink

/-- The stages in which the bytes of a candidate can leave a parser. -/
inductive Awaits (l : Lookup) : Bytes → ParserStage → Prop where
  | marker : Awaits l [] .seek
  | header {version : Version} {r : Bytes} (short : r.length + 1 < version.headerSize) :
      Awaits l (version.marker :: r) (.collect .header version.headerSize)
  | payload {b : Bytes} {h : Header} (read : Header.decode b = .ok h) (fits : l.excess? h = none)
      (short : b.length < h.payloadEnd) : Awaits l b (.collect .payload h.payloadEnd)
  | trailer {b : Bytes} {h : Header} (read : Header.decode b = .ok h) (fits : l.excess? h = none)
      (short : b.length < h.payloadEnd + Header.checksumSize) :
      Awaits l b (.collect .trailer (h.payloadEnd + Header.checksumSize))
  | signature {b : Bytes} {h : Header} (read : Header.decode b = .ok h)
      (fits : l.excess? h = none) (signed : h.isSigned = true) (short : b.length < h.frameSize) :
      Awaits l b (.collect .signature h.frameSize)

theorem Header.payloadEnd_add_checksumSize_le (h : Header) :
    h.payloadEnd + checksumSize ≤ h.frameSize := by
  rw [frameSize]
  exact Nat.le_add_right ..

/-- A candidate that is shorter than its frame tells nothing. -/
theorem Lookup.examine_of_short {l : Lookup} {b : Bytes} {h : Header}
    (read : Header.decode b = .ok h) (fits : l.excess? h = none) (short : b.length < h.frameSize) :
    l.examine b = .wait := by
  rw [examine_of_header read, fits]
  simp only [if_pos short]

/-- A candidate that is as long as its frame tells what it is. -/
theorem Lookup.examine_of_whole {l : Lookup} {b : Bytes} {h : Header}
    (read : Header.decode b = .ok h) (fits : l.excess? h = none) (whole : h.frameSize ≤ b.length) :
    l.examine b ≠ .wait := by
  rw [examine_of_header read, fits]
  simp only [if_neg (Nat.not_lt.2 whole)]
  cases Frame.decode b l with
  | error e => exact nofun
  | ok f => exact nofun

/-- The bytes of a candidate are too few to tell anything. -/
theorem Awaits.examine {l : Lookup} {b : Bytes} {stage : ParserStage} (hb : Awaits l b stage) :
    l.examine b = .wait := by
  cases hb with
  | marker => rfl
  | header short => exact Lookup.examine_short short
  | payload read fits short =>
    have := Header.payloadEnd_add_checksumSize_le ‹_›
    exact Lookup.examine_of_short read fits (by omega)
  | trailer read fits short =>
    have := Header.payloadEnd_add_checksumSize_le ‹_›
    exact Lookup.examine_of_short read fits (by omega)
  | signature read fits _ short => exact Lookup.examine_of_short read fits short

/-- The stage stays while the part is not at its end. -/
theorem Awaits.grow {l : Lookup} {b : Bytes} {part : FramePart} {goal : Nat}
    (awaits : Awaits l b (.collect part goal)) (byte : UInt8)
    (short : (b ++ [byte]).length ≠ goal) :
    Awaits l (b ++ [byte]) (.collect part goal) := by
  have hlen : (b ++ [byte]).length = b.length + 1 := List.length_append
  rw [hlen] at short
  generalize hstage : ParserStage.collect part goal = stage at awaits ⊢
  cases awaits with
  | marker => cases hstage
  | @header version r _ =>
    cases hstage
    rw [List.length_cons] at short
    have hlen : (r ++ [byte]).length + 1 < version.headerSize := by
      rw [List.length_append, List.length_singleton]
      omega
    exact .header hlen
  | payload read fits =>
    cases hstage
    exact .payload (Header.decode_append read [byte]) fits (by omega)
  | trailer read fits =>
    cases hstage
    exact .trailer (Header.decode_append read [byte]) fits (by omega)
  | signature read fits signed =>
    cases hstage
    exact .signature (Header.decode_append read [byte]) fits signed (by omega)

namespace Parser

/-- A parser whose stage is the one in which the bytes of its candidate leave it. -/
def Coherent (p : Parser) : Prop := Awaits p.setup.lookup p.buffer p.stage

/-- Accepts the candidate as a frame. -/
def accept (p : Parser) (timestamps : Dictionary SigningStream Timestamp) (f : Frame) : Parser :=
  ({ p with buffer := [], stage := .seek, timestamps := timestamps }.noteSequence f).deliver f

/-- What becomes of a parser by what its candidate turns out to be. -/
def settle (p : Parser) (stage : ParserStage) : Finding → Parser
  | .wait => { p with stage := stage }
  | .noise => { p with
      buffer := []
      stage := .seek
      stats := { p.stats with skippedBytes := p.stats.skippedBytes + 1 } }
  | .fault e => p.reject e
  | .frame f =>
    match p.verify f with
    | none => p.reject (.badSignature f.messageId)
    | some timestamps => p.accept timestamps f

theorem complete_eq {p : Parser} {h : Header} (read : Header.decode p.buffer = .ok h)
    (fits : p.setup.lookup.excess? h = none) (whole : h.frameSize ≤ p.buffer.length)
    (stage : ParserStage) :
    p.complete = p.settle stage (p.setup.lookup.examine p.buffer) := by
  rw [Lookup.examine_of_header read, fits]
  simp only [if_neg (Nat.not_lt.2 whole)]
  unfold complete
  cases Frame.decode p.buffer p.setup.lookup with
  | error e => rfl
  | ok f => rfl

/-- The end of a header: it is refused, or the parser goes on to what the header announces. -/
theorem advance_header_eq {p : Parser} {version : Version} {r : Bytes}
    (begun : p.buffer = version.marker :: r) (full : p.buffer.length = version.headerSize) :
    ∃ stage, p.advance .header version.headerSize
        = p.settle stage (p.setup.lookup.examine p.buffer) ∧
      (p.setup.lookup.examine p.buffer = .wait → Awaits p.setup.lookup p.buffer stage) := by
  unfold advance
  cases hd : Header.decode p.buffer with
  | error e =>
    have found : p.setup.lookup.examine p.buffer = .fault e := by
      rw [begun, List.length_cons] at full
      rw [begun] at hd ⊢
      exact Lookup.examine_of_error (Nat.le_of_eq full.symm) hd
    refine ⟨.seek, ?_, ?_⟩
    · rw [found]
      rfl
    · rw [found]
      exact nofun
  | ok h =>
    have hv : h.version = version := by
      obtain ⟨r', hr'⟩ := Header.exists_marker hd
      have hm : version.marker = h.version.marker := (List.cons.inj (begun.symm.trans hr')).1
      have := Version.ofMarker?_marker h.version
      rw [← hm, Version.ofMarker?_marker] at this
      exact (Option.some.inj this).symm
    have hsize : version.headerSize = h.size := by rw [← hv, Header.size]
    have hend : h.payloadEnd = h.size + h.payloadLength.toNat := rfl
    have hmore := h.payloadEnd_add_checksumSize_le
    have htwo : Header.checksumSize = 2 := rfl
    cases hx : p.setup.lookup.excess? h with
    | some limit =>
      have hx' : p.exceeded h = some limit := hx
      simp only [Lookup.examine_of_header hd, hx, hx']
      exact ⟨.seek, rfl, nofun⟩
    | none =>
      have hx' : p.exceeded h = none := hx
      simp only [Lookup.examine_of_short hd hx (by omega), hx']
      refine ⟨_, rfl, fun _ => ?_⟩
      split
      · next hzero =>
        have hzero : h.payloadLength.toNat = 0 := by rw [hzero]; rfl
        rw [show version.headerSize = h.payloadEnd by omega]
        exact .trailer hd hx (by omega)
      · next hpos =>
        have hpos : h.payloadLength.toNat ≠ 0 := fun h0 => hpos (UInt8.toNat_inj.1 h0)
        rw [hsize, ← hend]
        exact .payload hd hx (by omega)

/-- At the end of a part the parser goes on to the next part if what it has tells nothing
yet, and settles otherwise. -/
theorem advance_eq {p : Parser} {b : Bytes} {byte : UInt8} {part : FramePart} {goal : Nat}
    (awaits : Awaits p.setup.lookup b (.collect part goal)) (grown : p.buffer = b ++ [byte])
    (full : p.buffer.length = goal) :
    ∃ stage, p.advance part goal = p.settle stage (p.setup.lookup.examine p.buffer) ∧
      (p.setup.lookup.examine p.buffer = .wait → Awaits p.setup.lookup p.buffer stage) := by
  have htwo : Header.checksumSize = 2 := rfl
  generalize hstage : ParserStage.collect part goal = stage at awaits
  cases awaits with
  | marker => cases hstage
  | header short =>
    cases hstage
    exact advance_header_eq grown full
  | @payload b h read fits short =>
    cases hstage
    have read : Header.decode p.buffer = .ok h := grown ▸ Header.decode_append read [byte]
    have hmore := h.payloadEnd_add_checksumSize_le
    refine ⟨.collect .trailer (h.payloadEnd + Header.checksumSize), ?_, ?_⟩
    · rw [Lookup.examine_of_short read fits (by omega)]
      rfl
    · intro _
      exact .trailer read fits (by omega)
  | @trailer b h read fits short =>
    cases hstage
    have read : Header.decode p.buffer = .ok h := grown ▸ Header.decode_append read [byte]
    have hsize : h.frameSize = h.payloadEnd + Header.checksumSize +
        if h.isSigned then Header.signatureSize else 0 := rfl
    unfold advance
    simp only [read]
    cases hs : h.isSigned with
    | true =>
      rw [hs, if_pos rfl, ← full] at hsize
      have hthirteen : Header.signatureSize = 13 := rfl
      refine ⟨.collect .signature h.frameSize, ?_, ?_⟩
      · rw [Lookup.examine_of_short read fits (by omega), hsize, full]
        rfl
      · intro _
        exact .signature read fits hs (by omega)
    | false =>
      rw [hs, if_neg Bool.false_ne_true, ← full, Nat.add_zero] at hsize
      refine ⟨.seek, complete_eq read fits (Nat.le_of_eq hsize) .seek, ?_⟩
      intro hwait
      exact absurd hwait (Lookup.examine_of_whole read fits (Nat.le_of_eq hsize))
  | @signature b h read fits signed short =>
    cases hstage
    have read : Header.decode p.buffer = .ok h := grown ▸ Header.decode_append read [byte]
    refine ⟨.seek, complete_eq read fits (Nat.le_of_eq full.symm) .seek, ?_⟩
    intro hwait
    exact absurd hwait (Lookup.examine_of_whole read fits (Nat.le_of_eq full.symm))

/-- **What a step does.**  The byte goes to the candidate, and the parser settles what the
candidate turns out to be. -/
theorem step_eq {p : Parser} (coherent : p.Coherent) (byte : UInt8) :
    ∃ stage, p.step byte
        = (p.grow byte).settle stage (p.setup.lookup.examine (p.buffer ++ [byte])) ∧
      (p.setup.lookup.examine (p.buffer ++ [byte]) = .wait →
        Awaits p.setup.lookup (p.buffer ++ [byte]) stage) := by
  unfold Coherent at coherent
  unfold step
  cases hs : p.stage with
  | seek =>
    rw [hs] at coherent
    cases hb : p.buffer with
    | cons _ _ =>
      rw [hb] at coherent
      cases coherent
    | nil =>
      cases hv : Version.ofMarker? byte with
      | none =>
        rw [List.nil_append, Lookup.examine_noise hv]
        refine ⟨.seek, ?_, nofun⟩
        simp only [settle, grow, ← hs, ← hb]
      | some version =>
        rw [Version.ofMarker?_eq_some_iff] at hv
        subst hv
        have short : ([] : Bytes).length + 1 < version.headerSize := by cases version <;> decide
        rw [List.nil_append, Lookup.examine_short short]
        refine ⟨.collect .header version.headerSize, ?_, fun _ => .header short⟩
        simp only [settle, grow, hb, List.nil_append]
  | collect part goal =>
    rw [hs] at coherent
    simp only
    by_cases full : (p.grow byte).buffer.length = goal
    · rw [if_pos full]
      exact advance_eq (p := p.grow byte) coherent rfl full
    · rw [if_neg full]
      have awaits := coherent.grow byte full
      refine ⟨.collect part goal, ?_, fun _ => awaits⟩
      rw [awaits.examine]
      simp only [settle, grow]
      rw [← hs]

theorem settle_refused {p : Parser} {f : Frame} (h : p.verify f = none) (stage : ParserStage) :
    p.settle stage (.frame f) = p.reject (.badSignature f.messageId) := by
  simp only [settle, h]

theorem settle_accepted {p : Parser} {f : Frame} {timestamps : Dictionary SigningStream Timestamp}
    (h : p.verify f = some timestamps) (stage : ParserStage) :
    p.settle stage (.frame f) = p.accept timestamps f := by
  simp only [settle, h]

/-- Noting the number of a frame touches neither the bytes nor the timestamps. -/
theorem noteSequence_keeps (p : Parser) (f : Frame) :
    (p.noteSequence f).setup = p.setup ∧ (p.noteSequence f).stage = p.stage ∧
    (p.noteSequence f).buffer = p.buffer ∧ (p.noteSequence f).replay = p.replay ∧
    (p.noteSequence f).timestamps = p.timestamps := by
  unfold noteSequence
  split
  · split
    split <;> exact ⟨rfl, rfl, rfl, rfl, rfl⟩
  · exact ⟨rfl, rfl, rfl, rfl, rfl⟩

/-- A candidate about which something was found is gone, and the parser looks for the next. -/
theorem coherent_settle (p : Parser) (stage : ParserStage) {finding : Finding}
    (found : finding ≠ .wait) : (p.settle stage finding).Coherent := by
  have idle : ∀ q : Parser, q.buffer = [] → q.stage = .seek → q.Coherent := by
    intro q hb hs
    rw [Coherent, hb, hs]
    exact .marker
  cases finding with
  | wait => exact absurd rfl found
  | noise => exact idle _ rfl rfl
  | fault e => exact idle _ rfl rfl
  | frame f =>
    cases hv : p.verify f with
    | none =>
      rw [settle_refused hv]
      exact idle _ rfl rfl
    | some timestamps =>
      rw [settle_accepted hv]
      obtain ⟨-, hstage, hbuffer, -, -⟩ := noteSequence_keeps
        { p with buffer := [], stage := .seek, timestamps := timestamps } f
      exact idle _ hbuffer hstage

theorem setup_settle (p : Parser) (stage : ParserStage) (finding : Finding) :
    (p.settle stage finding).setup = p.setup := by
  cases finding with
  | wait => rfl
  | noise => rfl
  | fault e => rfl
  | frame f =>
    cases hv : p.verify f with
    | none =>
      rw [settle_refused hv]
      rfl
    | some timestamps =>
      rw [settle_accepted hv]
      exact (noteSequence_keeps _ f).1

theorem setup_step {p : Parser} (coherent : p.Coherent) (byte : UInt8) :
    (p.step byte).setup = p.setup := by
  obtain ⟨stage, stepped, -⟩ := step_eq coherent byte
  rw [stepped, setup_settle]
  rfl

theorem coherent_step {p : Parser} (coherent : p.Coherent) (byte : UInt8) :
    (p.step byte).Coherent := by
  obtain ⟨stage, stepped, awaits⟩ := step_eq coherent byte
  rw [stepped]
  by_cases found : p.setup.lookup.examine (p.buffer ++ [byte]) = .wait
  · rw [found]
    exact awaits found
  · exact coherent_settle _ stage found

/-! ## Reading again -/

theorem drain_of_nil {p : Parser} (h : p.replay = []) : p.drain = p := by
  rw [drain]
  split
  · rfl
  · next heq => rw [h] at heq; cases heq

theorem drain_of_cons {p : Parser} {byte : UInt8} {rest : Bytes} (h : p.replay = byte :: rest) :
    p.drain = ({ p with replay := rest }.step byte).drain := by
  rw [drain]
  split
  · next heq => rw [h] at heq; cases heq
  · next heq =>
    rw [h] at heq
    cases heq
    rfl

theorem coherent_start (setup : ParserSetup) : (start setup).Coherent := .marker

theorem coherent_drain {p : Parser} (coherent : p.Coherent) : p.drain.Coherent := by
  induction p using drain.induct with
  | case1 p h => rwa [drain_of_nil h]
  | case2 p byte rest h ih =>
    rw [drain_of_cons h]
    exact ih (coherent_step (p := { p with replay := rest }) coherent byte)

theorem setup_drain {p : Parser} (coherent : p.Coherent) : p.drain.setup = p.setup := by
  induction p using drain.induct with
  | case1 p h => rw [drain_of_nil h]
  | case2 p byte rest h ih =>
    have coherent : ({ p with replay := rest } : Parser).Coherent := coherent
    rw [drain_of_cons h, ih (coherent_step coherent byte), setup_step coherent]

/-- Nothing waits to be read again once a byte has been dealt with. -/
theorem replay_drain (p : Parser) : p.drain.replay = [] := by
  induction p using drain.induct with
  | case1 p h => rwa [drain_of_nil h]
  | case2 p byte rest h ih => rwa [drain_of_cons h]

theorem push_cons (p : Parser) (byte : UInt8) (bytes : Bytes) :
    p.push (byte :: bytes) = (p.step byte).drain.push bytes := rfl

theorem coherent_push {p : Parser} (coherent : p.Coherent) (bytes : Bytes) :
    (p.push bytes).Coherent := by
  induction bytes generalizing p with
  | nil => exact coherent
  | cons byte bytes ih => exact ih (coherent_drain (coherent_step coherent byte))

theorem replay_push {p : Parser} (idle : p.replay = []) (bytes : Bytes) :
    (p.push bytes).replay = [] := by
  induction bytes generalizing p with
  | nil => exact idle
  | cons byte bytes ih => exact ih (replay_drain _)

end Parser
end Mavlink
