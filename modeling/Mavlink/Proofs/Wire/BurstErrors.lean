import Mathlib.Control.Monad.Basic
import Mathlib.Logic.Function.Basic
import Mavlink.Proofs.Wire.FrameSpelling

/-!
# Bursts of errors

A line that is disturbed alters bytes next to each other.  If they are no more than two, the
checksum tells, whatever they were and whatever becomes of them.

The register is shifted by a bit at a time, and a shift is linear over exclusive or and loses
nothing.  So two registers that differ stay different while the same bytes enter them, and
however many these are.  Two bytes that enter one after another are as good as one word of
16 bits that enters at once, because the second one can stand eight bits up when the first
one is shifted in: until it has come down the polynomial never comes in for it.  The register
has 16 bits as well, so different pairs of bytes leave different registers behind.

Of a frame the marker, the length, the number of the message and the flags that must be
understood tell how it is to be read; where these are as they were, the checksum is computed
over the same places.

* `Wire.absorb_absorb` --- two bytes enter as one word;
* `Wire.crc_ne_of_burst` --- the checksum of bytes of which at most two neighbours are altered;
* `Frame.decode_of_burst` --- what is said of such a frame.
-/

namespace Mavlink

namespace Wire

/-! ## The register -/

/-- The register moves down, and the polynomial comes in if a bit falls out. -/
theorem shiftBit_eq (r : BitVec 16) :
    shiftBit r = (r >>> 1) ^^^ if r.getLsbD 0 then polynomial else 0#16 := by
  unfold shiftBit
  split
  · rfl
  · rw [BitVec.xor_zero]

/-- A shift is linear over exclusive or. -/
theorem shiftBit_xor (a b : BitVec 16) : shiftBit (a ^^^ b) = shiftBit a ^^^ shiftBit b := by
  have feed : ∀ p q : Bool, (if p ^^ q then polynomial else 0#16)
      = (if p then polynomial else 0#16) ^^^ (if q then polynomial else 0#16) := by decide
  rw [shiftBit_eq, shiftBit_eq, shiftBit_eq, BitVec.getLsbD_xor, feed,
    BitVec.ushiftRight_xor_distrib]
  ac_rfl

/-- A shift loses nothing: the highest bit tells whether the polynomial came in. -/
theorem eq_zero_of_shiftBit {r : BitVec 16} (h : shiftBit r = 0#16) : r = 0#16 := by
  have top : (r >>> 1).getLsbD 15 = false := by simp
  unfold shiftBit at h
  split at h
  · rw [BitVec.xor_eq_zero_iff.1 h] at top
    exact absurd top (by decide)
  · next even =>
    apply BitVec.eq_of_getLsbD_eq
    intro i _
    cases i with
    | zero => simpa using even
    | succ i =>
      have moved : (r >>> 1).getLsbD i = false := by rw [h, BitVec.getLsbD_zero]
      rw [BitVec.getLsbD_ushiftRight, Nat.add_comm] at moved
      rw [moved, BitVec.getLsbD_zero]

theorem shiftBit_injective : Function.Injective shiftBit := by
  intro a b same
  have zero : shiftBit (a ^^^ b) = 0#16 := by rw [shiftBit_xor, same, BitVec.xor_self]
  exact BitVec.xor_eq_zero_iff.1 (eq_zero_of_shiftBit zero)

theorem shiftByte_xor (a b : BitVec 16) : shiftByte (a ^^^ b) = shiftByte a ^^^ shiftByte b := by
  simp only [shiftByte, shiftBit_xor]

theorem shiftByte_injective : Function.Injective shiftByte :=
  have twice := shiftBit_injective.comp shiftBit_injective
  have fourfold := twice.comp twice
  fourfold.comp fourfold

/-- A byte that stands higher up moves down, and the polynomial does not come in. -/
theorem shiftBit_shiftLeft (b : UInt8) (n : Nat) (inside : n < 8) :
    shiftBit (b.toBitVec.setWidth 16 <<< (n + 1)) = b.toBitVec.setWidth 16 <<< n := by
  rw [shiftBit, if_neg (by simp)]
  apply BitVec.eq_of_getLsbD_eq
  intro i hi
  simp only [BitVec.getLsbD_ushiftRight, BitVec.getLsbD_shiftLeft, BitVec.getLsbD_setWidth]
  rcases Nat.lt_or_ge i 15 with low | high
  · have place : 1 + i - (n + 1) = i - n := by omega
    have lower : (1 + i < n + 1) ↔ i < n := by omega
    have there : 1 + i < 16 := by omega
    simp only [place, lower, there, hi]
  · have above : b.toBitVec.getLsbD (i - n) = false := BitVec.getLsbD_of_ge _ _ (by omega)
    have out : ¬ 1 + i < 16 := by omega
    simp only [above, out, decide_false, Bool.false_and, Bool.and_false]

/-- Eight shifts bring a byte down that stands eight bits up. -/
theorem shiftByte_shiftLeft (b : UInt8) :
    shiftByte (b.toBitVec.setWidth 16 <<< 8) = b.toBitVec.setWidth 16 := by
  have down := shiftBit_shiftLeft b
  rw [shiftByte, down 7 (by decide), down 6 (by decide), down 5 (by decide), down 4 (by decide),
    down 3 (by decide), down 2 (by decide), down 1 (by decide), down 0 (by decide),
    BitVec.shiftLeft_zero]

/-! ## Bytes that enter the register -/

/-- Two bytes in one register, the second one eight bits up. -/
def pair (x y : UInt8) : BitVec 16 := x.toBitVec.setWidth 16 ^^^ y.toBitVec.setWidth 16 <<< 8

theorem pair_injective {x y x' y' : UInt8} (h : pair x y = pair x' y') : x = x' ∧ y = y' := by
  have low : ∀ x y : UInt8, (pair x y).setWidth 8 = x.toBitVec := by
    intro x y
    apply BitVec.eq_of_getLsbD_eq
    intro i hi
    simp [pair, hi]
  have high : ∀ x y : UInt8, (pair x y >>> 8).setWidth 8 = y.toBitVec := by
    intro x y
    apply BitVec.eq_of_getLsbD_eq
    intro i hi
    have inside : 8 + i < 16 := by omega
    have below : i < 16 := by omega
    simp [pair, hi, inside, below]
  constructor
  · rw [← UInt8.toBitVec_inj, ← low x y, h, low]
  · rw [← UInt8.toBitVec_inj, ← high x y, h, high]

/-- **Two bytes enter as one word.** -/
theorem absorb_absorb (r : BitVec 16) (x y : UInt8) :
    absorb (absorb r x) y = shiftByte (shiftByte (r ^^^ pair x y)) := by
  have up : r ^^^ pair x y = r ^^^ x.toBitVec.setWidth 16 ^^^ y.toBitVec.setWidth 16 <<< 8 :=
    (BitVec.xor_assoc ..).symm
  rw [up, shiftByte_xor (r ^^^ x.toBitVec.setWidth 16), shiftByte_shiftLeft]
  rfl

/-- Registers that differ stay different while the same bytes enter them. -/
theorem absorbAll_injective (bytes : Bytes) : Function.Injective (absorbAll · bytes) := by
  induction bytes with
  | nil => exact fun _ _ same => same
  | cons b bytes ih =>
    intro r s same
    exact (BitVec.xor_left_inj _).1 (shiftByte_injective (ih same))

/-- What at most two bytes were is told by the register that they leave behind. -/
theorem eq_of_absorbAll {r : BitVec 16} {window window' : Bytes} (short : window.length ≤ 2)
    (same_length : window'.length = window.length)
    (same : absorbAll r window' = absorbAll r window) : window' = window := by
  have two : ∀ {x y x' y' : UInt8}, absorbAll r [x', y'] = absorbAll r [x, y] →
      x' = x ∧ y' = y := by
    intro x y x' y' same
    have words : absorb (absorb r x') y' = absorb (absorb r x) y := same
    rw [absorb_absorb, absorb_absorb] at words
    exact pair_injective
      ((BitVec.xor_right_inj r).1 (shiftByte_injective (shiftByte_injective words)))
  match window, window', same_length with
  | [], [], _ => rfl
  | [x], [x'], _ =>
    -- One byte is the first one of two.
    have behind : absorbAll r [x', 0] = absorbAll r [x, 0] := congrArg (absorb · 0) same
    rw [(two behind).1]
  | [x, y], [x', y'], _ =>
    obtain ⟨rfl, rfl⟩ := two same
    rfl
  | _ :: _ :: _ :: _, _, _ => simp at short

/-- **The checksum tells of a burst**, whatever stands before it and behind it. -/
theorem crc_ne_of_burst {window window' : Bytes} (short : window.length ≤ 2)
    (same_length : window'.length = window.length) (altered : window' ≠ window)
    (before after : Bytes) :
    crc (before ++ window' ++ after) ≠ crc (before ++ window ++ after) := by
  intro same
  have registers : absorbAll seed (before ++ window' ++ after)
      = absorbAll seed (before ++ window ++ after) := congrArg UInt16.toBitVec same
  simp only [absorbAll_append] at registers
  exact altered (eq_of_absorbAll short same_length (absorbAll_injective after registers))

end Wire

/-! ## The parts of a frame -/

namespace Bytes

theorem exists_of_append_eq {a b c d : Bytes} (all : a ++ b = c ++ d)
    (shorter : a.length ≤ c.length) : ∃ between, c = a ++ between ∧ b = between ++ d := by
  have first : a <+: c ++ d := all ▸ List.prefix_append a b
  obtain ⟨between, rfl⟩ := List.prefix_of_prefix_length_le first (List.prefix_append c d) shorter
  rw [List.append_assoc] at all
  exact ⟨between, rfl, List.append_cancel_left all⟩

/-- A window inside the middle one of three stretches of bytes. -/
theorem exists_of_window {before window after x y z : Bytes}
    (all : before ++ window ++ after = x ++ y ++ z) (first : x.length ≤ before.length)
    (last : before.length + window.length ≤ x.length + y.length) :
    ∃ y₁ y₂, before = x ++ y₁ ∧ y = y₁ ++ window ++ y₂ ∧ after = y₂ ++ z := by
  have inside : (before ++ window).length ≤ (x ++ y).length := by
    rw [List.length_append, List.length_append]
    exact last
  obtain ⟨y₂, body, rfl⟩ := exists_of_append_eq all inside
  rw [List.append_assoc before] at body
  obtain ⟨y₁, rfl, rfl⟩ := exists_of_append_eq body first
  exact ⟨y₁, y₂, rfl, (List.append_assoc ..).symm, rfl⟩

end Bytes

namespace Header

/-- The bytes before those that tell where a frame comes from. -/
def lead (h : Header) : Bytes :=
  match h.version with
  | .v1 => [Version.v1.marker, h.payloadLength]
  | .v2 => [Version.v2.marker, h.payloadLength, h.incompatFlags]

/-- The bytes that tell where a frame comes from, and what need not be understood of it. -/
def origin (h : Header) : Bytes :=
  match h.version with
  | .v1 => [h.sequence, h.system, h.component]
  | .v2 => [h.compatFlags, h.sequence, h.system, h.component]

/-- The bytes that tell the message. -/
def idBytes (h : Header) : Bytes :=
  match h.version with
  | .v1 => [UInt8.ofNat h.messageId]
  | .v2 => Bytes.little 3 h.messageId

theorem toBytes_eq (h : Header) : h.toBytes = h.lead ++ h.origin ++ h.idBytes := by
  unfold toBytes lead origin idBytes
  cases h.version <;> rfl

theorem exists_lead (h : Header) : ∃ lead, h.lead = h.version.marker :: lead := by
  unfold lead
  cases h.version with
  | v1 => exact ⟨_, rfl⟩
  | v2 => exact ⟨_, rfl⟩

/-- A header under which bytes are taken apart at the same places, as the same message. -/
structure Alike (h g : Header) : Prop where
  fits : g.Fits
  payloadLength : g.payloadLength = h.payloadLength
  tailSize : g.tailSize = h.tailSize
  messageId : g.messageId = h.messageId

theorem Alike.refl {h : Header} (fits : h.Fits) : h.Alike h := ⟨fits, rfl, rfl, rfl⟩

/-- Whatever bytes tell the origin, they are read alike. -/
theorem exists_alike {h : Header} (fits : h.Fits) {origin : Bytes}
    (same_length : origin.length = h.origin.length) :
    ∃ g, h.Alike g ∧ g.toBytes = h.lead ++ origin ++ h.idBytes := by
  obtain ⟨version, length, incompat, compat, sequence, system, component, id⟩ := h
  cases version with
  | v1 =>
    match origin, same_length with
    | [sequence, system, component], _ =>
      exact ⟨⟨.v1, length, incompat, compat, sequence, system, component, id⟩,
        ⟨⟨fits.id, fits.incompat, fits.first⟩, rfl, rfl, rfl⟩, rfl⟩
  | v2 =>
    match origin, same_length with
    | [compat, sequence, system, component], _ =>
      exact ⟨⟨.v2, length, incompat, compat, sequence, system, component, id⟩,
        ⟨⟨fits.id, fits.incompat, nofun⟩, rfl, rfl, rfl⟩, rfl⟩

end Header

namespace Frame

/-- The parts of a frame whose bytes do not tell how the frame is to be read. -/
inductive Part where
  /-- Where the frame comes from; in the second version also what need not be understood. -/
  | origin
  | payload
  | checksum
  deriving DecidableEq

namespace Part

/-- The place at which a part begins. -/
def start (h : Header) : Part → Nat
  | origin => match h.version with
    | .v1 => 2
    | .v2 => 3
  | payload => h.size
  | checksum => h.payloadEnd

/-- The place behind a part. -/
def stop (h : Header) : Part → Nat
  | origin => match h.version with
    | .v1 => 5
    | .v2 => 7
  | payload => h.payloadEnd
  | checksum => h.payloadEnd + Header.checksumSize

/-- Whether a window of bytes stands wholly in a part. -/
def Holds (part : Part) (h : Header) (place length : Nat) : Prop :=
  part.start h ≤ place ∧ place + length ≤ part.stop h

instance (part : Part) (h : Header) (place length : Nat) :
    Decidable (part.Holds h place length) :=
  inferInstanceAs (Decidable (_ ∧ _))

theorem start_origin (h : Header) : origin.start h = h.lead.length := by
  unfold start Header.lead
  cases h.version <;> rfl

theorem stop_origin (h : Header) : origin.stop h = h.lead.length + h.origin.length := by
  unfold stop Header.lead Header.origin
  cases h.version <;> rfl

end Part

/-- Bytes that are taken apart like a frame, but whose checksum is not theirs. -/
theorem decode_of_mismatch {lookup : Lookup} {f : Frame} {fingerprint : UInt8}
    (known : lookup.fingerprint f.messageId = some fingerprint)
    (limited : ∀ limit, lookup.maxLength f.messageId = some limit → f.payload.size ≤ limit)
    (consistent : f.Consistent) {g : Header} (alike : f.header.Alike g) {payload tail : Bytes}
    (payload_length : payload.length = f.payload.size)
    (tail_length : tail.length = f.header.tailSize) {received : UInt16}
    (sent : UInt16.ofNat (Bytes.ofLittle (tail.take 2)) = received)
    (mismatch : checksumOf g payload fingerprint ≠ received) (rest : Bytes) :
    decode (g.toBytes ++ payload ++ tail ++ rest) lookup
      = .error (.crcMismatch f.messageId (checksumOf g payload fingerprint) received) := by
  have length : f.payload.size = g.payloadLength.toNat :=
    consistent.length.trans (congrArg UInt8.toNat alike.payloadLength.symm)
  have id : g.messageId = f.messageId := alike.messageId
  have within : (lookup.maxLength g.messageId).filter (· < g.payloadLength.toNat) = none := by
    rw [filter_lt_eq_none_iff, ← length, id]
    exact limited
  rw [decode_parts alike.fits (payload_length.trans length) (tail_length.trans alike.tailSize.symm)]
  simp only [judge, id] at within ⊢
  rw [known, within]
  simp only [sent, if_pos mismatch]

theorem checksumOf_of_matches {f : Frame} {fingerprint : UInt8}
    (h : f.checksumMatches fingerprint) :
    checksumOf f.header f.payload.bytes fingerprint = f.checksum := by
  simpa [checksumMatches] using h

theorem Consistent.payloadEnd_eq {f : Frame} (h : f.Consistent) :
    f.header.payloadEnd = (f.header.toBytes ++ f.payload.bytes).length := by
  rw [Header.payloadEnd, ← h.length, List.length_append, Header.length_toBytes]
  rfl

/-! ## A burst in a frame -/

section Burst

variable {window window' : Bytes} (short : window.length ≤ 2)
  (same_length : window'.length = window.length) (altered : window' ≠ window)

include short same_length altered

/-- The checksum tells of a burst in the payload. -/
theorem checksumOf_ne_of_payload (h : Header) (p₁ p₂ : Bytes) (fingerprint : UInt8) :
    checksumOf h (p₁ ++ window' ++ p₂) fingerprint
      ≠ checksumOf h (p₁ ++ window ++ p₂) fingerprint := by
  have spread : ∀ w, checksumOf h (p₁ ++ w ++ p₂) fingerprint
      = Wire.crc ((h.toBytes.drop 1 ++ p₁) ++ w ++ (p₂ ++ [fingerprint])) := by
    intro w
    simp only [checksumOf, Wire.checksum, List.append_assoc]
  rw [spread, spread]
  exact Wire.crc_ne_of_burst short same_length altered _ _

/-- The checksum tells of a burst in the bytes that tell the origin. -/
theorem checksumOf_ne_of_origin {g h : Header} {o₁ o₂ : Bytes}
    (altered_bytes : g.toBytes = h.lead ++ (o₁ ++ window' ++ o₂) ++ h.idBytes)
    (bytes : h.toBytes = h.lead ++ (o₁ ++ window ++ o₂) ++ h.idBytes)
    (payload : Bytes) (fingerprint : UInt8) :
    checksumOf g payload fingerprint ≠ checksumOf h payload fingerprint := by
  obtain ⟨lead, marked⟩ := h.exists_lead
  rw [marked] at altered_bytes bytes
  have spread : ∀ w, (h.version.marker :: lead ++ (o₁ ++ w ++ o₂) ++ h.idBytes).drop 1
      ++ payload ++ [fingerprint]
      = (lead ++ o₁) ++ w ++ (o₂ ++ h.idBytes ++ payload ++ [fingerprint]) := by
    intro w
    simp
  simp only [checksumOf, Wire.checksum]
  rw [altered_bytes, bytes, spread, spread]
  exact Wire.crc_ne_of_burst short same_length altered _ _

variable {lookup : Lookup} {f : Frame} (consistent : f.Consistent) (admits : lookup.Admits f)
  {before after rest : Bytes} (all : before ++ window ++ after = f.toBytes ++ rest)

include consistent admits all

theorem decode_of_origin_burst
    (inside : Part.origin.Holds f.header before.length window.length) :
    ∃ expected, expected ≠ f.checksum ∧ decode (before ++ window' ++ after) lookup
      = .error (.crcMismatch f.messageId expected f.checksum) := by
  obtain ⟨⟨fingerprint, known, right⟩, limited⟩ := admits
  have parts : before ++ window ++ after = f.header.lead ++ f.header.origin
      ++ (f.header.idBytes ++ f.payload.bytes ++ f.tail ++ rest) := by
    rw [all, toBytes_eq, f.header.toBytes_eq]
    simp only [List.append_assoc]
  obtain ⟨first, last⟩ := inside
  rw [Part.start_origin] at first
  rw [Part.stop_origin] at last
  obtain ⟨o₁, o₂, rfl, origin, rfl⟩ := Bytes.exists_of_window parts first last
  have kept : (o₁ ++ window' ++ o₂).length = f.header.origin.length := by
    simp [origin, same_length]
  obtain ⟨g, alike, bytes⟩ := Header.exists_alike consistent.header kept
  have mismatch := checksumOf_ne_of_origin short same_length altered bytes
    (origin ▸ f.header.toBytes_eq) f.payload.bytes fingerprint
  rw [checksumOf_of_matches right] at mismatch
  refine ⟨_, mismatch, ?_⟩
  rw [← decode_of_mismatch known limited consistent alike rfl consistent.length_tail
    f.received_tail mismatch rest, bytes]
  simp only [List.append_assoc]

theorem decode_of_payload_burst
    (inside : Part.payload.Holds f.header before.length window.length) :
    ∃ expected, expected ≠ f.checksum ∧ decode (before ++ window' ++ after) lookup
      = .error (.crcMismatch f.messageId expected f.checksum) := by
  obtain ⟨⟨fingerprint, known, right⟩, limited⟩ := admits
  have parts : before ++ window ++ after
      = f.header.toBytes ++ f.payload.bytes ++ (f.tail ++ rest) := by
    rw [all, toBytes_eq, List.append_assoc _ f.tail]
  obtain ⟨first, last⟩ := inside
  rw [Part.start, ← Header.length_toBytes] at first
  rw [Part.stop, consistent.payloadEnd_eq, List.length_append] at last
  obtain ⟨p₁, p₂, rfl, payload, rfl⟩ := Bytes.exists_of_window parts first last
  have mismatch := checksumOf_ne_of_payload short same_length altered f.header p₁ p₂ fingerprint
  rw [← payload, checksumOf_of_matches right] at mismatch
  refine ⟨_, mismatch, ?_⟩
  rw [← decode_of_mismatch known limited consistent (.refl consistent.header)
    (by simp [Payload.size, payload, same_length]) consistent.length_tail f.received_tail
    mismatch rest]
  simp only [List.append_assoc]

omit short in
theorem decode_of_checksum_burst
    (inside : Part.checksum.Holds f.header before.length window.length) :
    ∃ actual, f.checksum ≠ actual ∧ decode (before ++ window' ++ after) lookup
      = .error (.crcMismatch f.messageId f.checksum actual) := by
  obtain ⟨⟨fingerprint, known, right⟩, limited⟩ := admits
  let signature := (f.signature.map Signature.toBytes).getD []
  have parts : before ++ window ++ after = f.header.toBytes ++ f.payload.bytes
      ++ Bytes.little 2 f.checksum.toNat ++ (signature ++ rest) := by
    rw [all, toBytes_eq, tail]
    simp only [List.append_assoc, signature]
  obtain ⟨first, last⟩ := inside
  rw [Part.start, consistent.payloadEnd_eq] at first
  rw [Part.stop, consistent.payloadEnd_eq] at last
  obtain ⟨c₁, c₂, rfl, sum, rfl⟩ := Bytes.exists_of_window parts first
    (by rw [Bytes.length_little]; exact last)
  have two : (c₁ ++ window' ++ c₂).length = 2 := by
    rw [← Bytes.length_little 2 f.checksum.toNat, sum]
    simp [same_length]
  have sent : (c₁ ++ window' ++ c₂ ++ signature).take 2 = c₁ ++ window' ++ c₂ := List.take_left' two
  have mismatch : f.checksum ≠ UInt16.ofNat (Bytes.ofLittle (c₁ ++ window' ++ c₂)) := by
    intro same
    have bytes := Bytes.little_toNat_ofNat two
    rw [← same, sum] at bytes
    exact altered (List.append_cancel_left (List.append_cancel_right bytes)).symm
  have tail_length : (c₁ ++ window' ++ c₂ ++ signature).length = f.header.tailSize := by
    have split : f.tail.length = 2 + signature.length := by
      rw [tail, List.length_append, Bytes.length_little]
    rw [← consistent.length_tail, split, ← two, ← List.length_append]
  have refused := decode_of_mismatch known limited consistent (.refl consistent.header) rfl
    tail_length (by rw [sent]) (checksumOf_of_matches right ▸ mismatch) rest
  rw [checksumOf_of_matches right] at refused
  refine ⟨_, mismatch, ?_⟩
  rw [← refused]
  simp only [List.append_assoc]

end Burst

/-- **Bursts of errors are detected.**  A frame is read from bytes, and of these at most two
neighbours are altered that stand wholly in its payload, wholly in what tells its origin, or
wholly in its checksum.  Then the checksum of what is there now and the checksum that is there
now differ, and the frame is refused for that, as the same message.  One of the two is the
checksum that the frame had before. -/
theorem decode_of_burst {lookup : Lookup} {f : Frame} {before window window' after : Bytes}
    (read : decode (before ++ window ++ after) lookup = .ok f) (part : Part)
    (inside : part.Holds f.header before.length window.length) (short : window.length ≤ 2)
    (same_length : window'.length = window.length) (altered : window' ≠ window) :
    ∃ expected actual, expected ≠ actual ∧
      (if part = .checksum then expected else actual) = f.checksum ∧
      decode (before ++ window' ++ after) lookup
        = .error (.crcMismatch f.messageId expected actual) := by
  obtain ⟨⟨rest, all⟩, consistent, admits⟩ := decode_eq_ok_iff.1 read
  cases part with
  | origin =>
    obtain ⟨expected, mismatch, refused⟩ :=
      decode_of_origin_burst short same_length altered consistent admits all.symm inside
    exact ⟨expected, f.checksum, mismatch, rfl, refused⟩
  | payload =>
    obtain ⟨expected, mismatch, refused⟩ :=
      decode_of_payload_burst short same_length altered consistent admits all.symm inside
    exact ⟨expected, f.checksum, mismatch, rfl, refused⟩
  | checksum =>
    obtain ⟨actual, mismatch, refused⟩ :=
      decode_of_checksum_burst same_length altered consistent admits all.symm inside
    exact ⟨f.checksum, actual, mismatch, rfl, refused⟩

/-- The system and the component are altered of a heartbeat that is signed, with another byte
behind it. -/
theorem decode_of_altered_sender :
    let lookup : Lookup := ⟨fun id => if id = 0 then some 50 else none, fun _ => some 9⟩
    let before : Bytes := [0xFD, 9, 1, 0, 1]
    let after : Bytes := [0, 0, 0, 0, 0, 0, 0, 6, 8, 0, 4, 3, 0xFD, 0xF6, 7, 1, 2, 3, 4, 5, 6, 11,
      12, 13, 14, 15, 16, 0xFD]
    let f : Frame := ⟨⟨.v2, 9, 1, 0, 1, 1, 1, 0⟩, ⟨0, .v2, [0, 0, 0, 0, 6, 8, 0, 4, 3]⟩, 0xF6FD,
      some (.ofBytes [7, 1, 2, 3, 4, 5, 6, 11, 12, 13, 14, 15, 16])⟩
    decode (before ++ [1, 1] ++ after) lookup = .ok f ∧ Part.origin.Holds f.header 5 2 ∧
      ∃ expected actual, expected ≠ actual ∧ actual = 0xF6FD ∧
        decode (before ++ [0xFF, 0xBE] ++ after) lookup
          = .error (.crcMismatch 0 expected actual) := by
  intro lookup before after f
  have read : decode (before ++ [1, 1] ++ after) lookup = .ok f := by decide +kernel
  have inside : Part.origin.Holds f.header before.length [(1 : UInt8), 1].length := by decide
  have same_length : [(0xFF : UInt8), 0xBE].length = [(1 : UInt8), 1].length := rfl
  exact ⟨read, inside, decode_of_burst read .origin inside (by decide) same_length (by decide)⟩

end Frame

end Mavlink
