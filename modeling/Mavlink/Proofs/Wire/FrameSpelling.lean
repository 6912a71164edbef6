import Mavlink.Proofs.Wire.HeaderSpelling
import Mavlink.Proofs.Wire.WordSpelling
import Mavlink.Wire.Frame

/-!
# The spelling of frames

The bytes of a frame are its header, its payload, and a tail: the checksum and, if the
header says so, the signature.  Decoding takes bytes apart at the places that the
header tells and then judges the parts; it never looks at what follows.

* `Frame.decode_parts`, `Frame.exists_parts` --- decoding in terms of the parts;
* `Frame.decode_append` --- what follows a whole frame does not matter;
* `Frame.decode_eq_ok_iff` --- the frames that are read are exactly those whose spelling
  begins the bytes, provided that the header of the frame agrees with its other parts
  and the lookup admits it;
* `Frame.of_build`, `Frame.build_eq_error_iff` --- what is built, and when.
-/

namespace Mavlink

namespace Header

/-- The bytes behind the payload. -/
def tailSize (h : Header) : Nat := checksumSize + if h.isSigned then signatureSize else 0

theorem frameSize_eq (h : Header) : h.frameSize = h.payloadEnd + h.tailSize :=
  Nat.add_assoc ..

end Header

namespace Frame

/-- What is made of a frame whose parts are known: its header, its payload, and the
bytes behind the payload. -/
def judge (lookup : Lookup) (h : Header) (payload tail : Bytes) : Except DecodeError Frame :=
  match lookup.fingerprint h.messageId with
  | none => .error (.unknownMessage h.messageId (h.toBytes ++ payload ++ tail))
  | some fingerprint =>
    match (lookup.maxLength h.messageId).filter (· < h.payloadLength.toNat) with
    | some limit => .error (.invalidPayloadLength h.messageId h.payloadLength.toNat limit)
    | none =>
      let received := UInt16.ofNat (Bytes.ofLittle (tail.take 2))
      if checksumOf h payload fingerprint ≠ received then
        .error (.crcMismatch h.messageId (checksumOf h payload fingerprint) received)
      else .ok ⟨h, ⟨h.messageId, h.version, payload⟩, received,
        if h.isSigned then some (.ofBytes (tail.drop 2)) else none⟩

/-- Decoding takes a frame apart and judges its parts. -/
theorem decode_parts {lookup : Lookup} {h : Header} (fits : h.Fits) {payload tail : Bytes}
    (hp : payload.length = h.payloadLength.toNat) (ht : tail.length = h.tailSize) (r : Bytes) :
    decode (h.toBytes ++ payload ++ tail ++ r) lookup = judge lookup h payload tail := by
  have hh : Header.decode (h.toBytes ++ payload ++ tail ++ r) = .ok h := by
    rw [List.append_assoc, List.append_assoc]
    exact Header.decode_toBytes_append fits _
  have hframe : (h.toBytes ++ payload ++ tail).length = h.frameSize := by
    rw [List.length_append, List.length_append, h.length_toBytes, hp, ht, h.frameSize_eq]
    rfl
  have hbody : (h.toBytes ++ payload).length = h.payloadEnd := by
    rw [List.length_append, h.length_toBytes, hp]
    rfl
  have hlong : ¬ (h.toBytes ++ payload ++ tail ++ r).length < h.frameSize := by
    rw [List.length_append, hframe]
    omega
  have htwo : 2 ≤ tail.length := by
    rw [ht, Header.tailSize]
    exact Nat.le_add_right ..
  have e1 : (h.toBytes ++ payload ++ tail ++ r).take h.frameSize = h.toBytes ++ payload ++ tail :=
    List.take_left' hframe
  have e2 : ((h.toBytes ++ payload ++ tail ++ r).drop h.size).take h.payloadLength.toNat
      = payload := by
    rw [List.append_assoc, List.append_assoc, List.drop_left' h.length_toBytes, List.take_left' hp]
  have e3 : (h.toBytes ++ payload ++ tail ++ r).drop h.payloadEnd = tail ++ r := by
    rw [List.append_assoc, List.drop_left' hbody]
  have e4 : (h.toBytes ++ payload ++ tail ++ r).take h.size = h.toBytes := by
    rw [List.append_assoc, List.append_assoc, List.take_left' h.length_toBytes]
  have e5 : (tail ++ r).take 2 = tail.take 2 := List.take_append_of_le_length htwo
  have e6 : h.isSigned = true →
      ((tail ++ r).drop Header.checksumSize).take Header.signatureSize = tail.drop 2 := by
    intro hs
    rw [Header.tailSize, if_pos hs] at ht
    rw [Header.checksumSize, List.drop_append_of_le_length htwo, List.take_left']
    rw [List.length_drop, ht]
    rfl
  have e7 : (if h.isSigned then some (Signature.ofBytes
        (((tail ++ r).drop Header.checksumSize).take Header.signatureSize)) else none)
      = if h.isSigned then some (Signature.ofBytes (tail.drop 2)) else none := by
    split
    · rw [e6 ‹_›]
    · rfl
  rw [decode, hh]
  simp only [bind, Except.bind, if_neg hlong, e1, e2, e3, e4, e5, e7, judge, checksumOf]
  rfl

/-- Bytes that are as long as their header says are the parts of a frame and what follows. -/
theorem exists_parts {b : Bytes} {h : Header} (hb : Header.decode b = .ok h)
    (hlen : h.frameSize ≤ b.length) :
    ∃ payload tail r, b = h.toBytes ++ payload ++ tail ++ r ∧
      payload.length = h.payloadLength.toNat ∧ tail.length = h.tailSize := by
  obtain ⟨_, rest, rfl⟩ := Header.of_decode hb
  rw [List.length_append, h.length_toBytes, h.frameSize_eq, Header.payloadEnd] at hlen
  refine ⟨rest.take h.payloadLength.toNat, (rest.drop h.payloadLength.toNat).take h.tailSize,
    (rest.drop h.payloadLength.toNat).drop h.tailSize, ?_, ?_, ?_⟩
  · simp only [List.append_assoc, List.take_append_drop]
  · rw [List.length_take]
    omega
  · rw [List.length_take, List.length_drop]
    omega

/-- What follows a whole frame does not matter. -/
theorem decode_append {lookup : Lookup} {b : Bytes} {h : Header} (hb : Header.decode b = .ok h)
    (hlen : h.frameSize ≤ b.length) (r : Bytes) : decode (b ++ r) lookup = decode b lookup := by
  have fits : h.Fits := (Header.of_decode hb).1
  obtain ⟨payload, tail, s, rfl, hp, ht⟩ := exists_parts hb hlen
  rw [List.append_assoc _ s r, decode_parts fits hp ht, decode_parts fits hp ht]

/-- A frame whose header says what its other parts are. -/
structure Consistent (f : Frame) : Prop where
  header : f.header.Fits
  version : f.payload.version = f.header.version
  id : f.payload.id = f.header.messageId
  length : f.payload.size = f.header.payloadLength.toNat
  signature : f.signature.isSome = f.header.isSigned

/-- The bytes of a frame behind its payload. -/
def tail (f : Frame) : Bytes :=
  Bytes.little 2 f.checksum.toNat ++ (f.signature.map Signature.toBytes).getD []

theorem toBytes_eq (f : Frame) : f.toBytes = f.header.toBytes ++ f.payload.bytes ++ f.tail := by
  simp [toBytes, signedBytes, tail]

theorem Consistent.length_tail {f : Frame} (hf : f.Consistent) :
    f.tail.length = f.header.tailSize := by
  have h := hf.signature
  cases hs : f.signature with
  | none =>
    rw [hs] at h
    simp [tail, hs, Header.tailSize, ← h, Header.checksumSize]
  | some s =>
    rw [hs] at h
    simp [tail, hs, Header.tailSize, ← h, Header.checksumSize, Header.signatureSize]

theorem Consistent.length_toBytes {f : Frame} (hf : f.Consistent) : f.toBytes.length = f.size := by
  have h : f.payload.bytes.length = f.header.payloadLength.toNat := hf.length
  rw [toBytes_eq, List.length_append, List.length_append, hf.length_tail, h,
    Header.length_toBytes, size, Header.frameSize_eq, Header.payloadEnd]

end Frame

/-- A lookup with which a frame can be read: it knows the message, its limit allows the
payload, and its fingerprint gives the checksum. -/
structure Lookup.Admits (l : Lookup) (f : Frame) : Prop where
  known : ∃ fingerprint, l.fingerprint f.messageId = some fingerprint ∧
    f.checksumMatches fingerprint
  fits : ∀ limit, l.maxLength f.messageId = some limit → f.payload.size ≤ limit

namespace Frame

theorem filter_lt_eq_none_iff {o : Option Nat} {n : Nat} :
    o.filter (· < n) = none ↔ ∀ limit, o = some limit → n ≤ limit := by
  cases o <;> simp

/-- The checksum is read from behind the payload. -/
theorem received_tail (f : Frame) :
    UInt16.ofNat (Bytes.ofLittle (f.tail.take 2)) = f.checksum := by
  have two : f.tail.take 2 = Bytes.little 2 f.checksum.toNat := List.take_left' (by simp)
  rw [two, Bytes.ofNat_ofLittle_little]

/-- The parts of a consistent frame are judged to be the frame, if the lookup admits it. -/
theorem judge_of_admits {lookup : Lookup} {f : Frame} (hf : f.Consistent)
    (admits : lookup.Admits f) : judge lookup f.header f.payload.bytes f.tail = .ok f := by
  obtain ⟨fingerprint, hknown, hsum⟩ := admits.known
  have hfits : (lookup.maxLength f.header.messageId).filter (· < f.header.payloadLength.toNat)
      = none := by
    rw [filter_lt_eq_none_iff, ← hf.length]
    exact admits.fits
  have hsum : checksumOf f.header f.payload.bytes fingerprint = f.checksum := by
    simpa [checksumMatches] using hsum
  have hdrop : f.tail.drop 2 = (f.signature.map Signature.toBytes).getD [] :=
    List.drop_left' (by simp)
  have hsig : (if f.header.isSigned then some (Signature.ofBytes (f.tail.drop 2)) else none)
      = f.signature := by
    rw [← hf.signature, hdrop]
    cases f.signature with
    | none => rfl
    | some s => simp [Signature.ofBytes_toBytes]
  have hpayload : (⟨f.header.messageId, f.header.version, f.payload.bytes⟩ : Payload)
      = f.payload := by
    rw [← hf.id, ← hf.version]
  rw [messageId] at hknown
  simp only [judge, hknown, hfits, received_tail, hsum, hsig, hpayload]
  simp

/-- If the parts of a consistent frame are judged to be any frame, the lookup admits it. -/
theorem admits_of_judge {lookup : Lookup} {f g : Frame} (hf : f.Consistent)
    (hj : judge lookup f.header f.payload.bytes f.tail = .ok g) : lookup.Admits f := by
  unfold judge at hj
  split at hj
  · cases hj
  · next fingerprint hknown =>
    split at hj
    · cases hj
    · next hlimit =>
      simp only [received_tail] at hj
      split at hj
      · cases hj
      · next hsum =>
        rw [filter_lt_eq_none_iff, ← hf.length] at hlimit
        exact ⟨⟨fingerprint, hknown, by simpa [checksumMatches] using hsum⟩, hlimit⟩

/-- A frame that parts are judged to be is consistent, admitted, and made of those parts. -/
theorem of_judge {lookup : Lookup} {h : Header} (fits : h.Fits) {payload tail : Bytes}
    (hp : payload.length = h.payloadLength.toNat) (ht : tail.length = h.tailSize) {f : Frame}
    (hj : judge lookup h payload tail = .ok f) :
    f.toBytes = h.toBytes ++ payload ++ tail ∧ f.Consistent ∧ lookup.Admits f := by
  unfold judge at hj
  split at hj
  · cases hj
  · next fingerprint hknown =>
    split at hj
    · cases hj
    · next hlimit =>
      simp only at hj
      split at hj
      · cases hj
      · next hsum =>
        cases hj
        have htwo : (tail.take 2).length = 2 := by
          rw [List.length_take, ht, Header.tailSize, Header.checksumSize]
          omega
        have hrest : ((if h.isSigned then some (Signature.ofBytes (tail.drop 2)) else none).map
            Signature.toBytes).getD [] = tail.drop 2 := by
          rw [Header.tailSize, Header.checksumSize, Header.signatureSize] at ht
          split at ht
          · next hs =>
            have hlen : (tail.drop 2).length = 13 := by
              rw [List.length_drop]
              omega
            simp [hs, Signature.toBytes_ofBytes hlen]
          · next hs =>
            have hlen : (tail.drop 2).length = 0 := by
              rw [List.length_drop]
              omega
            rw [if_neg hs, List.length_eq_zero_iff.1 hlen]
            rfl
        refine ⟨?_, ⟨fits, rfl, rfl, hp, ?_⟩, ⟨fingerprint, hknown, ?_⟩, ?_⟩
        · rw [toBytes_eq, Frame.tail]
          simp only [Bytes.little_toNat_ofNat htwo, hrest, List.take_append_drop]
        · cases h.isSigned <;> rfl
        · simpa [checksumMatches] using hsum
        · rw [filter_lt_eq_none_iff] at hlimit
          rw [← hp] at hlimit
          exact hlimit

/-- Decoding a frame and spelling one are inverse to each other. -/
theorem decode_eq_ok_iff {lookup : Lookup} {b : Bytes} {f : Frame} :
    decode b lookup = .ok f ↔ f.toBytes <+: b ∧ f.Consistent ∧ lookup.Admits f := by
  constructor
  · intro hb
    cases hh : Header.decode b with
    | error e =>
      rw [decode, hh] at hb
      cases hb
    | ok h =>
      have hlen : h.frameSize ≤ b.length := by
        rw [decode, hh] at hb
        simp only [bind, Except.bind] at hb
        split at hb
        · cases hb
        · omega
      obtain ⟨payload, tail, r, rfl, hp, ht⟩ := exists_parts hh hlen
      have fits : h.Fits := (Header.of_decode hh).1
      rw [decode_parts fits hp ht] at hb
      obtain ⟨hbytes, hf, admits⟩ := of_judge fits hp ht hb
      exact ⟨⟨r, by rw [hbytes]⟩, hf, admits⟩
  · rintro ⟨⟨r, rfl⟩, hf, admits⟩
    rw [toBytes_eq, decode_parts hf.header hf.length hf.length_tail]
    exact judge_of_admits hf admits

/-- From the bytes of a frame nothing but the frame itself is read. -/
theorem eq_of_decode_toBytes {lookup : Lookup} {f g : Frame} (hf : f.Consistent) {r : Bytes}
    (hg : decode (f.toBytes ++ r) lookup = .ok g) : g = f := by
  rw [toBytes_eq, decode_parts hf.header hf.length hf.length_tail] at hg
  rw [judge_of_admits hf (admits_of_judge hf hg)] at hg
  exact (Except.ok.inj hg).symm

/-- A frame that is read has its header before it, and all of its bytes are there. -/
theorem header_of_decode {lookup : Lookup} {b : Bytes} {f : Frame}
    (hb : decode b lookup = .ok f) : Header.decode b = .ok f.header ∧ f.size ≤ b.length := by
  obtain ⟨⟨r, rfl⟩, hf, _⟩ := decode_eq_ok_iff.1 hb
  constructor
  · rw [toBytes_eq, List.append_assoc, List.append_assoc]
    exact Header.decode_toBytes_append hf.header _
  · rw [List.length_append, hf.length_toBytes]
    exact Nat.le_add_right ..

/-! ## Building -/

theorem shouldSign_v1 (s : Signer) (id : MessageId) : s.shouldSign .v1 id = false := rfl

/-- A frame is built exactly of what fits its header. -/
theorem build_eq_error_iff {routing : Routing} {payload : Payload} {fingerprint : UInt8}
    {signer : Option Signer} {timestamp : Timestamp} {e : EncodeError} :
    build routing payload fingerprint signer timestamp = .error e ↔
      (payload.version.maxMessageId < payload.id ∧ e = .messageIdTooLarge payload.id) ∨
      (payload.id ≤ payload.version.maxMessageId ∧ Payload.maxSize < payload.size ∧
        e = .payloadTooLarge payload.size Payload.maxSize) := by
  unfold build
  split
  · next hid =>
    simp only [Except.error.injEq, hid, true_and, Nat.not_le.2 hid, false_and, or_false]
    exact eq_comm
  · next hid =>
    have hid := Nat.le_of_not_lt hid
    split
    · next hsize =>
      simp only [Except.error.injEq, hid, hsize, true_and, Nat.not_lt.2 hid, false_and, false_or]
      exact eq_comm
    · next hsize => simp [hid, hsize, Nat.not_lt.2 hid]

/-- The frame that is built carries the payload as it is, under a header that fits. -/
theorem of_build {routing : Routing} {payload : Payload} {fingerprint : UInt8}
    {signer : Option Signer} {timestamp : Timestamp} {f : Frame}
    (hf : build routing payload fingerprint signer timestamp = .ok f) :
    f.Consistent ∧ f.payload = payload ∧ f.checksumMatches fingerprint := by
  unfold build at hf
  split at hf
  · cases hf
  · next hid =>
    split at hf
    · cases hf
    · next hsize =>
      have hsigned : payload.version = .v1 →
          signer.filter (·.shouldSign payload.version payload.id) = none := by
        intro hv
        rw [hv, Option.filter_eq_none_iff]
        intro s _
        rw [shouldSign_v1]
        exact Bool.false_ne_true
      generalize signer.filter (·.shouldSign payload.version payload.id) = chosen at hf hsigned
      have hlt : payload.size < 256 := Nat.lt_succ_of_le (Nat.le_of_not_lt hsize)
      cases hf
      refine ⟨⟨⟨Nat.le_of_not_lt hid, ?_, ?_⟩, rfl, rfl, ?_, ?_⟩, rfl, ?_⟩
      · simp only
        split <;> decide
      · intro hv
        simp only at hv
        simp [hsigned hv, hv]
      · exact (UInt8.toNat_ofNat_of_lt' hlt).symm
      · cases hv : payload.version with
        | v1 => simp [hsigned hv, Header.isSigned]
        | v2 => cases chosen <;> simp [Header.isSigned, Header.signedFlag]
      · simp [checksumMatches]

/-- The frame that is built is numbered and routed as it should be, and signed if there is
a signer that signs it. -/
theorem routing_of_build {routing : Routing} {payload : Payload} {fingerprint : UInt8}
    {signer : Option Signer} {timestamp : Timestamp} {f : Frame}
    (hf : build routing payload fingerprint signer timestamp = .ok f) :
    f.header.sequence = routing.sequence ∧ f.sender = routing.sender ∧
      f.signature = (signer.filter (·.shouldSign payload.version payload.id)).map
        (·.sign f.signedBytes timestamp) := by
  unfold build at hf
  split at hf
  · cases hf
  · split at hf
    · cases hf
    · cases hf
      exact ⟨rfl, rfl, rfl⟩

/-- **Reading and spelling frames are inverse to each other.**  A frame is read exactly
from the bytes that begin with its spelling, if its header agrees with its parts and the
lookup admits it.  A payload is refused exactly if its number or its length does not fit
a header; otherwise the frame built of it tells both unchanged, and is read back whatever
follows it. -/
theorem decode_inverse_toBytes :
    (∀ (lookup : Lookup) (b : Bytes) (f : Frame),
      decode b lookup = .ok f ↔ f.toBytes <+: b ∧ f.Consistent ∧ lookup.Admits f) ∧
    ∀ (routing : Routing) (payload : Payload) (fingerprint : UInt8) (signer : Option Signer)
      (timestamp : Timestamp),
      (∀ e, build routing payload fingerprint signer timestamp = .error e ↔
        (payload.version.maxMessageId < payload.id ∧ e = .messageIdTooLarge payload.id) ∨
        (payload.id ≤ payload.version.maxMessageId ∧ 255 < payload.size ∧
          e = .payloadTooLarge payload.size 255)) ∧
      ∀ f, build routing payload fingerprint signer timestamp = .ok f →
        f.payload = payload ∧ f.header.messageId = payload.id ∧
        f.header.payloadLength.toNat = payload.size ∧
        ∀ (lookup : Lookup) (r : Bytes), lookup.fingerprint payload.id = some fingerprint →
          (∀ limit, lookup.maxLength payload.id = some limit → payload.size ≤ limit) →
          decode (f.toBytes ++ r) lookup = .ok f := by
  refine ⟨fun _ _ _ => decode_eq_ok_iff, ?_⟩
  intro routing payload fingerprint signer timestamp
  refine ⟨fun _ => build_eq_error_iff, ?_⟩
  intro f hf
  obtain ⟨consistent, rfl, hsum⟩ := of_build hf
  refine ⟨rfl, consistent.id.symm, consistent.length.symm, ?_⟩
  intro lookup r hknown hlimit
  rw [consistent.id] at hknown hlimit
  rw [decode_eq_ok_iff]
  exact ⟨List.prefix_append _ _, consistent, ⟨fingerprint, hknown, hsum⟩, hlimit⟩

/-- The heartbeat of an autopilot, built, spelled, and read back in front of another byte. -/
theorem heartbeat_read_back :
    ∃ f, build ⟨1, ⟨1, 1⟩, 0⟩ ⟨0, .v2, [0, 0, 0, 0, 6, 8, 0, 4, 3]⟩ 50 none 0 = .ok f ∧
      f.toBytes = [0xFD, 9, 0, 0, 1, 1, 1, 0, 0, 0, 0, 0, 0, 0, 6, 8, 0, 4, 3, 0x1A, 0x0E] ∧
      decode (f.toBytes ++ [0xFD]) ⟨fun _ => some 50, fun _ => some 9⟩ = .ok f := by
  have built := decode_inverse_toBytes.2 ⟨1, ⟨1, 1⟩, 0⟩ ⟨0, .v2, [0, 0, 0, 0, 6, 8, 0, 4, 3]⟩ 50
    none 0
  refine ⟨_, rfl, by decide +kernel, (built.2 _ rfl).2.2.2 _ _ rfl ?_⟩
  intro limit h
  cases h
  decide

end Frame
end Mavlink
