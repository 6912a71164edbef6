import Mavlink.Wire.Header

/-!
# The spelling of headers

A header is spelled by six or ten bytes.  Not every header record has a spelling
that tells it in full: the number of the message must fit, the first version has
no room for flags, and of the incompatibility flags only the signed one is read.
`Header.Fits` says just that, and reading accepts exactly the bytes that begin with
the spelling of such a header.

* `Header.decode_eq_ok_iff` --- what reading a header answers;
* `Header.decode_append` --- the bytes behind a header do not matter.
-/

namespace Mavlink.Header

/-- A header that its bytes tell in full. -/
structure Fits (h : Header) : Prop where
  id : h.messageId ≤ h.version.maxMessageId
  incompat : h.incompatFlags &&& ~~~ signedFlag = 0
  first : h.version = .v1 → h.incompatFlags = 0 ∧ h.compatFlags = 0

theorem ofLittle_le_maxMessageId (low middle high : UInt8) :
    Bytes.ofLittle [low, middle, high] ≤ Version.v2.maxMessageId := by
  have h : Bytes.ofLittle [low, middle, high] < Nat.pow 256 3 := Bytes.ofLittle_lt _
  have e : Nat.pow 256 3 = Version.v2.maxMessageId + 1 := by decide
  omega

/-- A header that fits is read back, whatever follows it. -/
theorem decode_toBytes_append {h : Header} (fits : h.Fits) (r : Bytes) :
    decode (h.toBytes ++ r) = .ok h := by
  obtain ⟨version, length, incompat, compat, sequence, system, component, id⟩ := h
  obtain ⟨hid, hincompat, hfirst⟩ := fits
  cases version with
  | v1 =>
    obtain ⟨hi, hc⟩ := hfirst rfl
    have hid : id % 256 = id := Nat.mod_eq_of_lt (Nat.lt_succ_of_le hid)
    simp only at hi hc
    simp [toBytes, decode, hi, hc, hid]
  | v2 =>
    have bound : Version.v2.maxMessageId < Nat.pow 256 3 := by decide
    have hid : Bytes.ofLittle (Bytes.little 3 id) = id :=
      Bytes.ofLittle_little_of_lt (Nat.lt_of_le_of_lt hid bound)
    simp only [Bytes.little] at hid
    simp only at hincompat
    simp [toBytes, decode, Bytes.little, hincompat, hid]

/-- What is read is spelled by the bytes it was read from. -/
theorem of_decode {b : Bytes} {h : Header} (hb : decode b = .ok h) :
    h.Fits ∧ h.toBytes <+: b := by
  unfold decode at hb
  split at hb
  · cases hb
  · split at hb
    · cases hb
    · next marker _ _ length sequence system component id r hm hr =>
      rw [Version.ofMarker?_eq_some_iff] at hm
      obtain ⟨rfl, rfl⟩ := List.cons.inj hr
      cases hb
      refine ⟨⟨?_, ?_, fun _ => ⟨rfl, rfl⟩⟩, ⟨r, ?_⟩⟩
      · exact Nat.le_of_lt_succ id.toNat_lt
      · show (0 : UInt8) &&& ~~~ signedFlag = 0
        decide
      · simp [toBytes, hm]
    · next marker _ _ length incompat compat sequence system component low middle high r hm hr =>
      rw [Version.ofMarker?_eq_some_iff] at hm
      obtain ⟨rfl, rfl⟩ := List.cons.inj hr
      split at hb
      · cases hb
      · next hf =>
        cases hb
        refine ⟨⟨ofLittle_le_maxMessageId .., by simpa using hf, fun v => by cases v⟩, ⟨r, ?_⟩⟩
        have spelled : Bytes.little 3 (Bytes.ofLittle [low, middle, high]) = [low, middle, high] :=
          Bytes.little_ofLittle [low, middle, high]
        simp only [toBytes, hm, spelled, List.cons_append, List.nil_append]
    · cases hb

/-- Reading accepts exactly the bytes that begin with the spelling of a header that
fits. -/
theorem decode_eq_ok_iff {b : Bytes} {h : Header} :
    decode b = .ok h ↔ h.Fits ∧ h.toBytes <+: b := by
  constructor
  · exact of_decode
  · rintro ⟨fits, r, rfl⟩
    exact decode_toBytes_append fits r

/-- What follows a header does not matter. -/
theorem decode_append {b : Bytes} {h : Header} (hb : decode b = .ok h) (r : Bytes) :
    decode (b ++ r) = .ok h := by
  rw [decode_eq_ok_iff] at hb ⊢
  exact ⟨hb.1, hb.2.trans (List.prefix_append b r)⟩

theorem size_le_length {b : Bytes} {h : Header} (hb : decode b = .ok h) : h.size ≤ b.length := by
  rw [← h.length_toBytes]
  exact (of_decode hb).2.length_le

/-- A header is read only behind the marker of its version. -/
theorem exists_marker {b : Bytes} {h : Header} (hb : decode b = .ok h) :
    ∃ r, b = h.version.marker :: r := by
  obtain ⟨_, r, rfl⟩ := of_decode hb
  unfold toBytes
  cases h.version with
  | v1 => exact ⟨_, rfl⟩
  | v2 => exact ⟨_, rfl⟩

/-- Once the bytes of a header are there, what follows them does not matter, even if they
are not a header that can be read. -/
theorem decode_marker_append {version : Version} {r : Bytes}
    (hlen : version.headerSize ≤ r.length + 1) (s : Bytes) :
    decode (version.marker :: r ++ s) = decode (version.marker :: r) := by
  cases version with
  | v1 =>
    rcases r with _ | ⟨_, _ | ⟨_, _ | ⟨_, _ | ⟨_, _ | ⟨_, r⟩⟩⟩⟩⟩
    case cons.cons.cons.cons.cons => rfl
    all_goals exact absurd hlen (by simp [Version.headerSize])
  | v2 =>
    rcases r with _ | ⟨_, _ | ⟨_, _ | ⟨_, _ | ⟨_, _ | ⟨_, _ | ⟨_, _ | ⟨_, _ | ⟨_, _ | ⟨_, r⟩⟩⟩⟩⟩⟩⟩⟩⟩
    case cons.cons.cons.cons.cons.cons.cons.cons.cons => rfl
    all_goals exact absurd hlen (by simp [Version.headerSize])

end Mavlink.Header
