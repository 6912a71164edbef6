import Mavlink.Proofs.Wire.FrameSpelling

/-!
# Frames that are not whole

A frame may be cut off anywhere.  Then the decoder asks for more bytes, and only then: it says how
many bytes are there, and how many it needs to go on, the marker, the header or the whole frame.
Whatever else it says, it says it about bytes that are all there, so it stands when more come.

* `Header.exists_flags_of_decode_marker` --- a header that is whole is refused for its flags only;
* `Frame.decode_of_long` --- what becomes of a frame that is whole;
* `Frame.beginning` --- how far the decoder goes before that;
* `Frame.truncated_or_stands` --- either more bytes are needed, or the verdict stands;
* `Frame.truncated_of_prefix` --- for a part of a frame more bytes are needed.
-/

namespace Mavlink

/-- Whether an error says that a frame is damaged: all of its header is there, and perhaps
all of its bytes, but they do not make a frame. -/
def DecodeError.isDamage : DecodeError → Bool
  | .truncated .. | .invalidMarker _ | .unknownMessage .. => false
  | _ => true

namespace Header

variable {version : Version} {r : Bytes}

theorem decode_marker_of_short (short : r.length + 1 < version.headerSize) :
    decode (version.marker :: r) = .error (.truncated version.headerSize (r.length + 1)) := by
  cases version with
  | v1 =>
    rcases r with _ | ⟨_, _ | ⟨_, _ | ⟨_, _ | ⟨_, _ | ⟨_, r⟩⟩⟩⟩⟩
    case cons.cons.cons.cons.cons =>
      simp only [List.length_cons, Version.headerSize] at short
      omega
    all_goals rfl
  | v2 =>
    rcases r with _ | ⟨_, _ | ⟨_, _ | ⟨_, _ | ⟨_, _ | ⟨_, _ | ⟨_, _ | ⟨_, _ | ⟨_, _ | ⟨_, r⟩⟩⟩⟩⟩⟩⟩⟩⟩
    case cons.cons.cons.cons.cons.cons.cons.cons.cons =>
      simp only [List.length_cons, Version.headerSize] at short
      omega
    all_goals rfl

/-- The header of a marker is there as soon as there are enough bytes, unless its flags are
not understood. -/
theorem exists_flags_of_decode_marker (long : version.headerSize ≤ r.length + 1) {e : DecodeError}
    (h : decode (version.marker :: r) = .error e) : ∃ flags, e = .incompatibleFlags flags := by
  cases version with
  | v1 =>
    rcases r with _ | ⟨_, _ | ⟨_, _ | ⟨_, _ | ⟨_, _ | ⟨_, r⟩⟩⟩⟩⟩
    case cons.cons.cons.cons.cons => cases h
    all_goals exact absurd long (by simp [Version.headerSize])
  | v2 =>
    rcases r with _ | ⟨_, _ | ⟨_, _ | ⟨_, _ | ⟨_, _ | ⟨_, _ | ⟨_, _ | ⟨_, _ | ⟨_, _ | ⟨_, r⟩⟩⟩⟩⟩⟩⟩⟩⟩
    case cons.cons.cons.cons.cons.cons.cons.cons.cons =>
      simp only [decode, Version.ofMarker?_marker] at h
      split at h
      · cases h
        exact ⟨_, rfl⟩
      · cases h
    all_goals exact absurd long (by simp [Version.headerSize])

/-- A header is read from any bytes that reach behind it. -/
theorem decode_take {b : Bytes} {h : Header} (hb : decode b = .ok h) {n : Nat}
    (reach : h.size ≤ n) : decode (b.take n) = .ok h := by
  obtain ⟨fits, stands⟩ := decode_eq_ok_iff.1 hb
  refine decode_eq_ok_iff.2 ⟨fits, List.prefix_of_prefix_length_le stands (List.take_prefix n b) ?_⟩
  rw [length_toBytes, List.length_take]
  exact Nat.le_min.2 ⟨reach, size_le_length hb⟩

theorem size_le_frameSize (h : Header) : h.size ≤ h.frameSize := by
  rw [frameSize_eq, payloadEnd]
  omega

theorem frameSize_pos (h : Header) : 0 < h.frameSize := by
  rw [frameSize_eq, tailSize, checksumSize]
  omega

/-- The longest frame is a signed one of the second version with a full payload. -/
theorem frameSize_le (h : Header) : h.frameSize ≤ 280 := by
  have hlength : h.payloadLength.toNat < 256 := h.payloadLength.toNat_lt
  have hsize : h.size ≤ 10 := by
    rw [size]
    cases h.version <;> decide
  have htail : h.tailSize ≤ 15 := by
    rw [tailSize]
    cases h.isSigned <;> decide
  rw [frameSize_eq, payloadEnd]
  omega

end Header

namespace Frame

variable {l : Lookup} {b : Bytes} {h : Header}

theorem decode_of_header_error {e : DecodeError} (he : Header.decode b = .error e) :
    decode b l = .error e := by
  rw [decode, he]
  rfl

theorem decode_noise {byte : UInt8} (quiet : Version.ofMarker? byte = none) (r : Bytes) :
    decode (byte :: r) l = .error (.invalidMarker byte) := by
  apply decode_of_header_error
  simp only [Header.decode, quiet]

theorem decode_of_short (hb : Header.decode b = .ok h) (short : b.length < h.frameSize) :
    decode b l = .error (.truncated h.frameSize b.length) := by
  rw [decode, hb]
  exact if_pos short

/-- A frame is read from its bytes alone. -/
theorem decode_take (hb : Header.decode b = .ok h) (long : h.frameSize ≤ b.length) :
    decode (b.take h.frameSize) l = decode b l := by
  have whole : h.frameSize ≤ (b.take h.frameSize).length := by
    rw [List.length_take]
    exact Nat.le_min.2 ⟨Nat.le_refl _, long⟩
  rw [← decode_append (Header.decode_take hb h.size_le_frameSize) whole (b.drop h.frameSize),
    List.take_append_drop]

/-- A frame of a message that is not known is handed over as it is. -/
theorem decode_of_unknown (hb : Header.decode b = .ok h) (long : h.frameSize ≤ b.length)
    (unknown : l.fingerprint h.messageId = none) :
    decode b l = .error (.unknownMessage h.messageId (b.take h.frameSize)) := by
  rw [decode, hb]
  simp only [bind, Except.bind, if_neg (Nat.not_lt.2 long), unknown]

/-- Once all bytes of a frame are there, either it is read, or its message is not known and
it is handed over as it is, or it is damaged. -/
theorem decode_of_long (hb : Header.decode b = .ok h) (long : h.frameSize ≤ b.length) :
    (∃ f, decode b l = .ok f ∧ f.size = h.frameSize) ∨
      decode b l = .error (.unknownMessage h.messageId (b.take h.frameSize)) ∨
      ∃ e, decode b l = .error e ∧ e.isDamage := by
  cases hd : decode b l with
  | ok f =>
    have same : h = f.header := Except.ok.inj (hb.symm.trans (header_of_decode hd).1)
    exact .inl ⟨f, rfl, by rw [same, size]⟩
  | error e =>
    rw [decode, hb] at hd
    simp only [bind, Except.bind, if_neg (Nat.not_lt.2 long)] at hd
    split at hd
    · exact .inr (.inl hd.symm)
    · split at hd
      · cases hd
        exact .inr (.inr ⟨_, rfl, rfl⟩)
      · split at hd
        · cases hd
          exact .inr (.inr ⟨_, rfl, rfl⟩)
        · cases hd

/-- How bytes can begin, as far as the decoder goes before it judges a frame. -/
inductive Beginning : Bytes → Prop where
  | nothing : Beginning []
  | noise {byte : UInt8} (quiet : Version.ofMarker? byte = none) (r : Bytes) :
      Beginning (byte :: r)
  /-- A marker, and a part of a header. -/
  | marker {version : Version} {r : Bytes} (short : r.length + 1 < version.headerSize) :
      Beginning (version.marker :: r)
  /-- A header with flags that are not understood. -/
  | refused {version : Version} {r : Bytes} {flags : UInt8}
      (long : version.headerSize ≤ r.length + 1)
      (header : Header.decode (version.marker :: r) = .error (.incompatibleFlags flags)) :
      Beginning (version.marker :: r)
  /-- A header, and a part of its frame. -/
  | part {b : Bytes} {h : Header} (header : Header.decode b = .ok h)
      (short : b.length < h.frameSize) : Beginning b
  | whole {b : Bytes} {h : Header} (header : Header.decode b = .ok h)
      (long : h.frameSize ≤ b.length) : Beginning b

theorem beginning (b : Bytes) : Beginning b := by
  rcases b with _ | ⟨byte, r⟩
  · exact .nothing
  cases marker : Version.ofMarker? byte with
  | none => exact .noise marker r
  | some version =>
    obtain rfl := Version.ofMarker?_eq_some_iff.1 marker
    by_cases short : r.length + 1 < version.headerSize
    · exact .marker short
    have long := Nat.le_of_not_lt short
    cases header : Header.decode (version.marker :: r) with
    | error e =>
      obtain ⟨flags, rfl⟩ := Header.exists_flags_of_decode_marker long header
      exact .refused long header
    | ok h =>
      rcases Nat.lt_or_ge (version.marker :: r).length h.frameSize with short | long
      · exact .part header short
      · exact .whole header long

/-- Whether more bytes are needed is told with how many there are.  Any other verdict, a frame
or an error, stands whatever follows. -/
theorem truncated_or_stands (l : Lookup) (b : Bytes) :
    (∃ expected, decode b l = .error (.truncated expected b.length) ∧ b.length < expected ∧
        expected ≤ 280) ∨
      (∀ expected actual, decode b l ≠ .error (.truncated expected actual)) ∧
        ∀ r, decode (b ++ r) l = decode b l := by
  cases beginning b with
  | nothing => exact .inl ⟨1, rfl, Nat.one_pos, by decide⟩
  | @noise byte quiet b =>
    have noise := decode_noise (l := l) quiet
    exact .inr ⟨fun _ _ => by rw [noise]; nofun, fun r => (noise (b ++ r)).trans (noise b).symm⟩
  | @marker version _ short =>
    refine .inl ⟨_, decode_of_header_error (Header.decode_marker_of_short short), short, ?_⟩
    cases version <;> decide
  | refused long header =>
    have same (r : Bytes) := (Header.decode_marker_append long r).trans header
    refine .inr ⟨fun _ _ => by rw [decode_of_header_error header]; nofun, fun r => ?_⟩
    rw [decode_of_header_error header, decode_of_header_error (same r)]
  | part header short => exact .inl ⟨_, decode_of_short header short, short, Header.frameSize_le _⟩
  | whole header long =>
    refine .inr ⟨fun _ _ cut => ?_, fun r => decode_append header long r⟩
    rcases decode_of_long (l := l) header long with ⟨f, found, -⟩ | found | ⟨e, found, damage⟩
    · cases found.symm.trans cut
    · cases found.symm.trans cut
    · cases found.symm.trans cut
      cases damage

/-- For a part of a frame that is cut off before its end more bytes are needed. -/
theorem truncated_of_prefix {l : Lookup} {whole b : Bytes} {f : Frame}
    (decoded : decode whole l = .ok f) (part : b <+: whole) (short : b.length < f.size) :
    ∃ expected, decode b l = .error (.truncated expected b.length) := by
  rcases truncated_or_stands l b with ⟨expected, cut, -⟩ | ⟨-, stands⟩
  · exact ⟨expected, cut⟩
  · obtain ⟨r, rfl⟩ := part
    rw [stands] at decoded
    exact absurd (header_of_decode decoded).2 (Nat.not_le.2 short)

end Frame
end Mavlink
