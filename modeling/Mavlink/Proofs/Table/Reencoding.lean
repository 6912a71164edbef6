import Mavlink.Proofs.Codegen.RustProgram
import Mavlink.Proofs.Table.Acceptance

/-!
# Payloads there and back

A payload that was decoded can be encoded again, and comes out as it went in, up to the zeros
that are left out at its end.  Two kinds of fields are excepted, for what is read of them does
not tell their bytes: a text is told up to its first zero, with a mark for whatever is no
character, and a not-a-number of 32 bits may change when it is rounded.  `Message.Plain` says
that a payload has no such field.

A table reads the numbers that the rendered code reads, and writes the numbers that it writes.
So what is known of a number in a structure is used for a number by name.

* `Table.putValue_readValue` --- what is read of a plain field is written as it was;
* `Table.writes_read` --- and so are fields one after another;
* `Table.reencodes` --- payloads of a dialect.
-/

namespace Mavlink

/-- Whether bytes are the characters of a text and zeros after them. -/
def Bytes.IsText (b : Bytes) : Prop :=
  ∃ s k, b = Text.utf8 s ++ List.replicate k 0 ∧ 0 ∉ Text.utf8 s

/-- Whether no not-a-number of 32 bits stands at the beginning of what is left.  One of 64 bits
is written as it was read. -/
def Primitive.Plain (p : Primitive) (r : PayloadReader) : Prop :=
  p = .float → r.single.isNaN = false

/-- Whether what is read of a field tells its bytes. -/
def FieldType.Plain (r : PayloadReader) : FieldType → Prop
  | .scalar .char => Bytes.IsText (r.rest.take 1)
  | .scalar p => p.Plain r
  | .array .char n => Bytes.IsText (r.rest.take n)
  | .array p n => ∀ i < n, p.Plain (r.skip (i * p.size))

/-- Whether what is read of fields one after another tells their bytes. -/
def Layout.Plain (r : PayloadReader) : List Field → Prop
  | [] => True
  | f :: fs => f.type.Plain r ∧ Layout.Plain (r.skip f.size) fs

/-- Whether what is read of a payload tells its bytes.  Zeros that were left out count. -/
def Message.Plain (m : Message) (p : Payload) : Prop :=
  Layout.Plain ⟨p.extended m.maxLength⟩ m.wireFields

namespace Table

section Fields

variable {message : String} {f : Field} {p : Primitive} {b : Bytes} {n : Nat}

/-- What is read of a text is its characters, and zeros stand behind them. -/
theorem exists_zeros_of_isText (h : Bytes.IsText (b.take n)) :
    ∃ k, b.take n = Text.utf8 (PayloadReader.text ⟨b⟩ n) ++ List.replicate k 0 := by
  obtain ⟨s, k, whole, nonzero⟩ := h
  have zeros : (List.replicate k (0 : UInt8)).takeWhile (· ≠ 0) = [] := by
    cases k <;> rfl
  have characters : (b.take n).takeWhile (· ≠ 0) = Text.utf8 s := by
    rw [whole, List.takeWhile_append_of_pos, zeros, List.append_nil]
    intro c hc
    exact decide_eq_true fun zero => nonzero (zero ▸ hc)
  have told : PayloadReader.text ⟨b⟩ n = s := by
    rw [PayloadReader.text, characters, Text.utf8, Text.decodeLossy_encode, String.ofList_toList]
  exact ⟨k, by rw [told, whole]⟩

/-- A text is written as it was. -/
theorem putText_text {field : String} (plain : Bytes.IsText (b.take n)) (enough : n ≤ b.length)
    (w : PayloadWriter) :
    w.putText message field (PayloadReader.text ⟨b⟩ n) n = .ok (w.putBytes (b.take n)) := by
  obtain ⟨k, whole⟩ := exists_zeros_of_isText plain
  have length := congrArg List.length whole
  rw [List.length_take, Nat.min_eq_left enough, List.length_append, List.length_replicate]
    at length
  have fits : ¬ n < (Text.utf8 (PayloadReader.text ⟨b⟩ n)).length := by omega
  have left : n - (Text.utf8 (PayloadReader.text ⟨b⟩ n)).length = k := by omega
  rw [PayloadWriter.putText]
  simp only [if_neg fits]
  rw [Bytes.extend, left, ← whole]

/-- An element is written as it was. -/
theorem putPrimitive_readPrimitive (kind : p ≠ .char) (plain : p.Plain ⟨b⟩)
    (enough : p.size ≤ b.length) (w : PayloadWriter) :
    putPrimitive message f p w (readPrimitive ⟨b⟩ p) = .ok (w.putBytes (b.take p.size)) := by
  have number : (Codegen.RustNumber.get p.number ⟨b⟩).isNaN32 = false := by
    by_cases single : p = .float
    · subst single
      exact Bool.and_eq_false_iff.2 (.inr (plain rfl))
    · have other : p.number ≠ .f32 := by cases p <;> simp_all [Primitive.number]
      simp [Codegen.RustNumber.isNaN32, Codegen.RustNumber.get, other]
  have length : (b.take p.size).length = p.size := by
    rw [List.length_take, Nat.min_eq_left enough]
  have spelled := Bytes.little_ofLittle (b.take p.size)
  rw [length] at spelled
  rw [Codegen.RustNumber.readPrimitive_eq,
    Codegen.RustNumber.putPrimitive_toValue message f w rfl kind number]
  exact congrArg (Except.ok ∘ w.putBytes) spelled

/-- The elements of an array are written as they were. -/
theorem foldlM_putPrimitive_readPrimitive (kind : p ≠ .char)
    (plain : ∀ i < n, p.Plain (PayloadReader.skip ⟨b⟩ (i * p.size)))
    (enough : n * p.size ≤ b.length) (w : PayloadWriter) :
    ((List.range n).map fun i => readPrimitive (PayloadReader.skip ⟨b⟩ (i * p.size)) p).foldlM
      (putPrimitive message f p) w = .ok (w.putBytes (b.take (n * p.size))) := by
  -- Elements stand at multiples of their size from the beginning, so the last one is split off.
  induction n with
  | zero =>
    show Except.ok w = _
    rw [Nat.zero_mul, List.take_zero, PayloadWriter.putBytes, List.append_nil]
  | succ n ih =>
    rw [Nat.succ_mul] at enough
    have before := ih (fun i hi => plain i (Nat.lt_succ_of_lt hi)) (by omega)
    have rest : p.size ≤ (b.drop (n * p.size)).length := by
      rw [List.length_drop]
      omega
    have last : ∀ w, putPrimitive message f p w (readPrimitive ⟨b.drop (n * p.size)⟩ p)
        = .ok (w.putBytes ((b.drop (n * p.size)).take p.size)) :=
      putPrimitive_readPrimitive kind (plain n (Nat.lt_succ_self n)) rest
    rw [List.range_succ, List.map_append, List.foldlM_append, before]
    show putPrimitive message f p _ (readPrimitive ⟨b.drop (n * p.size)⟩ p) >>= pure = _
    rw [last, Nat.succ_mul, List.take_add]
    simp only [PayloadWriter.putBytes, List.append_assoc]
    rfl

theorem plain_scalar (kind : p ≠ .char) (r : PayloadReader) :
    (FieldType.scalar p).Plain r ↔ p.Plain r := by
  cases p <;> first | rfl | exact absurd rfl kind

theorem plain_array (kind : p ≠ .char) (r : PayloadReader) :
    (FieldType.array p n).Plain r ↔ ∀ i < n, p.Plain (r.skip (i * p.size)) := by
  cases p <;> first | rfl | exact absurd rfl kind

/-- **What is read of a plain field is written as it was.** -/
theorem putValue_readValue (plain : f.type.Plain ⟨b⟩) (enough : f.size ≤ b.length)
    (w : PayloadWriter) :
    putValue message f w (readValue ⟨b⟩ f.type) = .ok (w.putBytes (b.take f.size)) := by
  rw [Field.size] at enough ⊢
  cases type : f.type with
  | scalar p =>
    rw [type] at plain enough
    by_cases kind : p = .char
    · subst kind
      simp only [putValue, type, readValue]
      exact putText_text plain enough w
    · rw [putValue_scalar type kind, readValue_scalar kind]
      exact putPrimitive_readPrimitive kind ((plain_scalar kind _).1 plain) enough w
  | array p n =>
    rw [type, FieldType.size, Nat.mul_comm] at enough
    rw [type] at plain
    rw [FieldType.size, Nat.mul_comm]
    by_cases kind : p = .char
    · subst kind
      rw [Primitive.size, Primitive.number, NumberType.size, Nat.mul_one] at enough ⊢
      simp only [putValue, type, readValue]
      exact putText_text plain enough w
    · rw [readValue_array kind, putValue_array (by rw [type]; simp) kind]
      exact foldlM_putPrimitive_readPrimitive kind ((plain_array kind _).1 plain) enough w

end Fields

/-- Fields one after another are written as they were. -/
theorem foldlM_putField_readFields {message : String} {v : MessageValue} {fields : List Field}
    {b : Bytes} (plain : Layout.Plain ⟨b⟩ fields) (enough : Layout.size fields ≤ b.length)
    (told : ∀ name value, (name, value) ∈ readFields ⟨b⟩ fields → v.get? name = some value)
    (w : PayloadWriter) :
    fields.foldlM (putField message v) w = .ok (w.putBytes (b.take (Layout.size fields))) := by
  induction fields generalizing b w with
  | nil =>
    show Except.ok w = _
    rw [Layout.size_nil, List.take_zero, PayloadWriter.putBytes, List.append_nil]
  | cons f fields ih =>
    obtain ⟨first, others⟩ := plain
    rw [Layout.size_cons] at enough
    have given : v.get? f.name = some (readValue ⟨b⟩ f.type) := told _ _ List.mem_cons_self
    have written : putField message v w f = .ok (w.putBytes (b.take f.size)) := by
      rw [putField, given]
      exact putValue_readValue first (by omega) w
    have rest : Layout.size fields ≤ (b.drop f.size).length := by
      rw [List.length_drop]
      omega
    rw [List.foldlM_cons, written]
    refine (ih others rest (fun _ _ h => told _ _ (List.mem_cons_of_mem _ h)) _).trans ?_
    rw [Layout.size_cons, List.take_add]
    simp only [PayloadWriter.putBytes, List.append_assoc]

/-! ## Messages -/

/-- Zeros at the end make no difference. -/
theorem read_extended (m : Message) (p : Payload) :
    read m (p.extended m.maxLength) = read m p.bytes := by
  rw [read, read, ← readFields_padded ⟨p.bytes⟩ (m.maxLength - p.bytes.length)]
  rfl

theorem length_extended {m : Message} {p : Payload} (fits : p.size ≤ m.maxLength) :
    (p.extended m.maxLength).length = m.maxLength := by
  rw [Payload.extended, Bytes.length_extend]
  exact Nat.max_eq_right fits

/-- What is read of a payload is written as it was. -/
theorem writes_read {m : Message} {p : Payload} (fits : p.size ≤ m.maxLength)
    (plain : m.Plain p) : Writes m (read m p.bytes) (p.extended m.maxLength) := by
  have length := length_extended fits
  have whole : (p.extended m.maxLength).take (Layout.size m.wireFields)
      = p.extended m.maxLength :=
    List.take_of_length_le (Nat.le_of_eq (length.trans m.size_wireFields.symm))
  have told : ∀ name value,
      (name, value) ∈ readFields ⟨p.extended m.maxLength⟩ m.wireFields →
        (read m p.bytes).get? name = some value :=
    fun _ _ present => read_extended m p ▸ get?_read present
  have enough : Layout.size m.wireFields ≤ (p.extended m.maxLength).length :=
    Nat.le_of_eq (m.size_wireFields.trans length.symm)
  rw [Writes, foldlM_putField_readFields plain enough told, whole]
  rfl

/-- What is read of a payload is encoded. -/
theorem encode_read {t : Table} {m : Message} {p : Payload} {version : Version}
    (known : t.messages.find? m.id = some m) (fits : p.size ≤ m.maxLength) (plain : m.Plain p)
    (room : m.id ≤ version.maxMessageId) :
    t.encode (read m p.bytes) version = .ok (m.payload (p.extended m.maxLength) version) := by
  refine (encode_eq_ok_iff (v := read m p.bytes) known).2
    ⟨?_, room, _, writes_read fits plain, rfl⟩
  intro name given
  obtain ⟨value, told⟩ := Dictionary.mem_keys_iff.1 given
  exact field?_isSome_iff.2 (exists_field_of_read told)

/-- **Payloads there and back.**  Suppose that the table of a dialect accepts a payload, that
each text in it is one with zeros after it, and that no number in it is a not-a-number.  Then
what is told of the payload is encoded, in the second version as the payload with the zeros at
its end left out, in the first as the bytes of its base fields.  So two such payloads of a
message tell the same just if they are the same but for zeros at the end. -/
theorem reencodes (d : Dialect) (m : Message) (p : Payload) (told : MessageValue)
    (known : (ofDialect d).messages.find? p.id = some m)
    (accepted : (ofDialect d).decode p = .ok told) (plain : m.Plain p) :
    (ofDialect d).encode told .v2
        = .ok ⟨p.id, .v2, (p.extended m.maxLength).truncate⟩ ∧
      (p.id ≤ 255 → (ofDialect d).encode told .v1
        = .ok ⟨p.id, .v1, (p.extended m.maxLength).take m.baseLength⟩) ∧
      ∀ (q : Payload) (other : MessageValue), q.id = p.id →
        (ofDialect d).decode q = .ok other → m.Plain q →
        (other = told ↔ q.extended m.maxLength = p.extended m.maxLength) := by
  have own : m.id = p.id := keyed_ofDialect d _ _ known
  have stored : (ofDialect d).messages.find? m.id = some m := own ▸ known
  -- All that is asked of a payload of this message holds of any other of it.
  have again : ∀ (q : Payload) (other : MessageValue), q.id = p.id →
      (ofDialect d).decode q = .ok other → q.size ≤ m.maxLength ∧ other = read m q.bytes := by
    intro q other same accepted
    obtain ⟨m', known', fits, rfl⟩ := exists_of_decode accepted
    obtain rfl : m = m' := Option.some.inj (known.symm.trans (same ▸ known'))
    exact ⟨fits, rfl⟩
  obtain ⟨fits, rfl⟩ := again p told rfl accepted
  have second : (ofDialect d).encode (read m p.bytes) .v2
      = .ok (m.payload (p.extended m.maxLength) .v2) := encode_read stored fits plain m.id_le
  refine ⟨?_, fun small => ?_, ?_⟩
  · rw [second, ← own]
    rfl
  · rw [encode_read stored fits plain (own ▸ small), ← own]
    rfl
  · intro q other same accepted plain'
    obtain ⟨fits', rfl⟩ := again q other same accepted
    constructor
    · intro equal
      have second' : (ofDialect d).encode (read m q.bytes) .v2
          = .ok (m.payload (q.extended m.maxLength) .v2) :=
        encode_read stored fits' plain' m.id_le
      rw [equal, second] at second'
      have cut : (p.extended m.maxLength).truncate = (q.extended m.maxLength).truncate :=
        congrArg Payload.bytes (Except.ok.inj second')
      calc q.extended m.maxLength
          = (q.extended m.maxLength).truncate.extend m.maxLength :=
            (Bytes.extend_truncate (length_extended fits')).symm
        _ = (p.extended m.maxLength).truncate.extend m.maxLength := by rw [cut]
        _ = p.extended m.maxLength := Bytes.extend_truncate (length_extended fits)
    · intro equal
      rw [← read_extended m q, equal, read_extended]

/-- A note comes out as it went in; in the first version its level is missing. -/
theorem note_reencoded : ∃ told, (ofDialect notes).decode ⟨7, .v2, noteBytes⟩ = .ok told ∧
    (ofDialect notes).encode told .v2 = .ok ⟨7, .v2, noteBytes⟩ ∧
    (ofDialect notes).encode told .v1 = .ok ⟨7, .v1, [0x61, 0x62, 0, 0]⟩ := by
  obtain ⟨m, known, fields, base⟩ := exists_note
  have length : m.maxLength = 8 := by
    rw [Message.maxLength, fields]
    rfl
  have wire : m.wireFields = [{ name := "text", type := .array .char 4 },
      { name := "level", type := .scalar .float, isExtension := true }] := by
    rw [Message.wireFields, fields]
    cbv
  have whole : Payload.extended ⟨7, .v2, noteBytes⟩ m.maxLength = noteBytes := by
    rw [length]
    rfl
  have plain : m.Plain ⟨7, .v2, noteBytes⟩ := by
    rw [Message.Plain, whole, wire]
    exact ⟨⟨"ab", 2, by decide +kernel, by decide +kernel⟩, fun _ => by decide, trivial⟩
  have fits : Payload.size ⟨7, .v2, noteBytes⟩ ≤ m.maxLength := Nat.le_of_eq length.symm
  obtain ⟨second, first, -⟩ := reencodes notes m ⟨7, .v2, noteBytes⟩ _ known
    (decode_eq known fits) plain
  rw [whole] at second first
  rw [base] at first
  exact ⟨_, decode_eq known fits, second, first (by decide)⟩

end Table
end Mavlink
