import Mavlink.Proofs.Binary.Widening
import Mavlink.Proofs.Table.MessageRoundTrip

/-!
# The messages that a table accepts

A message whose fields are given by name can be encoded if its values fit the layout, and not
otherwise.  `FieldType.Admits` says which values fit a type, without a word about bytes, and
`Message.Admits` which messages fit a layout: it names no field that is not there, leaves out no
base field, and the first version of the protocol has room for its number.

Every field that is written takes the bytes of its type, whatever its value.  So all payloads of
a message are cut from a string of one length: the second version of the protocol sends it
without the zeros at its end, the first sends the bytes of the base fields.  Such a payload
always fits a frame.

* `Table.exists_putValue_iff`, `Table.exists_putField_iff` --- the values that are accepted;
* `Table.encode_eq_ok_iff` --- what becomes of a message that is accepted;
* `Table.encode_of_sendValue` --- a device refuses what its table refuses;
* `Table.encodes_admitted` --- the messages of a dialect that are accepted.
-/

namespace Mavlink

/-- The values that can be given for an element of a type. -/
inductive Primitive.Admits : Primitive → Value → Prop where
  | signed {p : Primitive} {v : Value} {n : Int} (kind : p.isSigned = true)
      (given : v.toInt? = some n) (low : -(Nat.pow 256 p.size : Int) ≤ 2 * n)
      (high : 2 * n < Nat.pow 256 p.size) : Admits p v
  | unsigned {p : Primitive} {v : Value} {n : Int} (kind : p.isUnsigned = true)
      (given : v.toInt? = some n) (low : 0 ≤ n) (high : n < Nat.pow 256 p.size) : Admits p v
  /-- An integer is rounded to a number in floating point. -/
  | whole {p : Primitive} {v : Value} {n : Int} (kind : p.isFloat = true)
      (given : v.toInt? = some n) : Admits p v
  | double {x : Binary64} : Admits .double (.float x)
  /-- Infinity and what is not a number are none that exceed 32 bits. -/
  | float {x : Binary64} (within : x.exceedsSingle = false) : Admits .float (.float x)

/-- The values that can be given for a field of a type. -/
inductive FieldType.Admits : FieldType → Value → Prop where
  | number {p : Primitive} {v : Value} (kind : p ≠ .char) (fits : p.Admits v) :
      Admits (.scalar p) v
  | character {s : String} (short : (Text.utf8 s).length ≤ 1) : Admits (.scalar .char) (.text s)
  /-- A character may be given as the number of its byte. -/
  | code {v : Value} {n : Int} (given : v.toInt? = some n) (low : 0 ≤ n) (high : n ≤ 255) :
      Admits (.scalar .char) v
  | text {n : Nat} {s : String} (short : (Text.utf8 s).length ≤ n) :
      Admits (.array .char n) (.text s)
  | array {p : Primitive} {n : Nat} {values : List Value} (kind : p ≠ .char)
      (count : values.length = n) (fits : ∀ v ∈ values, p.Admits v) :
      Admits (.array p n) (.array values)

/-- The values that can be given for a field.  None need be given for an extension field. -/
def Field.Admits (f : Field) : Option Value → Prop
  | some v => f.type.Admits v
  | none => f.isExtension = true

/-- A message that can be given for a layout and a version of the protocol. -/
structure Message.Admits (m : Message) (version : Version) (v : MessageValue) : Prop where
  /-- The first version of the protocol has 256 numbers. -/
  numbered : version = .v1 → v.id ≤ 255
  named : ∀ name value, v.get? name = some value → ∃ f ∈ m.fields, f.name = name
  complete : ∀ f ∈ m.fields, f.isExtension = false → ∃ value, v.get? f.name = some value
  fits : ∀ f ∈ m.fields, ∀ value, v.get? f.name = some value → f.type.Admits value

/-- The payload of the bytes of all fields of a message. -/
def Message.payload (m : Message) (bytes : Bytes) : Version → Payload
  | .v1 => .ofBytes m.id (bytes.take m.baseLength) .v1
  | .v2 => .ofBytes m.id bytes .v2

/-- What can be wrong with a payload as a whole. -/
inductive EncodeError.OfPayload : EncodeError → Prop where
  | large {size limit : Nat} : OfPayload (.payloadTooLarge size limit)
  | version : OfPayload .versionMismatch

/-! ## Integers -/

namespace Value

theorem toFloat?_of_toInt? {v : Value} {n : Int} (h : v.toInt? = some n) :
    v.toFloat? = some (.ofInt n) := by
  cases v with
  | int i => exact congrArg (some ∘ Binary64.ofInt) (Option.some.inj h)
  | uint i => exact congrArg (some ∘ Binary64.ofInt) (Option.some.inj h)
  | _ => cases h

theorem natAbs_le_of_toInt? {v : Value} {n : Int} (h : v.toInt? = some n) :
    n.natAbs ≤ 2 ^ 64 := by
  cases v with
  | int i =>
    cases h
    have low := i.le_toInt
    have high := i.toInt_lt
    omega
  | uint i =>
    cases h
    have high := i.toNat_lt
    omega
  | _ => cases h

/-- A value that has a number in floating point is one, or has an integer. -/
theorem toFloat?_cases {v : Value} {x : Binary64} (h : v.toFloat? = some x) :
    v = .float x ∨ ∃ n, v.toInt? = some n := by
  cases v with
  | int i => exact .inr ⟨_, rfl⟩
  | uint i => exact .inr ⟨_, rfl⟩
  | float y =>
    cases h
    exact .inl rfl
  | _ => cases h

end Value

namespace Primitive

variable {p : Primitive} {v : Value}

theorem admits_signed_iff (signed : p.isSigned = true) :
    p.Admits v ↔ ∃ n, v.toInt? = some n ∧ -((Nat.pow 256 p.size : Int) / 2) ≤ n ∧
      n ≤ (Nat.pow 256 p.size : Int) / 2 - 1 := by
  obtain ⟨half, even⟩ := exists_half_pow p.size_pos
  have whole : ((Nat.pow 256 p.size : Nat) : Int) = 2 * half := by
    rw [even]
    exact Int.natCast_mul 2 half
  constructor
  · intro admits
    cases admits with
    | signed _ given low high => exact ⟨_, given, by omega, by omega⟩
    | unsigned other => simp [isUnsigned_of_isSigned signed] at other
    | whole other => simp [isFloat_of_isSigned signed] at other
    | double => cases signed
    | float => cases signed
  · rintro ⟨n, given, low, high⟩
    exact .signed signed given (by omega) (by omega)

theorem admits_unsigned_iff (unsigned : p.isUnsigned = true) :
    p.Admits v ↔ ∃ n, v.toInt? = some n ∧ 0 ≤ n ∧ n ≤ (Nat.pow 256 p.size : Int) - 1 := by
  constructor
  · intro admits
    cases admits with
    | signed other => simp [isSigned_of_isUnsigned unsigned] at other
    | unsigned _ given low high => exact ⟨_, given, low, Int.le_sub_one_of_lt high⟩
    | whole other => simp [isFloat_of_isUnsigned unsigned] at other
    | double => cases unsigned
    | float => cases unsigned
  · rintro ⟨n, given, low, high⟩
    exact .unsigned unsigned given low (Int.lt_of_le_sub_one high)

/-- Every number fits a type in floating point, unless it exceeds 32 bits and has no more. -/
theorem admits_float_iff (isFloat : p.isFloat = true) :
    p.Admits v ↔ ∃ x, v.toFloat? = some x ∧ (p = .float → x.exceedsSingle = false) := by
  constructor
  · intro admits
    cases admits with
    | signed other => simp [isFloat_of_isSigned other] at isFloat
    | unsigned other => simp [isFloat_of_isUnsigned other] at isFloat
    | whole _ given =>
      refine ⟨_, Value.toFloat?_of_toInt? given, fun _ => ?_⟩
      exact Binary64.exceedsSingle_ofInt (Value.natAbs_le_of_toInt? given)
    | double => exact ⟨_, rfl, nofun⟩
    | float within => exact ⟨_, rfl, fun _ => within⟩
  · rintro ⟨x, given, within⟩
    rcases Value.toFloat?_cases given with rfl | ⟨n, integer⟩
    · rcases eq_of_isFloat isFloat with rfl | rfl
      · exact .float (within rfl)
      · exact .double
    · exact .whole isFloat integer

end Primitive

namespace FieldType

variable {v : Value} {n : Nat}

theorem admits_number_iff {p : Primitive} (kind : p ≠ .char) :
    (scalar p).Admits v ↔ p.Admits v := by
  constructor
  · intro admits
    cases admits with
    | number _ fits => exact fits
    | character => exact absurd rfl kind
    | code => exact absurd rfl kind
  · exact .number kind

theorem admits_character_iff : (scalar .char).Admits v ↔
    (∃ s, v = .text s ∧ (Text.utf8 s).length ≤ 1) ∨
      ∃ k, v.toInt? = some k ∧ 0 ≤ k ∧ k ≤ 255 := by
  constructor
  · intro admits
    cases admits with
    | number kind => exact absurd rfl kind
    | character short => exact .inl ⟨_, rfl, short⟩
    | code given low high => exact .inr ⟨_, given, low, high⟩
  · rintro (⟨s, rfl, short⟩ | ⟨k, given, low, high⟩)
    · exact .character short
    · exact .code given low high

theorem admits_text_iff :
    (array .char n).Admits v ↔ ∃ s, v = .text s ∧ (Text.utf8 s).length ≤ n := by
  constructor
  · intro admits
    cases admits with
    | text short => exact ⟨_, rfl, short⟩
    | array kind => exact absurd rfl kind
  · rintro ⟨s, rfl, short⟩
    exact .text short

theorem admits_array_iff {p : Primitive} (kind : p ≠ .char) : (array p n).Admits v ↔
    ∃ values, v = .array values ∧ values.length = n ∧ ∀ w ∈ values, p.Admits w := by
  constructor
  · intro admits
    cases admits with
    | text => exact absurd rfl kind
    | array _ count fits => exact ⟨_, rfl, count, fits⟩
  · rintro ⟨values, rfl, count, fits⟩
    exact .array kind count fits

end FieldType

/-- A base field needs a value, and the value has to fit. -/
theorem Field.admits_iff (f : Field) {given : Option Value} : f.Admits given ↔
    (f.isExtension = false → ∃ v, given = some v) ∧
      ∀ v, given = some v → f.type.Admits v := by
  cases given <;> simp [Field.Admits]

namespace Table

/-! ## Values -/

/-- Steps that succeed or fail whatever was done before succeed one after another just if each
of them does. -/
theorem exists_foldlM_iff {α σ ε : Type} {step : σ → α → Except ε σ} {Fits : α → Prop}
    (each : ∀ s a, (∃ s', step s a = .ok s') ↔ Fits a) (l : List α) (s : σ) :
    (∃ s', l.foldlM step s = .ok s') ↔ ∀ a ∈ l, Fits a := by
  induction l generalizing s with
  | nil => exact ⟨fun _ _ ha => absurd ha List.not_mem_nil, fun _ => ⟨s, rfl⟩⟩
  | cons a l ih =>
    rw [List.foldlM_cons, List.forall_mem_cons, ← each s a]
    constructor
    · rintro ⟨s', h⟩
      obtain ⟨s₁, first, rest⟩ := exists_of_bind_eq_ok h
      exact ⟨⟨s₁, first⟩, (ih s₁).1 ⟨s', rest⟩⟩
    · rintro ⟨⟨s₁, first⟩, fit⟩
      obtain ⟨s', rest⟩ := (ih s₁).2 fit
      exact ⟨s', by rw [first]; exact rest⟩

section Written

variable {message : String} {f : Field} {p : Primitive} {w : PayloadWriter} {value : Value}

/-- An integer is written just if it is in the range of its type. -/
theorem exists_putPrimitive_integer_iff (number : p.isFloat = false) :
    (∃ w', putPrimitive message f p w value = .ok w') ↔
      ∃ n, value.toInt? = some n ∧ (p.range?.getD (0, 255)).1 ≤ n ∧
        n ≤ (p.range?.getD (0, 255)).2 := by
  constructor
  · rintro ⟨w', h⟩
    obtain ⟨n, given, low, high, -⟩ := exists_of_putPrimitive_integer number h
    exact ⟨n, given, low, high⟩
  · rintro ⟨n, given, low, high⟩
    refine ⟨w.putInt p.number n, ?_⟩
    have range : ¬ (n < (p.range?.getD (0, 255)).1 ∨ (p.range?.getD (0, 255)).2 < n) :=
      fun h => h.elim (Int.not_lt.2 low) (Int.not_lt.2 high)
    simp only [putPrimitive, number, Bool.false_eq_true, if_false, given]
    exact if_neg range

/-- A number in floating point is written unless it exceeds the width of its type. -/
theorem exists_putPrimitive_float_iff (isFloat : p.isFloat = true) :
    (∃ w', putPrimitive message f p w value = .ok w') ↔
      ∃ x, value.toFloat? = some x ∧ (p = .float → x.exceedsSingle = false) := by
  rw [putPrimitive, if_pos isFloat]
  cases value.toFloat? with
  | none => simp
  | some x =>
    by_cases single : p = .float
    · cases exceeds : x.exceedsSingle <;> simp [single, exceeds]
    · simp [single]

/-- **An element is written just if its type admits the value.** -/
theorem exists_putPrimitive_iff (kind : p ≠ .char) :
    (∃ w', putPrimitive message f p w value = .ok w') ↔ p.Admits value := by
  by_cases isFloat : p.isFloat = true
  · rw [exists_putPrimitive_float_iff isFloat, Primitive.admits_float_iff isFloat]
  · have number : p.isFloat = false := Bool.eq_false_of_not_eq_true isFloat
    rw [exists_putPrimitive_integer_iff number]
    rcases Primitive.isInteger_of_ne number kind with signed | ⟨-, unsigned⟩
    · rw [Primitive.range?_of_signed signed, Primitive.admits_signed_iff signed]
      rfl
    · rw [Primitive.range?_of_unsigned unsigned, Primitive.admits_unsigned_iff unsigned]
      rfl

theorem exists_putText_iff {field s : String} {n : Nat} :
    (∃ w', w.putText message field s n = .ok w') ↔ (Text.utf8 s).length ≤ n := by
  by_cases long : n < (Text.utf8 s).length
  · simp [PayloadWriter.putText, long, Nat.not_le.2 long]
  · simp [PayloadWriter.putText, long, Nat.not_lt.1 long]

/-- A character is written as a text or as the number of its byte. -/
theorem exists_putCharacter_iff (type : f.type = .scalar .char) :
    (∃ w', putValue message f w value = .ok w') ↔ f.type.Admits value := by
  have range : Primitive.range? .uint8 = some (0, 255) := by decide
  rw [type, FieldType.admits_character_iff]
  cases value with
  | text s => simp [putValue, type, exists_putText_iff, Value.toInt?]
  | int n =>
    simp only [putValue, type, exists_putPrimitive_integer_iff (p := .uint8) rfl, range]
    simp
  | uint n =>
    simp only [putValue, type, exists_putPrimitive_integer_iff (p := .uint8) rfl, range]
    simp
  | float x => simp [putValue, type, Value.toInt?]
  | array values => simp [putValue, type, Value.toInt?]

/-- An array is written element by element if it has the right length. -/
theorem putValue_of_array {n : Nat} (type : f.type = .array p n) (kind : p ≠ .char) :
    putValue message f w value = match value with
      | .array values =>
        if values.length ≠ n then .error (.arrayLength message f.name n values.length)
        else values.foldlM (putPrimitive message f p) w
      | _ => .error (.typeMismatch message f.name f.type.text) := by
  unfold putValue
  rw [type]
  cases p <;> first | rfl | exact absurd rfl kind

/-- **A value is written just if the type of its field admits it.** -/
theorem exists_putValue_iff :
    (∃ w', putValue message f w value = .ok w') ↔ f.type.Admits value := by
  cases type : f.type with
  | scalar p =>
    by_cases kind : p = .char
    · subst kind
      rw [← type]
      exact exists_putCharacter_iff type
    · rw [putValue_scalar type kind, exists_putPrimitive_iff kind,
        FieldType.admits_number_iff kind]
  | array p n =>
    by_cases kind : p = .char
    · subst kind
      rw [FieldType.admits_text_iff]
      cases value <;> simp [putValue, type, exists_putText_iff]
    · rw [FieldType.admits_array_iff kind, putValue_of_array type kind]
      cases value with
      | array values =>
        have each : (∃ w', values.foldlM (putPrimitive message f p) w = .ok w') ↔
            ∀ v ∈ values, p.Admits v := by
          refine exists_foldlM_iff (fun w v => ?_) values w
          exact exists_putPrimitive_iff kind
        by_cases count : values.length = n
        · simp [count, each]
        · simp [count]
      | _ => simp

theorem exists_putField_iff {v : MessageValue} :
    (∃ w', putField message v w f = .ok w') ↔ f.Admits (v.get? f.name) := by
  unfold putField Field.Admits
  cases v.get? f.name with
  | some value => exact exists_putValue_iff
  | none => cases f.isExtension <;> simp

end Written

/-! ## Messages -/

section Messages

variable {t : Table} {m : Message} {v : MessageValue} {bytes : Bytes} {version : Version}
  {p : Payload}

/-- `bytes` is what is written of all fields of a message. -/
def Writes (m : Message) (v : MessageValue) (bytes : Bytes) : Prop :=
  m.wireFields.foldlM (putField m.name v) (.start m.id m.baseLength)
    = .ok ⟨m.id, m.baseLength, bytes⟩

/-- What is written of all fields has a length that does not depend on their values. -/
theorem Writes.length (h : Writes m v bytes) : bytes.length = m.maxLength := by
  obtain ⟨written, same, length, -⟩ := conveys_of_foldlM_putField h
  obtain rfl : bytes = written := congrArg (·.bytes) same
  rw [length, m.size_wireFields]

/-- The first version sends the base fields. -/
theorem Writes.size_v1 (h : Writes m v bytes) : (m.payload bytes .v1).size = m.baseLength := by
  show (bytes.take m.baseLength).length = m.baseLength
  rw [List.length_take, h.length]
  exact Nat.min_eq_left m.baseLength_le

/-- The second version sends a byte at least, and no more than all fields. -/
theorem Writes.size_v2 (h : Writes m v bytes) :
    1 ≤ (m.payload bytes .v2).size ∧ (m.payload bytes .v2).size ≤ m.maxLength := by
  constructor
  · exact bytes.length_truncate_pos (h.length ▸ m.maxLength_pos)
  · exact h.length ▸ bytes.length_truncate_le

/-- What the first version sends is the beginning of what is read of the second. -/
theorem Writes.bytes_v1 (h : Writes m v bytes) : (m.payload bytes .v1).bytes
    = ((m.payload bytes .v2).extended m.maxLength).take m.baseLength :=
  congrArg (List.take m.baseLength) (Bytes.extend_truncate h.length).symm

theorem exists_writes_iff :
    (∃ bytes, Writes m v bytes) ↔ ∀ f ∈ m.fields, f.Admits (v.get? f.name) := by
  have each : (∃ w', m.wireFields.foldlM (putField m.name v) (.start m.id m.baseLength)
      = .ok w') ↔ ∀ f ∈ m.wireFields, f.Admits (v.get? f.name) := by
    refine exists_foldlM_iff (fun w f => ?_) m.wireFields _
    exact exists_putField_iff
  simp only [m.mem_wireFields] at each
  rw [← each]
  constructor
  · rintro ⟨bytes, h⟩
    exact ⟨_, h⟩
  · rintro ⟨w, h⟩
    obtain ⟨bytes, rfl, -⟩ := conveys_of_foldlM_putField h
    exact ⟨bytes, h⟩

/-- What is written of all fields becomes a payload if there is room for the number. -/
theorem finish_eq_ok_iff :
    PayloadWriter.finish ⟨m.id, m.baseLength, bytes⟩ version = .ok p ↔
      m.id ≤ version.maxMessageId ∧ p = m.payload bytes version := by
  cases version with
  | v1 =>
    by_cases large : Version.v1.maxMessageId < m.id
    · simp [PayloadWriter.finish, large, Nat.not_le.2 large]
    · simp [PayloadWriter.finish, large, Nat.le_of_not_lt large, Message.payload, eq_comm]
  | v2 => simp [PayloadWriter.finish, m.id_le, Message.payload, eq_comm]

/-- **What becomes of a message that is encoded.** -/
theorem encode_eq_ok_iff (known : t.messages.find? v.id = some m) :
    t.encode v version = .ok p ↔
      (∀ name ∈ v.fields.keys, (m.field? name).isSome = true) ∧
        m.id ≤ version.maxMessageId ∧ ∃ bytes, Writes m v bytes ∧ p = m.payload bytes version := by
  constructor
  · intro h
    have named : ∀ name ∈ v.fields.keys, (m.field? name).isSome = true := by
      unfold encode at h
      simp only [known] at h
      split at h
      · cases h
      · next none =>
        intro name given
        simpa [Option.isSome_iff_ne_none] using List.find?_eq_none.1 none name given
    obtain ⟨m', w, same, written, finished⟩ := exists_of_encode h
    obtain rfl : m = m' := Option.some.inj (known.symm.trans same)
    obtain ⟨bytes, rfl, -⟩ := conveys_of_foldlM_putField written
    obtain ⟨small, rfl⟩ := finish_eq_ok_iff.1 finished
    exact ⟨named, small, bytes, written, rfl⟩
  · rintro ⟨named, small, bytes, written, rfl⟩
    rw [encode_eq known named, written]
    exact finish_eq_ok_iff.2 ⟨small, rfl⟩

theorem field?_isSome_iff {name : String} :
    (m.field? name).isSome = true ↔ ∃ f ∈ m.fields, f.name = name := by
  simp [Message.field?]

/-- **A message is encoded just if its layout admits it.** -/
theorem exists_encode_iff (own : m.id = v.id) (known : t.messages.find? v.id = some m) :
    (∃ p, t.encode v version = .ok p) ↔ m.Admits version v := by
  have room : m.id ≤ version.maxMessageId ↔ (version = .v1 → v.id ≤ 255) := by
    cases version with
    | v1 => simp [own, Version.maxMessageId]
    | v2 => simp [m.id_le]
  have names : (∀ name ∈ v.fields.keys, (m.field? name).isSome = true) ↔
      ∀ name value, v.get? name = some value → ∃ f ∈ m.fields, f.name = name := by
    simp only [Dictionary.mem_keys_iff, field?_isSome_iff, MessageValue.get?]
    exact ⟨fun h name value given => h name ⟨value, given⟩,
      fun h name ⟨value, given⟩ => h name value given⟩
  constructor
  · rintro ⟨p, h⟩
    obtain ⟨named, small, bytes, written, -⟩ := (encode_eq_ok_iff known).1 h
    have each := exists_writes_iff.1 ⟨bytes, written⟩
    exact ⟨room.1 small, names.1 named, fun f hf => (f.admits_iff.1 (each f hf)).1,
      fun f hf => (f.admits_iff.1 (each f hf)).2⟩
  · rintro ⟨numbered, named, complete, fits⟩
    have each : ∀ f ∈ m.fields, f.Admits (v.get? f.name) :=
      fun f hf => f.admits_iff.2 ⟨complete f hf, fits f hf⟩
    obtain ⟨bytes, written⟩ := exists_writes_iff.2 each
    have encoded := (encode_eq_ok_iff (p := m.payload bytes version) known).2
      ⟨names.2 named, room.2 numbered, bytes, written, rfl⟩
    exact ⟨_, encoded⟩

end Messages

/-! ## Errors -/

section Errors

variable {message : String} {f : Field} {w : PayloadWriter} {value : Value} {e : EncodeError}

/-- If no step fails in a certain way, neither do steps one after another. -/
theorem of_foldlM_eq_error {α σ ε : Type} {step : σ → α → Except ε σ} {P : ε → Prop}
    (each : ∀ s a e, step s a = .error e → P e) {l : List α} {s : σ} {e : ε}
    (h : l.foldlM step s = .error e) : P e := by
  induction l generalizing s with
  | nil => cases h
  | cons a l ih =>
    rw [List.foldlM_cons] at h
    cases first : step s a with
    | error e' =>
      rw [first] at h
      cases h
      exact each s a e first
    | ok s' =>
      rw [first] at h
      exact ih h

theorem not_ofPayload_of_putPrimitive {p : Primitive}
    (h : putPrimitive message f p w value = .error e) : ¬ e.OfPayload := by
  unfold putPrimitive at h
  repeat' split at h
  all_goals cases h
  all_goals nofun

theorem not_ofPayload_of_putText {field s : String} {n : Nat}
    (h : w.putText message field s n = .error e) : ¬ e.OfPayload := by
  simp only [PayloadWriter.putText] at h
  split at h <;> cases h
  nofun

theorem not_ofPayload_of_putValue (h : putValue message f w value = .error e) :
    ¬ e.OfPayload := by
  unfold putValue at h
  split at h
  · split at h
    · exact not_ofPayload_of_putText h
    · exact not_ofPayload_of_putPrimitive h
    · exact not_ofPayload_of_putPrimitive h
    · cases h
      nofun
  · exact not_ofPayload_of_putPrimitive h
  · split at h
    · exact not_ofPayload_of_putText h
    · cases h
      nofun
  · split at h
    · split at h
      · cases h
        nofun
      · exact of_foldlM_eq_error (fun _ _ _ => not_ofPayload_of_putPrimitive) h
    · cases h
      nofun

theorem not_ofPayload_of_putField {v : MessageValue} (h : putField message v w f = .error e) :
    ¬ e.OfPayload := by
  unfold putField at h
  split at h
  · exact not_ofPayload_of_putValue h
  · split at h <;> cases h
    nofun

/-- What is wrong with a message that is given by name is never its payload. -/
theorem not_ofPayload_of_encode {t : Table} {v : MessageValue} {version : Version}
    (h : t.encode v version = .error e) : ¬ e.OfPayload := by
  unfold encode at h
  split at h
  · cases h
    nofun
  · next m _ =>
    split at h
    · cases h
      nofun
    · cases written : m.wireFields.foldlM (putField m.name v) (.start m.id m.baseLength) with
      | error e' =>
        rw [written] at h
        cases h
        exact of_foldlM_eq_error (fun _ _ _ => not_ofPayload_of_putField) written
      | ok w =>
        rw [written] at h
        cases version with
        | v1 =>
          change (if _ then _ else _) = _ at h
          split at h <;> cases h
          nofun
        | v2 => cases h

/-- A device refuses a message for what its table says, and for nothing else. -/
theorem encode_of_sendValue {t : Table} (keyed : t.Keyed) {s : Transmitter} {now : Timestamp}
    {v : MessageValue} (h : s.sendValue now t v = .error e) :
    t.encode v s.encoder.version = .error e := by
  cases encoded : t.encode v s.encoder.version with
  | ok p =>
    obtain ⟨f, s', sent, -⟩ := exists_of_sendValue keyed encoded now []
    rw [sent] at h
    cases h
  | error e' =>
    unfold Transmitter.sendValue at h
    cases known : t.messages.find? v.id with
    | none =>
      simp only [known] at h
      cases h
      rw [← encoded, encode, known]
    | some m =>
      rw [known] at h
      simp only [encoded] at h
      cases h
      rfl

end Errors

/-! ## Dialects -/

/-- **The messages that are accepted.**  The table of a dialect encodes a message just if the
dialect has a message of its number whose layout admits it.

All payloads of the message are cut from as many bytes as its fields take.  In the first
version these are the bytes of the base fields; in the second there is at least one byte, and
the payload of the first is the beginning of what the receiver reads.  So a device never finds
that a payload is too large, or of the other version. -/
theorem encodes_admitted (d : Dialect) (v : MessageValue) (version : Version) :
    ((∃ p, (ofDialect d).encode v version = .ok p) ↔
      ∃ m, (ofDialect d).messages.find? v.id = some m ∧ m.Admits version v) ∧
    (∀ m p, (ofDialect d).messages.find? v.id = some m →
      (ofDialect d).encode v version = .ok p →
      p.id = v.id ∧ p.version = version ∧
      (version = .v1 → p.size = m.baseLength ∧ ∃ p₂, (ofDialect d).encode v .v2 = .ok p₂ ∧
        p.bytes = (p₂.extended m.maxLength).take m.baseLength) ∧
      (version = .v2 → 1 ≤ p.size ∧ p.size ≤ m.maxLength)) ∧
    ∀ (s : Transmitter) (now : Timestamp) (e : EncodeError),
      s.sendValue now (ofDialect d) v = .error e →
      (ofDialect d).encode v s.encoder.version = .error e ∧ e ≠ .versionMismatch ∧
        ∀ size limit, e ≠ .payloadTooLarge size limit := by
  have keyed := keyed_ofDialect d
  refine ⟨⟨?_, ?_⟩, ?_, ?_⟩
  · rintro ⟨p, h⟩
    obtain ⟨m, -, known, -⟩ := exists_of_encode h
    exact ⟨m, known, (exists_encode_iff (keyed _ _ known) known).1 ⟨p, h⟩⟩
  · rintro ⟨m, known, admits⟩
    exact (exists_encode_iff (keyed _ _ known) known).2 admits
  · intro m p known h
    have own : m.id = v.id := keyed _ _ known
    obtain ⟨named, -, bytes, written, rfl⟩ := (encode_eq_ok_iff known).1 h
    cases version with
    | v1 =>
      have encoded : (ofDialect d).encode v .v2 = .ok (m.payload bytes .v2) :=
        (encode_eq_ok_iff known).2 ⟨named, m.id_le, bytes, written, rfl⟩
      exact ⟨own, rfl, fun _ => ⟨written.size_v1, _, encoded, written.bytes_v1⟩, nofun⟩
    | v2 => exact ⟨own, rfl, nofun, fun _ => written.size_v2⟩
  · intro s now e h
    have refused := encode_of_sendValue keyed h
    have others := not_ofPayload_of_encode refused
    refine ⟨refused, ?_, ?_⟩
    · rintro rfl
      exact others .version
    · rintro size limit rfl
      exact others .large

end Table
end Mavlink
