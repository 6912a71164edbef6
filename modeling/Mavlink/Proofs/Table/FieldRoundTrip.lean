import Mavlink.Proofs.Text.Utf8Spelling
import Mavlink.Proofs.Wire.NumberSpelling
import Mavlink.Proofs.Wire.PayloadEnd
import Mavlink.Table

/-!
# Fields there and back

A value that is given for a field need not be the value that the receiver is told.  An
integer comes with or without a sign as the type has it, a number in floating point is
rounded to the width of the type, and a text ends before its first zero.
`FieldType.Conveys` says which value is told for which, without a word about bytes.

* `Table.conveys_of_putValue` --- what was written of a value is read as the value conveyed;
* `Table.readValue_append` --- whatever stands behind it;
* `Table.readValue_padded`, `Table.readValue_nil` --- and zeros at the end make no
  difference, where there is nothing a field is zero.
-/

namespace Mavlink

/-- The value that is told if a value is given for an element of a type. -/
inductive Primitive.Conveys : Primitive → Value → Value → Prop where
  | signed {p : Primitive} {v : Value} {n : Int64} (kind : p.isSigned = true)
      (same : v.toInt? = some n.toInt) : Conveys p v (.int n)
  | unsigned {p : Primitive} {v : Value} {n : UInt64} (kind : p.isUnsigned = true)
      (same : v.toInt? = some (n.toNat : Int)) : Conveys p v (.uint n)
  | double {v : Value} {x : Binary64} (same : v.toFloat? = some x) : Conveys .double v (.float x)
  /-- The number is rounded to 32 bits. -/
  | float {v : Value} {x : Binary64} (same : v.toFloat? = some x) :
      Conveys .float v (.float x.narrow.widen)

/-- The value that is told if a value is given for a field of a type. -/
inductive FieldType.Conveys : FieldType → Value → Value → Prop where
  | number {p : Primitive} {v w : Value} (kind : p ≠ .char) (told : p.Conveys v w) :
      Conveys (.scalar p) v w
  | character {s : String} : Conveys (.scalar .char) (.text s) (.text (Text.beforeZero s))
  /-- A character may be given as the number of its byte. -/
  | code {v : Value} {b : UInt8} (same : v.toInt? = some (b.toNat : Int)) :
      Conveys (.scalar .char) v (.text (Text.ofByte b))
  | text {n : Nat} {s : String} : Conveys (.array .char n) (.text s) (.text (Text.beforeZero s))
  | array {p : Primitive} {n : Nat} {vs ws : List Value} (kind : p ≠ .char)
      (given : vs.length = n) (told : ws.length = n)
      (each : ∀ (i : Nat) (v w : Value), vs[i]? = some v → ws[i]? = some w → p.Conveys v w) :
      Conveys (.array p n) (.array vs) (.array ws)

/-- The zero of an element. -/
def Primitive.zero (p : Primitive) : Value :=
  if p.isFloat then .float .zero else if p.isSigned then .int 0 else .uint 0

/-- The zero of a field. -/
def FieldType.zero : FieldType → Value
  | .scalar .char => .text ""
  | .scalar p => p.zero
  | .array .char _ => .text ""
  | .array p n => .array (List.replicate n p.zero)

namespace Primitive

theorem size_le (p : Primitive) : p.size ≤ 8 := by cases p <;> decide

theorem pow_size_le (p : Primitive) : Nat.pow 256 p.size ≤ 0x10000000000000000 := by
  have widest : Nat.pow 256 p.size ≤ Nat.pow 256 8 := Nat.pow_le_pow_right (by decide) p.size_le
  exact Nat.le_trans widest (by decide)

theorem isInteger_of_ne {p : Primitive} (number : p.isFloat = false) (kind : p ≠ .char) :
    p.isSigned = true ∨ p.isSigned = false ∧ p.isUnsigned = true := by
  cases p <;> simp_all [isFloat, isSigned, isUnsigned]

theorem isUnsigned_of_isSigned {p : Primitive} : p.isSigned = true → p.isUnsigned = false := by
  cases p <;> decide

theorem isSigned_of_isUnsigned {p : Primitive} : p.isUnsigned = true → p.isSigned = false := by
  cases p <;> decide

theorem isFloat_of_isSigned {p : Primitive} : p.isSigned = true → p.isFloat = false := by
  cases p <;> decide

theorem isFloat_of_isUnsigned {p : Primitive} : p.isUnsigned = true → p.isFloat = false := by
  cases p <;> decide

theorem eq_of_isFloat {p : Primitive} : p.isFloat = true → p = .float ∨ p = .double := by
  cases p <;> decide

theorem range?_of_signed {p : Primitive} (signed : p.isSigned = true) :
    p.range? = some (-((Nat.pow 256 p.size : Int) / 2), (Nat.pow 256 p.size : Int) / 2 - 1) := by
  simp only [range?, signed, if_true]

theorem range?_of_unsigned {p : Primitive} (isUnsigned : p.isUnsigned = true) :
    p.range? = some (0, (Nat.pow 256 p.size : Int) - 1) := by
  simp only [range?, isSigned_of_isUnsigned isUnsigned, isUnsigned, Bool.false_eq_true, if_false,
    if_true]

end Primitive

namespace Table

/-! ## Elements -/

theorem readPrimitive_of_integer {p : Primitive} (number : p.isFloat = false) (r : PayloadReader) :
    readPrimitive r p = if p.isSigned then .int (Int64.ofInt (r.int p.size))
      else .uint (UInt64.ofNat (r.word p.size)) := by
  cases p <;> first | rfl | cases number

/-- An element depends on nothing but the word that stands for it. -/
theorem readPrimitive_congr {r r' : PayloadReader} {p : Primitive}
    (h : r.word p.size = r'.word p.size) : readPrimitive r p = readPrimitive r' p := by
  cases p with
  | float =>
    have h : r.word 4 = r'.word 4 := h
    rw [readPrimitive, readPrimitive, PayloadReader.single, PayloadReader.single, h]
  | double =>
    have h : r.word 8 = r'.word 8 := h
    rw [readPrimitive, readPrimitive, PayloadReader.double, PayloadReader.double, h]
  | _ =>
    rw [readPrimitive_of_integer rfl, readPrimitive_of_integer rfl, PayloadReader.int,
      PayloadReader.int, h]

theorem readPrimitive_append {b : Bytes} {p : Primitive} (enough : p.size ≤ b.length) (r : Bytes) :
    readPrimitive ⟨b ++ r⟩ p = readPrimitive ⟨b⟩ p :=
  readPrimitive_congr (PayloadReader.word_append enough r)

theorem readPrimitive_padded (r : PayloadReader) (k : Nat) (p : Primitive) :
    readPrimitive (r.padded k) p = readPrimitive r p :=
  readPrimitive_congr (r.word_padded k p.size)

theorem readPrimitive_nil (p : Primitive) : readPrimitive ⟨[]⟩ p = p.zero := by
  cases p <;> rfl

/-- What is written of an integer. -/
theorem exists_of_putPrimitive_integer {message : String} {f : Field} {p : Primitive}
    {w w' : PayloadWriter} {value : Value} (number : p.isFloat = false)
    (h : putPrimitive message f p w value = .ok w') :
    ∃ n, value.toInt? = some n ∧ (p.range?.getD (0, 255)).1 ≤ n ∧
      n ≤ (p.range?.getD (0, 255)).2 ∧
      w' = w.putBytes (Bytes.little p.size (wordOfInt p.size n)) := by
  unfold putPrimitive at h
  rw [number] at h
  simp only [Bool.false_eq_true, if_false] at h
  split at h
  · cases h
  · next n hn =>
    split at h
    · cases h
    · next range =>
      cases h
      exact ⟨n, hn, Int.not_lt.1 fun low => range (.inl low),
        Int.not_lt.1 fun high => range (.inr high), rfl⟩

/-- What is written of an element is read as what it conveys. -/
theorem conveys_of_putPrimitive {message : String} {f : Field} {p : Primitive}
    {w w' : PayloadWriter} {value : Value} (kind : p ≠ .char)
    (h : putPrimitive message f p w value = .ok w') :
    ∃ bytes, w' = w.putBytes bytes ∧ bytes.length = p.size ∧
      p.Conveys value (readPrimitive ⟨bytes⟩ p) := by
  by_cases number : p.isFloat = true
  · unfold putPrimitive at h
    rw [if_pos number] at h
    split at h
    · cases h
    · next x hx =>
      split at h
      · next single =>
        subst single
        split at h
        · cases h
        · cases h
          refine ⟨_, rfl, Bytes.length_little .., ?_⟩
          have told : readPrimitive ⟨Bytes.little 4 x.narrow.bits.toNat⟩ .float
              = .float x.narrow.widen := by
            rw [readPrimitive, PayloadReader.single_little]
          exact told ▸ .float hx
      · next not_single =>
        obtain rfl : p = .double := by
          cases p <;> first | rfl | exact absurd rfl not_single | cases number
        cases h
        refine ⟨_, rfl, Bytes.length_little .., ?_⟩
        have told : readPrimitive ⟨Bytes.little 8 x.bits.toNat⟩ .double = .float x := by
          rw [readPrimitive, PayloadReader.double_little]
        exact told ▸ .double hx
  · have number : p.isFloat = false := Bool.not_eq_true _ ▸ number
    obtain ⟨n, hn, low, high, rfl⟩ := exists_of_putPrimitive_integer number h
    refine ⟨_, rfl, Bytes.length_little .., ?_⟩
    rw [readPrimitive_of_integer number]
    have wide := p.pow_size_le
    have word := PayloadReader.word_little (wordOfInt_lt p.size n)
    rcases Primitive.isInteger_of_ne number kind with signed | ⟨unsigned, isUnsigned⟩
    · rw [Primitive.range?_of_signed signed] at low high
      have read : PayloadReader.int ⟨Bytes.little p.size (wordOfInt p.size n)⟩ p.size = n := by
        rw [PayloadReader.int, word]
        exact intOfWord_wordOfInt p.size_pos low high
      rw [if_pos signed, read]
      refine .signed signed ?_
      rw [hn, Int64.toInt_ofInt_of_le (by simp only [Option.getD_some] at low; omega)
        (by simp only [Option.getD_some] at high; omega)]
    · rw [Primitive.range?_of_unsigned isUnsigned] at low high
      rw [if_neg (by simp [unsigned]), word, wordOfInt_of_nonneg low high]
      refine .unsigned isUnsigned ?_
      simp only [Option.getD_some] at low high
      have small : n.toNat < 2 ^ 64 := by omega
      rw [hn, UInt64.toNat_ofNat_of_lt' small, Int.toNat_of_nonneg low]

/-! ## Fields -/

theorem readValue_scalar {p : Primitive} (kind : p ≠ .char) (r : PayloadReader) :
    readValue r (.scalar p) = readPrimitive r p := by
  cases p <;> first | rfl | exact absurd rfl kind

theorem readValue_array {p : Primitive} (kind : p ≠ .char) (n : Nat) (r : PayloadReader) :
    readValue r (.array p n)
      = .array ((List.range n).map fun i => readPrimitive (r.skip (i * p.size)) p) := by
  cases p <;> first | rfl | exact absurd rfl kind

/-- A field depends on nothing that stands behind it. -/
theorem readValue_append {b : Bytes} {t : FieldType} (enough : t.size ≤ b.length) (r : Bytes) :
    readValue ⟨b ++ r⟩ t = readValue ⟨b⟩ t := by
  cases t with
  | scalar p =>
    by_cases kind : p = .char
    · subst kind
      exact congrArg Value.text (PayloadReader.text_append enough r)
    · rw [readValue_scalar kind, readValue_scalar kind, readPrimitive_append enough]
  | array p n =>
    by_cases kind : p = .char
    · subst kind
      have enough : n ≤ b.length := Nat.le_trans (Nat.le_of_eq (Nat.one_mul n).symm) enough
      exact congrArg Value.text (PayloadReader.text_append enough r)
    · rw [readValue_array kind, readValue_array kind]
      refine congrArg Value.array (List.map_congr_left fun i hi => ?_)
      have inside : (i + 1) * p.size ≤ b.length := by
        have := Nat.mul_le_mul_left p.size (Nat.succ_le_of_lt (List.mem_range.1 hi))
        rw [Nat.mul_comm]
        exact Nat.le_trans this enough
      rw [Nat.add_mul, Nat.one_mul] at inside
      have enough : p.size ≤ (b.drop (i * p.size)).length := by
        rw [List.length_drop]
        omega
      rw [PayloadReader.skip_append (by omega), readPrimitive_append enough]
      rfl

/-- Zeros at the end make no difference. -/
theorem readValue_padded (r : PayloadReader) (k : Nat) (t : FieldType) :
    readValue (r.padded k) t = readValue r t := by
  cases t with
  | scalar p =>
    by_cases kind : p = .char
    · subst kind
      exact congrArg Value.text (r.text_padded k 1)
    · rw [readValue_scalar kind, readValue_scalar kind, readPrimitive_padded]
  | array p n =>
    by_cases kind : p = .char
    · subst kind
      exact congrArg Value.text (r.text_padded k n)
    · rw [readValue_array kind, readValue_array kind]
      refine congrArg Value.array (List.map_congr_left fun i _ => ?_)
      obtain ⟨j, skipped⟩ := r.skip_padded k (i * p.size)
      rw [skipped, readPrimitive_padded]

/-- Where there is nothing any more, a field is zero. -/
theorem readValue_nil (t : FieldType) : readValue ⟨[]⟩ t = t.zero := by
  have text : ∀ n, PayloadReader.text ⟨[]⟩ n = "" := by
    intro n
    rw [PayloadReader.text, List.take_nil, List.takeWhile_nil, Text.decodeLossy, Text.characters]
    rfl
  cases t with
  | scalar p =>
    by_cases kind : p = .char
    · subst kind
      exact congrArg Value.text (text 1)
    · rw [readValue_scalar kind, readPrimitive_nil]
      cases p <;> first | rfl | exact absurd rfl kind
  | array p n =>
    by_cases kind : p = .char
    · subst kind
      exact congrArg Value.text (text n)
    · have each : (List.range n).map
          (fun i => readPrimitive (PayloadReader.skip ⟨[]⟩ (i * p.size)) p)
            = List.replicate n p.zero := by
        refine List.eq_replicate_iff.2 ⟨by rw [List.length_map, List.length_range], ?_⟩
        intro v hv
        obtain ⟨i, _, rfl⟩ := List.mem_map.1 hv
        rw [PayloadReader.skip, List.drop_nil, readPrimitive_nil]
      rw [readValue_array kind, each]
      cases p <;> first | rfl | exact absurd rfl kind

/-- What is written of a text is read up to its first zero. -/
theorem text_of_putText {message field s : String} {len : Nat} {w w' : PayloadWriter}
    (h : w.putText message field s len = .ok w') :
    ∃ bytes, w' = w.putBytes bytes ∧ bytes.length = len ∧
      PayloadReader.text ⟨bytes⟩ len = Text.beforeZero s := by
  unfold PayloadWriter.putText at h
  simp only at h
  split at h
  · cases h
  · next fits =>
    have fits : (Text.utf8 s).length ≤ len := Nat.le_of_not_lt fits
    cases h
    refine ⟨_, rfl, ?_, ?_⟩
    · rw [Bytes.length_extend]
      exact Nat.max_eq_right fits
    · have padded := PayloadReader.text_padded ⟨Text.utf8 s⟩ (len - (Text.utf8 s).length) len
      refine padded.trans ?_
      rw [PayloadReader.text, List.take_of_length_le fits, Text.decodeLossy_takeWhile_utf8]

/-- A character that is given as the number of its byte is read as the text of the byte. -/
theorem text_of_putPrimitive {message : String} {f : Field} {w w' : PayloadWriter} {value : Value}
    (h : putPrimitive message f .uint8 w value = .ok w') :
    ∃ b : UInt8, w' = w.putBytes [b] ∧ value.toInt? = some (b.toNat : Int) ∧
      PayloadReader.text ⟨[b]⟩ 1 = Text.ofByte b := by
  obtain ⟨n, hn, low, high, rfl⟩ := exists_of_putPrimitive_integer rfl h
  have range : Primitive.range? .uint8 = some (0, 255) := by decide
  rw [range] at low high
  have low : 0 ≤ n := low
  have high : n ≤ 255 := high
  have word : wordOfInt 1 n = n.toNat := wordOfInt_of_nonneg low high
  have small : n.toNat < 2 ^ 8 := by omega
  refine ⟨UInt8.ofNat n.toNat, ?_, ?_, Text.decodeLossy_takeWhile_byte _⟩
  · show w.putBytes (Bytes.little 1 (wordOfInt 1 n)) = _
    rw [word]
    rfl
  · rw [hn, UInt8.toNat_ofNat_of_lt' small, Int.toNat_of_nonneg low]

/-- What is written of the elements of an array is read as what they convey. -/
theorem conveys_of_foldlM_putPrimitive {message : String} {f : Field} {p : Primitive}
    (kind : p ≠ .char) {values : List Value} {w w' : PayloadWriter}
    (h : values.foldlM (putPrimitive message f p) w = .ok w') :
    ∃ bytes, w' = w.putBytes bytes ∧ bytes.length = p.size * values.length ∧
      ∀ i v, values[i]? = some v →
        p.Conveys v (readPrimitive (PayloadReader.skip ⟨bytes⟩ (i * p.size)) p) := by
  induction values generalizing w with
  | nil =>
    cases h
    exact ⟨[], by simp [PayloadWriter.putBytes], rfl, nofun⟩
  | cons value values ih =>
    rw [List.foldlM_cons] at h
    obtain ⟨w₁, first, rest⟩ : ∃ w₁, putPrimitive message f p w value = .ok w₁ ∧
        values.foldlM (putPrimitive message f p) w₁ = .ok w' := by
      cases hp : putPrimitive message f p w value with
      | error e => rw [hp] at h; cases h
      | ok w₁ => exact ⟨w₁, rfl, by rw [hp] at h; exact h⟩
    obtain ⟨bytes, rfl, length, told⟩ := conveys_of_putPrimitive kind first
    obtain ⟨others, rfl, lengths, each⟩ := ih rest
    refine ⟨bytes ++ others, ?_, ?_, ?_⟩
    · simp only [PayloadWriter.putBytes, List.append_assoc]
    · rw [List.length_append, length, lengths, List.length_cons, Nat.mul_add, Nat.mul_one,
        Nat.add_comm]
    · intro i v hv
      cases i with
      | zero =>
        cases hv
        rw [Nat.zero_mul]
        show p.Conveys value (readPrimitive ⟨bytes ++ others⟩ p)
        rw [readPrimitive_append (Nat.le_of_eq length.symm)]
        exact told
      | succ i =>
        have skipped : PayloadReader.skip ⟨bytes ++ others⟩ ((i + 1) * p.size)
            = PayloadReader.skip ⟨others⟩ (i * p.size) := by
          rw [PayloadReader.skip, PayloadReader.skip, Nat.add_mul, Nat.one_mul, Nat.add_comm,
            ← length, ← List.drop_drop, List.drop_left]
        rw [skipped]
        exact each i v hv

theorem putValue_scalar {message : String} {f : Field} {p : Primitive} (h : f.type = .scalar p)
    (kind : p ≠ .char) (w : PayloadWriter) (value : Value) :
    putValue message f w value = putPrimitive message f p w value := by
  unfold putValue
  rw [h]
  cases p <;> first | rfl | exact absurd rfl kind

theorem putValue_array {message : String} {f : Field} {p : Primitive} {values : List Value}
    (h : f.type = .array p values.length) (kind : p ≠ .char) (w : PayloadWriter) :
    putValue message f w (.array values)
      = values.foldlM (putPrimitive message f p) w := by
  unfold putValue
  rw [h]
  cases p <;> first | exact if_neg (not_not_intro rfl) | exact absurd rfl kind

/-- **What is written of a value is read as the value that it conveys.** -/
theorem conveys_of_putValue {message : String} {f : Field} {w w' : PayloadWriter} {value : Value}
    (h : putValue message f w value = .ok w') :
    ∃ bytes, w' = w.putBytes bytes ∧ bytes.length = f.size ∧
      f.type.Conveys value (readValue ⟨bytes⟩ f.type) := by
  unfold putValue at h
  rw [Field.size]
  split at h
  · next hf =>
    rw [hf]
    split at h
    · next s =>
      obtain ⟨bytes, written, length, told⟩ := text_of_putText h
      refine ⟨bytes, written, length, ?_⟩
      rw [readValue, told]
      exact .character
    · obtain ⟨b, written, same, told⟩ := text_of_putPrimitive h
      refine ⟨[b], written, rfl, ?_⟩
      rw [readValue, told]
      exact .code same
    · obtain ⟨b, written, same, told⟩ := text_of_putPrimitive h
      refine ⟨[b], written, rfl, ?_⟩
      rw [readValue, told]
      exact .code same
    · cases h
  · next p kind hf =>
    rw [hf]
    obtain ⟨bytes, written, length, told⟩ := conveys_of_putPrimitive kind h
    refine ⟨bytes, written, length, ?_⟩
    rw [readValue_scalar kind]
    exact .number kind told
  · next n hf =>
    rw [hf]
    split at h
    · obtain ⟨bytes, written, length, told⟩ := text_of_putText h
      refine ⟨bytes, written, length.trans (Nat.one_mul n).symm, ?_⟩
      rw [readValue, told]
      exact .text
    · cases h
  · next p n kind hf =>
    rw [hf]
    split at h
    · next values =>
      split at h
      · cases h
      · next count =>
        have count : values.length = n := Decidable.not_not.1 count
        obtain ⟨bytes, written, length, each⟩ := conveys_of_foldlM_putPrimitive kind h
        refine ⟨bytes, written, length.trans (count ▸ rfl), ?_⟩
        rw [readValue_array kind]
        refine .array kind count (by rw [List.length_map, List.length_range]) ?_
        intro i v x hv hx
        rw [List.getElem?_map] at hx
        obtain ⟨j, hj, rfl⟩ := Option.map_eq_some_iff.1 hx
        obtain ⟨_, rfl⟩ := List.getElem?_eq_some_iff.1 hj
        rw [List.getElem_range]
        exact each i v hv
    · cases h

end Table
end Mavlink
