import Mavlink.Proofs.Wire.PayloadEnd

/-!
# Payloads that are sent without their zeros

The zeros at the end of a payload are left out wherever they begin, so the payload that is sent
may end inside a number or inside a text.  A reader does not see it: it goes on with zeros where
it finds no bytes, so it reads what was there, also far behind the end.

Nor does it matter how many zeros there were.  Strings that differ only in zeros at their ends
are sent as the same payload, and no others are: of all of them it is the shortest, except that
one byte is always sent.

* `PayloadReader.getAll_padded` --- reading with zeros behind the bytes;
* `Bytes.truncate_append` --- zeros at the end do not change what is sent;
* `Payload.truncation_invisible` --- what a reader, and a sender, can therefore rely on.
-/

namespace Mavlink
namespace Bytes

/-! ## What is left out -/

theorem withoutZeros_append (b : Bytes) (k : Nat) :
    withoutZeros (b ++ List.replicate k 0) = b.withoutZeros := by
  have zeros : ∀ byte ∈ List.replicate k (0 : UInt8), decide (byte = 0) = true := by
    intro byte hb
    exact decide_eq_true (List.eq_of_mem_replicate hb)
  rw [withoutZeros, withoutZeros, List.reverse_append, List.reverse_replicate,
    List.dropWhile_append_of_pos zeros]

/-- Zeros at the end do not change what is sent, if there is a byte before them. -/
theorem truncate_append {b : Bytes} (present : b ≠ []) (k : Nat) :
    truncate (b ++ List.replicate k 0) = b.truncate := by
  have first : (b ++ List.replicate k 0).take 1 = b.take 1 :=
    List.take_append_of_le_length (List.length_pos_iff.2 present)
  rw [truncate, truncate, withoutZeros_append, first]

theorem truncate_prefix (b : Bytes) : b.truncate <+: b := by
  obtain ⟨k, whole⟩ := b.truncate_append_zeros
  exact ⟨_, whole⟩

theorem truncate_ne_nil {b : Bytes} (present : b ≠ []) : b.truncate ≠ [] :=
  List.length_pos_iff.1 (length_truncate_pos (List.length_pos_iff.2 present))

/-- Whatever becomes `b` with zeros behind it is no shorter than what is sent of `b`. -/
theorem length_truncate_le_of_extend {b c : Bytes} (present : c ≠ [])
    (same : c.extend b.length = b) : b.truncate.length ≤ c.length := by
  have sent := truncate_append present (b.length - c.length)
  rw [← extend, same] at sent
  rw [sent]
  exact length_truncate_le c

/-- The same is sent of two strings just if they differ only in zeros at their ends. -/
theorem truncate_eq_truncate_iff {b c : Bytes} (hb : b ≠ []) (hc : c ≠ []) :
    b.truncate = c.truncate ↔ ∃ j k, b ++ List.replicate j 0 = c ++ List.replicate k 0 := by
  constructor
  · intro same
    obtain ⟨m, wholeb⟩ := b.truncate_append_zeros
    obtain ⟨n, wholec⟩ := c.truncate_append_zeros
    refine ⟨n, m, ?_⟩
    calc b ++ List.replicate n 0
        = b.truncate ++ List.replicate m 0 ++ List.replicate n 0 := by rw [wholeb]
      _ = c.truncate ++ List.replicate n 0 ++ List.replicate m 0 := by
          rw [same, List.append_assoc, List.append_assoc, List.replicate_append_replicate,
            List.replicate_append_replicate, Nat.add_comm]
      _ = c ++ List.replicate m 0 := by rw [wholec]
  · rintro ⟨j, k, same⟩
    rw [← truncate_append hb j, same, truncate_append hc k]

end Bytes

namespace PayloadReader

/-! ## What is asked of a reader -/

/-- What is read next. -/
inductive Get where
  | number (type : NumberType)
  /-- The text in so many bytes. -/
  | text (len : Nat)
  deriving DecidableEq

/-- What a reader answers. -/
inductive Answer where
  | unsigned (n : Nat)
  | signed (n : Int)
  | single (x : Binary32)
  | double (x : Binary64)
  | text (s : String)
  deriving DecidableEq

/-- The bytes that are read. -/
def Get.size : Get → Nat
  | .number type => type.size
  | .text len => len

/-- The answer of a reader. -/
def get (r : PayloadReader) : Get → Answer
  | .number .f32 => .single r.single
  | .number .f64 => .double r.double
  | .number .u8 => .unsigned (r.word 1)
  | .number .u16 => .unsigned (r.word 2)
  | .number .u32 => .unsigned (r.word 4)
  | .number .u64 => .unsigned (r.word 8)
  | .number type => .signed (r.int type.size)
  | .text len => .text (r.text len)

/-- The answers of a reader that is asked for one thing after another. -/
def getAll (r : PayloadReader) : List Get → List Answer
  | [] => []
  | g :: gets => r.get g :: (r.skip g.size).getAll gets

/-- A number, or a text, is read from the bytes and the zeros behind them. -/
theorem get_padded (r : PayloadReader) (k : Nat) (g : Get) : (r.padded k).get g = r.get g := by
  have word := word_padded r k
  cases g with
  | text len => exact congrArg Answer.text (text_padded r k len)
  | number type =>
    cases type <;> simp only [get, int, single, double, word]

/-- Zeros behind the bytes are never noticed. -/
theorem getAll_padded (r : PayloadReader) (k : Nat) (gets : List Get) :
    (r.padded k).getAll gets = r.getAll gets := by
  induction gets generalizing r k with
  | nil => rfl
  | cons g gets ih =>
    obtain ⟨j, skipped⟩ := skip_padded r k g.size
    rw [getAll, getAll, get_padded, skipped, ih]

theorem start_of_le {p : Payload} {limit : Nat} (fits : p.size ≤ limit) :
    start p limit = .ok ⟨p.bytes⟩ :=
  if_neg (Nat.not_lt.2 fits)

end PayloadReader

namespace Payload

/-- **Nobody sees that zeros were left out.**  Whatever a reader is asked for, in whatever order
and how far behind the end, it answers the same from the payload that is sent as from all the
bytes of the message.  What is sent is the shortest beginning of these bytes that becomes them
with zeros behind it and is not empty; and two messages are sent as the same payload just if they
differ only in zeros at their ends. -/
theorem truncation_invisible (id : MessageId) {b : Bytes} (present : b ≠ []) :
    let sent := ofBytes id b .v2
    (∀ limit, b.length ≤ limit → ∀ gets : List PayloadReader.Get,
      ∃ answers, (PayloadReader.start sent limit).map (·.getAll gets) = .ok answers ∧
        (PayloadReader.start ⟨id, .v2, b⟩ limit).map (·.getAll gets) = .ok answers) ∧
    (sent.bytes <+: b ∧ sent.bytes ≠ [] ∧ sent.extended b.length = b ∧
      ∀ c : Bytes, c <+: b → c ≠ [] → c.extend b.length = b → sent.size ≤ c.length) ∧
    ∀ c : Bytes, c ≠ [] →
      (sent = ofBytes id c .v2 ↔ ∃ j k, b ++ List.replicate j 0 = c ++ List.replicate k 0) := by
  intro sent
  refine ⟨fun limit fits gets => ?_, ?_, fun c nonempty => ?_⟩
  · obtain ⟨k, whole⟩ := b.truncate_append_zeros
    have whole : PayloadReader.padded ⟨b.truncate⟩ k = ⟨b⟩ := congrArg PayloadReader.mk whole
    have truncated : PayloadReader.start sent limit = .ok ⟨b.truncate⟩ :=
      PayloadReader.start_of_le (Nat.le_trans b.length_truncate_le fits)
    have full : PayloadReader.start ⟨id, .v2, b⟩ limit = .ok ⟨b⟩ := PayloadReader.start_of_le fits
    refine ⟨PayloadReader.getAll ⟨b⟩ gets, ?_, ?_⟩
    · rw [truncated, ← whole, PayloadReader.getAll_padded]
      rfl
    · rw [full]
      rfl
  · exact ⟨b.truncate_prefix, Bytes.truncate_ne_nil present, Bytes.extend_truncate rfl,
      fun c _ nonempty same => Bytes.length_truncate_le_of_extend nonempty same⟩
  · rw [← Bytes.truncate_eq_truncate_iff present nonempty]
    constructor
    · intro same
      exact congrArg Payload.bytes same
    · intro same
      exact congrArg (Payload.mk id .v2) same

/-- A payload that ends inside a number, and what is read behind its end. -/
theorem read_behind_cut_number :
    let b : Bytes := [0x41, 0, 0, 0, 5, 0, 0, 0]
    let c : Bytes := [0x41, 0, 0, 0, 5, 0]
    let gets : List PayloadReader.Get :=
      [.text 2, .number .i32, .number .u16, .text 300, .number .f64]
    b ≠ [] ∧ b.length ≤ 8 ∧ c ≠ [] ∧ (ofBytes 300 b .v2).bytes = [0x41, 0, 0, 0, 5] ∧
      (PayloadReader.start ⟨300, .v2, b⟩ 8).map (·.getAll gets)
        = .ok [.text "A", .signed 0x50000, .unsigned 0, .text "", .double .zero] ∧
      (PayloadReader.start (ofBytes 300 b .v2) 8).map (·.getAll gets)
        = .ok [.text "A", .signed 0x50000, .unsigned 0, .text "", .double .zero] ∧
      ofBytes 300 b .v2 = ofBytes 300 c .v2 := by
  intro b c gets
  have present : b ≠ [] := List.cons_ne_nil _ _
  have nonempty : c ≠ [] := List.cons_ne_nil _ _
  obtain ⟨same, -, sent⟩ := truncation_invisible 300 present
  obtain ⟨answers, truncated, full⟩ := same 8 (Nat.le_refl 8) gets
  have answered : PayloadReader.getAll ⟨b⟩ gets
      = [.text "A", .signed 0x50000, .unsigned 0, .text "", .double .zero] := by decide +kernel
  have read : (PayloadReader.start ⟨300, .v2, b⟩ 8).map (·.getAll gets)
      = .ok [.text "A", .signed 0x50000, .unsigned 0, .text "", .double .zero] :=
    congrArg Except.ok answered
  refine ⟨present, Nat.le_refl 8, nonempty, by decide, read, ?_, (sent c nonempty).2 ⟨0, 2, rfl⟩⟩
  rw [truncated, ← full, read]

end Payload
end Mavlink
