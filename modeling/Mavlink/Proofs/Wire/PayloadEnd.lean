import Mavlink.Wire.PayloadReader

/-!
# The end of a payload

What a reader reads depends on the bytes it reads, and on nothing behind them.  At the end
of a payload zeros make no difference: a reader that finds no bytes any more reads as if
zeros stood there.  So nothing is lost with the zeros that a payload is sent without.

* `PayloadReader.word_append`, `PayloadReader.text_append` --- what is behind the bytes;
* `PayloadReader.word_padded`, `PayloadReader.text_padded` --- zeros at the end;
* `Bytes.truncate_append_zeros`, `Bytes.extend_truncate` --- a payload and the zeros that it
  is sent without.
-/

namespace Mavlink
namespace Bytes

theorem ofLittle_append_zeros (b : Bytes) (k : Nat) :
    ofLittle (b ++ List.replicate k 0) = ofLittle b := by
  have zeros : ofLittle (List.replicate k 0) = 0 := by
    induction k with
    | zero => rfl
    | succ k ih =>
      rw [List.replicate_succ, ofLittle, ih]
      rfl
  induction b with
  | nil => exact zeros
  | cons byte b ih => rw [List.cons_append, ofLittle, ih, ofLittle]

theorem withoutZeros_append_zeros (b : Bytes) :
    ∃ k, b.withoutZeros ++ List.replicate k 0 = b := by
  refine ⟨(b.reverse.takeWhile (· = 0)).length, ?_⟩
  have zeros : b.reverse.takeWhile (· = 0)
      = List.replicate (b.reverse.takeWhile (· = 0)).length 0 := by
    refine List.eq_replicate_of_mem fun byte hb => ?_
    exact of_decide_eq_true (List.all_eq_true.1 List.all_takeWhile byte hb)
  rw [withoutZeros, ← List.reverse_replicate, ← zeros, ← List.reverse_append,
    List.takeWhile_append_dropWhile, List.reverse_reverse]

/-- The zeros that a payload is sent without. -/
theorem truncate_append_zeros (b : Bytes) : ∃ k, b.truncate ++ List.replicate k 0 = b := by
  obtain ⟨k, split⟩ := withoutZeros_append_zeros b
  unfold truncate
  split
  · next empty =>
    rw [empty, List.nil_append] at split
    cases k with
    | zero => exact ⟨0, by rw [← split]; rfl⟩
    | succ k => exact ⟨k, by rw [← split]; rfl⟩
  · exact ⟨k, split⟩

theorem length_truncate_le (b : Bytes) : b.truncate.length ≤ b.length := by
  obtain ⟨k, split⟩ := truncate_append_zeros b
  have := congrArg List.length split
  rw [List.length_append] at this
  omega

/-- Zeros up to the length that there was put back what was left out. -/
theorem extend_truncate {b : Bytes} {len : Nat} (length : b.length = len) :
    b.truncate.extend len = b := by
  obtain ⟨k, whole⟩ := truncate_append_zeros b
  have lengths := congrArg List.length whole
  rw [List.length_append, List.length_replicate] at lengths
  have left : len - b.truncate.length = k := by omega
  rw [extend, left, whole]

/-- One byte always stays. -/
theorem length_truncate_pos {b : Bytes} (h : 0 < b.length) : 0 < b.truncate.length := by
  unfold truncate
  split
  · rw [List.length_take]
    exact Nat.lt_min.2 ⟨Nat.one_pos, h⟩
  · next present => exact List.length_pos_iff.2 present

end Bytes

namespace PayloadReader

theorem skip_skip (r : PayloadReader) (a b : Nat) : (r.skip a).skip b = r.skip (a + b) :=
  congrArg PayloadReader.mk (List.drop_drop ..)

/-! ## Behind the bytes -/

theorem word_append {b : Bytes} {size : Nat} (enough : size ≤ b.length) (r : Bytes) :
    PayloadReader.word ⟨b ++ r⟩ size = PayloadReader.word ⟨b⟩ size := by
  rw [PayloadReader.word, PayloadReader.word, List.take_append_of_le_length enough]

theorem text_append {b : Bytes} {len : Nat} (enough : len ≤ b.length) (r : Bytes) :
    PayloadReader.text ⟨b ++ r⟩ len = PayloadReader.text ⟨b⟩ len := by
  rw [PayloadReader.text, PayloadReader.text, List.take_append_of_le_length enough]

theorem skip_append {b : Bytes} {size : Nat} (enough : size ≤ b.length) (r : Bytes) :
    PayloadReader.skip ⟨b ++ r⟩ size = ⟨b.drop size ++ r⟩ := by
  rw [PayloadReader.skip, List.drop_append_of_le_length enough]

/-! ## Zeros at the end -/

/-- The reader of the same bytes with zeros behind them. -/
def padded (r : PayloadReader) (k : Nat) : PayloadReader := ⟨r.rest ++ List.replicate k 0⟩

theorem word_padded (r : PayloadReader) (k size : Nat) :
    (r.padded k).word size = r.word size := by
  rw [PayloadReader.word, PayloadReader.word, padded, List.take_append, List.take_replicate,
    Bytes.ofLittle_append_zeros]

theorem text_padded (r : PayloadReader) (k len : Nat) :
    (r.padded k).text len = r.text len := by
  have zeros : ∀ n, (List.replicate n (0 : UInt8)).takeWhile (· ≠ 0) = [] := by
    intro n
    cases n <;> rfl
  have same : ∀ (b : Bytes) n,
      (b ++ List.replicate n 0).takeWhile (· ≠ 0) = b.takeWhile (· ≠ 0) := by
    intro b n
    rw [List.takeWhile_append]
    split
    · next whole =>
      rw [zeros, List.append_nil, (List.takeWhile_prefix _).eq_of_length whole]
    · rfl
  rw [PayloadReader.text, PayloadReader.text, padded, List.take_append, List.take_replicate, same]

theorem skip_padded (r : PayloadReader) (k size : Nat) :
    ∃ j, (r.padded k).skip size = (r.skip size).padded j := by
  refine ⟨k - (size - r.rest.length), ?_⟩
  rw [PayloadReader.skip, PayloadReader.skip, padded, padded, List.drop_append, List.drop_replicate]

end PayloadReader
end Mavlink
