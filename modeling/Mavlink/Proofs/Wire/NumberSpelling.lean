import Mavlink.Wire.PayloadReader
import Mavlink.Wire.PayloadWriter

/-!
# Numbers in a payload

A number that was written into a payload is read from there as it was, if it is in the
range of its type.  A number of 64 bits that goes into a field of 32 bits is rounded, and
what is not a number stays so.

* `PayloadReader.word_little`, `intOfWord_wordOfInt` --- integers;
* `PayloadReader.double_little`, `PayloadReader.single_little` --- numbers in floating point;
* `Binary64.isNaN_widen_narrow` --- not-a-numbers.
-/

namespace Mavlink

/-! ## Integers -/

/-- Half of the words of a width stand for numbers without a sign. -/
theorem exists_half_pow {size : Nat} (pos : 0 < size) : ∃ half, Nat.pow 256 size = 2 * half := by
  obtain ⟨size, rfl⟩ := Nat.exists_eq_succ_of_ne_zero (Nat.ne_of_gt pos)
  refine ⟨128 * Nat.pow 256 size, ?_⟩
  show Nat.pow 256 size * 256 = _
  omega

/-- A signed integer in the range of its width is its word. -/
theorem intOfWord_wordOfInt {size : Nat} {n : Int} (pos : 0 < size)
    (low : -(Nat.pow 256 size / 2 : Int) ≤ n) (high : n ≤ Nat.pow 256 size / 2 - 1) :
    intOfWord size (wordOfInt size n) = n := by
  obtain ⟨half, even⟩ := exists_half_pow pos
  unfold intOfWord wordOfInt
  rw [even] at low high ⊢
  have twice : ((2 * half : Nat) : Int) = 2 * half := Int.natCast_mul 2 half
  rw [twice] at low high ⊢
  rcases Int.lt_or_le n 0 with negative | nonnegative
  · have word : n % (2 * half : Int) = n + 2 * half := by
      rw [← Int.add_emod_right]
      exact Int.emod_eq_of_lt (by omega) (by omega)
    rw [word, if_neg (by omega)]
    omega
  · have word : n % (2 * half : Int) = n := Int.emod_eq_of_lt nonnegative (by omega)
    rw [word, if_pos (by omega)]
    omega

/-- An unsigned integer in the range of its width is its word. -/
theorem wordOfInt_of_nonneg {size : Nat} {n : Int} (low : 0 ≤ n)
    (high : n ≤ (Nat.pow 256 size : Int) - 1) : wordOfInt size n = n.toNat := by
  rw [wordOfInt, Int.emod_eq_of_lt low (by omega)]

namespace PayloadReader

/-- A word is read from its spelling. -/
theorem word_little {size word : Nat} (fits : word < Nat.pow 256 size) :
    PayloadReader.word ⟨Bytes.little size word⟩ size = word := by
  rw [PayloadReader.word, List.take_of_length_le (Nat.le_of_eq (Bytes.length_little ..)),
    Bytes.ofLittle_little_of_lt fits]

/-! ## Numbers in floating point -/

theorem double_little (x : Binary64) : PayloadReader.double ⟨Bytes.little 8 x.bits.toNat⟩ = x := by
  have fits : x.bits.toNat < Nat.pow 256 8 := x.bits.toNat_lt
  rw [double, word_little fits, UInt64.ofNat_toNat]

theorem single_little (x : Binary32) : PayloadReader.single ⟨Bytes.little 4 x.bits.toNat⟩ = x := by
  have fits : x.bits.toNat < Nat.pow 256 4 := x.bits.toNat_lt
  rw [single, word_little fits, UInt32.ofNat_toNat]

end PayloadReader

namespace Binary.Format

variable {f : Format} {negative : Bool} {load : Nat}

/-- The parts of the bits of a quiet not-a-number: the sign, the exponent, and the rest. -/
theorem quiet_eq (f : Format) (negative : Bool) (load : Nat) :
    f.signBit negative + f.quiet + load
      = Nat.pow 2 f.fraction * (Nat.pow 2 f.exponent * negative.toNat + f.topExponent)
        + (Nat.pow 2 (f.fraction - 1) + load) := by
  have sign : f.signBit negative
      = Nat.pow 2 f.fraction * (Nat.pow 2 f.exponent * negative.toNat) := by
    have wide : Nat.pow 2 f.width = Nat.pow 2 f.fraction * Nat.pow 2 f.exponent :=
      Nat.pow_add ..
    unfold signBit
    cases negative with
    | false => rfl
    | true => rw [if_pos rfl, wide, Bool.toNat_true, Nat.mul_one]
  rw [sign, quiet, infinity, Nat.mul_add, Nat.mul_comm f.topExponent]
  omega

theorem two_mul_half (hf : 0 < f.fraction) :
    Nat.pow 2 f.fraction = 2 * Nat.pow 2 (f.fraction - 1) := by
  obtain ⟨n, hn⟩ := Nat.exists_eq_succ_of_ne_zero (Nat.ne_of_gt hf)
  rw [hn, Nat.succ_sub_one]
  show Nat.pow 2 n * 2 = _
  omega

/-- What is made of a not-a-number is one. -/
theorem decode_quiet (hf : 0 < f.fraction) (small : load < Nat.pow 2 (f.fraction - 1)) :
    f.decode (f.signBit negative + f.quiet + load)
      = .nan negative (Nat.pow 2 (f.fraction - 1) + load) := by
  have double := two_mul_half hf
  have pos : 0 < Nat.pow 2 f.fraction := Nat.pow_pos (by decide)
  have top : f.topExponent + 1 = Nat.pow 2 f.exponent :=
    Nat.sub_add_cancel (Nat.pow_pos (by decide))
  have wide : Nat.pow 2 f.width = Nat.pow 2 f.fraction * Nat.pow 2 f.exponent := Nat.pow_add ..
  have rest : Nat.pow 2 (f.fraction - 1) + load < Nat.pow 2 f.fraction := by omega
  have fraction : (f.signBit negative + f.quiet + load) % Nat.pow 2 f.fraction
      = Nat.pow 2 (f.fraction - 1) + load := by
    rw [quiet_eq f negative, Nat.mul_add_mod, Nat.mod_eq_of_lt rest]
  have upper : (f.signBit negative + f.quiet + load) / Nat.pow 2 f.fraction
      = Nat.pow 2 f.exponent * negative.toNat + f.topExponent := by
    rw [quiet_eq f negative, Nat.mul_add_div pos, Nat.div_eq_of_lt rest, Nat.add_zero]
  have exponent : (f.signBit negative + f.quiet + load) / Nat.pow 2 f.fraction
      % Nat.pow 2 f.exponent = f.topExponent := by
    rw [upper, Nat.mul_add_mod, Nat.mod_eq_of_lt (by omega)]
  have sign : (f.signBit negative + f.quiet + load) / Nat.pow 2 f.width = negative.toNat := by
    rw [wide, ← Nat.div_div_eq_div_mul, upper, Nat.mul_add_div (by omega),
      Nat.div_eq_of_lt (by omega), Nat.add_zero]
  have nonzero : Nat.pow 2 (f.fraction - 1) + load ≠ 0 := by omega
  unfold decode
  rw [exponent, fraction, sign]
  simp only [if_true, if_neg nonzero]
  cases negative <;> rfl

/-- A not-a-number becomes one of another format. -/
theorem decode_convert_nan (hf : 0 < f.fraction) (source : Format) (negative : Bool) (load : Nat) :
    ∃ load', f.convert source (.nan negative load) < 2 * Nat.pow 2 f.width ∧
      f.decode (f.convert source (.nan negative load)) = .nan negative load' := by
  have pos : 0 < Nat.pow 2 (f.fraction - 1) := Nat.pow_pos (by decide)
  have small := Nat.mod_lt (if source.fraction ≤ f.fraction
    then load * Nat.pow 2 (f.fraction - source.fraction)
    else load / Nat.pow 2 (source.fraction - f.fraction)) pos
  refine ⟨_, ?_, decode_quiet hf small⟩
  have double := two_mul_half hf
  have wide : Nat.pow 2 f.width = Nat.pow 2 f.fraction * Nat.pow 2 f.exponent := Nat.pow_add ..
  have top : f.topExponent + 1 = Nat.pow 2 f.exponent :=
    Nat.sub_add_cancel (Nat.pow_pos (by decide))
  have sign : negative.toNat ≤ 1 := Bool.toNat_le negative
  have upper : Nat.pow 2 f.exponent * negative.toNat + f.topExponent + 1
      ≤ 2 * Nat.pow 2 f.exponent := by
    have := Nat.mul_le_mul_left (Nat.pow 2 f.exponent) sign
    omega
  have scaled := Nat.mul_le_mul_left (Nat.pow 2 f.fraction) upper
  rw [Nat.mul_add, Nat.mul_one, Nat.mul_left_comm, ← wide] at scaled
  show f.signBit negative + f.quiet + _ < _
  rw [quiet_eq f negative]
  omega

end Binary.Format

open Binary

/-- **Not a number stays so** when it is rounded to 32 bits and read back. -/
theorem Binary64.isNaN_widen_narrow {x : Binary64} (h : x.isNaN = true) :
    x.narrow.widen.isNaN = true := by
  have isNaN_of : ∀ (y : Binary64) negative load, y.datum = .nan negative load →
      y.isNaN = true := by
    intro y negative load hy
    rw [isNaN, hy]
  obtain ⟨negative, load, hx⟩ : ∃ negative load, x.datum = .nan negative load := by
    unfold isNaN at h
    split at h
    · exact ⟨_, _, ‹_›⟩
    · cases h
  obtain ⟨load₁, small₁, narrowed⟩ := Format.decode_convert_nan (f := .single)
    (by decide) .double negative load
  have single : x.narrow.datum = .nan negative load₁ := by
    have fits : (Format.single.convert .double (.nan negative load)) < 2 ^ 32 := small₁
    rw [narrow, hx, Binary32.datum, UInt32.toNat_ofNat_of_lt' fits, narrowed]
  obtain ⟨load₂, small₂, widened⟩ := Format.decode_convert_nan (f := .double)
    (by decide) .single negative load₁
  refine isNaN_of _ negative load₂ ?_
  have fits : (Format.double.convert .single (.nan negative load₁)) < 2 ^ 64 := small₂
  rw [Binary32.widen, single, ofNatBits, datum, UInt64.toNat_ofNat_of_lt' fits, widened]

end Mavlink
