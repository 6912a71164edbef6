import Mathlib
import Mavlink.Proofs.Binary.Widening

/-!
# Rounding to the nearest

A ratio is rounded to the nearest whole number, and to the nearest datum of a format by rounding
what is left of it when a power of two is taken out.  That power is chosen so that the whole number
has one bit more than a fraction, or is that of the smallest numbers; a datum that is written with
another power is then no nearer, because it is a whole number in terms of this one, or because it
stands below all that have the leading bit.

* `roundEven_spec`, `roundEven_eq` --- the nearest whole number, and the even one of two;
* `leading_spec` --- the power of the leading bit;
* `Format.exists_nearest` --- no datum is nearer than the nearest;
* `Format.double_value_le`, `Format.double_gap` --- what is stored with 64 bits is limited, and
  what is too large to be stored is far from it.
-/

namespace Mavlink.Binary

/-! ## Whole numbers -/

section Whole

variable {num den : Nat}

/-- **The nearest whole number** is at most a half away, and even if it is a half away. -/
theorem roundEven_spec (num : Nat) (pos : 0 < den) :
    |(num : ℚ) / den - roundEven num den| ≤ 1 / 2 ∧
      (|(num : ℚ) / den - roundEven num den| = 1 / 2 → Even (roundEven num den)) := by
  have den_pos : (0 : ℚ) < den := Nat.cast_pos.2 pos
  have split : (num : ℚ) / den = (num / den : Nat) + ((num % den : Nat) : ℚ) / den := by
    rw [div_eq_iff den_pos.ne', add_mul, div_mul_cancel₀ _ den_pos.ne']
    exact_mod_cast (Nat.div_add_mod' num den).symm
  have rest_nonneg : 0 ≤ ((num % den : Nat) : ℚ) / den := by positivity
  have below_half : 2 * (num % den) < den ↔ ((num % den : Nat) : ℚ) / den < 1 / 2 := by
    rw [div_lt_div_iff₀ den_pos two_pos, ← Nat.cast_lt (α := ℚ)]
    push_cast
    rw [one_mul, mul_comm]
  have above_half : den < 2 * (num % den) ↔ 1 / 2 < ((num % den : Nat) : ℚ) / den := by
    rw [div_lt_div_iff₀ two_pos den_pos, ← Nat.cast_lt (α := ℚ)]
    push_cast
    rw [one_mul, mul_comm]
  have rest_lt : ((num % den : Nat) : ℚ) / den < 1 := by
    rw [div_lt_one den_pos, Nat.cast_lt]
    exact Nat.mod_lt num pos
  simp only [roundEven, below_half, above_half]
  rw [split]
  generalize ((num % den : Nat) : ℚ) / den = rest at *
  split_ifs with low high
  · rw [add_sub_cancel_left, abs_of_nonneg rest_nonneg]
    exact ⟨low.le, fun half => absurd half low.ne⟩
  · have away : |((num / den : Nat) : ℚ) + rest - (num / den + 1 : Nat)| = 1 - rest := by
      rw [Nat.cast_succ, add_sub_add_left_eq_sub, abs_sub_comm, abs_of_nonneg (by linarith)]
    rw [away]
    exact ⟨by linarith, fun half => by linarith⟩
  · have half : rest = 1 / 2 := le_antisymm (not_lt.1 high) (not_lt.1 low)
    have even : Even (num / den + num / den % 2) := by
      rw [Nat.even_iff]
      omega
    refine ⟨?_, fun _ => even⟩
    rcases Nat.mod_two_eq_zero_or_one (num / den) with parity | parity <;>
      rw [parity, half] <;> push_cast <;> norm_num

/-- A whole number that is nearer than a half, or that is even and a half away, is the one. -/
theorem roundEven_eq (pos : 0 < den) {n : Nat} (near : |(num : ℚ) / den - n| ≤ 1 / 2)
    (tie : |(num : ℚ) / den - n| = 1 / 2 → Even n) : roundEven num den = n := by
  obtain ⟨own_near, own_tie⟩ := roundEven_spec num pos
  by_contra other
  generalize (num : ℚ) / den = t at *
  generalize roundEven num den = r at *
  have apart : 1 ≤ |(r : ℚ) - n| := by
    have apart : (1 : ℤ) ≤ |(r : ℤ) - n| :=
      Int.one_le_abs (sub_ne_zero.2 (by exact_mod_cast other))
    exact_mod_cast apart
  have triangle : |(r : ℚ) - n| ≤ |t - r| + |t - n| := by
    rw [abs_sub_comm t r]
    exact abs_sub_le _ _ _
  -- both are a half away, so both are even, and one apart
  obtain ⟨a, rfl⟩ := own_tie (by linarith)
  obtain ⟨b, rfl⟩ := tie (by linarith)
  have close : |((a + a : Nat) : ℚ) - (b + b : Nat)| ≤ 1 := by linarith
  have close : |((a + a : Nat) : ℤ) - (b + b : Nat)| ≤ 1 := by exact_mod_cast close
  rw [abs_le] at close
  omega

/-- No whole number is nearer. -/
theorem abs_roundEven_sub_le (num : Nat) (pos : 0 < den) (n : Nat) :
    |(roundEven num den : ℚ) - (num : ℚ) / den| ≤ |(n : ℚ) - (num : ℚ) / den| := by
  obtain ⟨near, -⟩ := roundEven_spec num pos
  by_cases same : n = roundEven num den
  · rw [same]
  generalize (num : ℚ) / den = t at *
  generalize roundEven num den = r at *
  have apart : 1 ≤ |(n : ℚ) - r| := by
    have apart : (1 : ℤ) ≤ |(n : ℤ) - r| := Int.one_le_abs (sub_ne_zero.2 (by exact_mod_cast same))
    exact_mod_cast apart
  have triangle : |(n : ℚ) - r| ≤ |n - t| + |t - r| := abs_sub_le _ _ _
  rw [abs_sub_comm]
  linarith

end Whole

/-- Rounding stays above every whole number that the ratio stays above. -/
theorem le_roundEven {num den q : Nat} (pos : 0 < den) (h : q * den ≤ num) :
    q ≤ roundEven num den := by
  have floor : q ≤ num / den := (Nat.le_div_iff_mul_le pos).2 h
  unfold roundEven
  simp only
  split_ifs <;> omega

/-! ## Powers of two -/

theorem scaled_snd_pos (num : Nat) {den : Nat} (pos : 0 < den) (power : Int) :
    0 < (scaled num den power).2 :=
  Nat.mul_pos pos (Nat.two_pow_pos _)

theorem scaled_ratio (num den : Nat) (power : Int) :
    ((scaled num den power).1 : ℚ) / (scaled num den power).2 = num / den / 2 ^ power := by
  simp only [scaled, Nat.pow_eq]
  push_cast
  rcases power.eq_nat_or_neg with ⟨n, rfl | rfl⟩
  · rw [Int.toNat_natCast, Int.toNat_neg_natCast, zpow_natCast, pow_zero, mul_one, div_div]
  · rw [neg_neg, Int.toNat_natCast, Int.toNat_neg_natCast, zpow_neg, zpow_natCast, pow_zero,
      mul_one, div_inv_eq_mul, div_mul_eq_mul_div]

/-- A whole number times a power of two, as a ratio. -/
theorem whole_ratio (m : Nat) (e : Int) :
    ((m * 2 ^ e.toNat : Nat) : ℚ) / (2 ^ (-e).toNat : Nat) = m * 2 ^ e := by
  have same := scaled_ratio m 1 (-e)
  rw [scaled_whole] at same
  rw [same, zpow_neg, div_inv_eq_mul, Nat.cast_one, div_one]

theorem two_pow_log2_le {n : Nat} (pos : 0 < n) : (2 : ℚ) ^ (n.log2 : ℤ) ≤ n := by
  rw [zpow_natCast]
  exact_mod_cast Nat.log2_self_le pos.ne'

theorem lt_two_pow_log2 (n : Nat) : (n : ℚ) < 2 ^ ((n.log2 : ℤ) + 1) := by
  have above : n < 2 ^ (n.log2 + 1) := Nat.lt_log2_self
  exact_mod_cast above

section Leading

variable {num den : Nat}

/-- The leading bit of a ratio is at a power of two that it reaches, and the next is not. -/
theorem leading_spec (num_pos : 0 < num) (den_pos : 0 < den) :
    (2 : ℚ) ^ leading num den ≤ num / den ∧ (num : ℚ) / den < 2 ^ (leading num den + 1) := by
  have den_pos' : (0 : ℚ) < den := Nat.cast_pos.2 den_pos
  have power_pos (e : ℤ) : (0 : ℚ) < 2 ^ e := zpow_pos two_pos e
  have above_guess : (num : ℚ) / den < 2 ^ ((num.log2 : ℤ) - den.log2 + 1) := by
    rw [div_lt_iff₀ den_pos']
    calc (num : ℚ) < 2 ^ ((num.log2 : ℤ) + 1) := lt_two_pow_log2 num
      _ = 2 ^ ((num.log2 : ℤ) - den.log2 + 1) * 2 ^ (den.log2 : ℤ) := by
        rw [← zpow_add₀ two_ne_zero]
        congr 1
        omega
      _ ≤ _ := mul_le_mul_of_nonneg_left (two_pow_log2_le den_pos) (power_pos _).le
  have below_guess : 2 ^ ((num.log2 : ℤ) - den.log2 - 1) ≤ (num : ℚ) / den := by
    rw [le_div_iff₀ den_pos']
    calc (2 : ℚ) ^ ((num.log2 : ℤ) - den.log2 - 1) * den
        ≤ 2 ^ ((num.log2 : ℤ) - den.log2 - 1) * 2 ^ ((den.log2 : ℤ) + 1) :=
          mul_le_mul_of_nonneg_left (lt_two_pow_log2 den).le (power_pos _).le
      _ = 2 ^ (num.log2 : ℤ) := by
        rw [← zpow_add₀ two_ne_zero]
        congr 1
        omega
      _ ≤ num := two_pow_log2_le num_pos
  generalize guess : (num.log2 : ℤ) - den.log2 = g at *
  have missed : (scaled num den g).1 < (scaled num den g).2 ↔ (num : ℚ) / den < 2 ^ g := by
    have scaled_pos : (0 : ℚ) < (scaled num den g).2 := Nat.cast_pos.2 (scaled_snd_pos num den_pos g)
    rw [← Nat.cast_lt (α := ℚ), ← div_lt_one scaled_pos, scaled_ratio, div_lt_one (power_pos g)]
  simp only [leading, guess, missed]
  split_ifs with low
  · rw [sub_add_cancel]
    exact ⟨below_guess, low⟩
  · exact ⟨not_lt.1 low, above_guess⟩

end Leading

/-! ## Data of a format -/

namespace Format

/-- The magnitude of a datum with the significand `m`, at the power `k` above the least. -/
def value (f : Format) (m k : Nat) : ℚ := m * 2 ^ (f.leastPower + k)

/-- A significand of the right length: what `f.Stores` says but for the limit. -/
structure Fits (f : Format) (m k : Nat) : Prop where
  short : m < 2 ^ (f.fraction + 1)
  leading_bit : k ≠ 0 → 2 ^ f.fraction ≤ m

theorem Stores.fits {f : Format} {m k : Nat} (h : f.Stores m k) : f.Fits m k :=
  ⟨h.short, h.leading_bit⟩

variable {f : Format}

/-- What is written with another power is no nearer than a whole number in terms of this one. -/
theorem abs_roundEven_le_of_fits {num den K m k : Nat} (den_pos : 0 < den)
    (reached : K ≠ 0 → (2 : ℚ) ^ f.fraction ≤ num / den) (h : f.Fits m k) :
    |(roundEven num den : ℚ) - num / den| ≤ |m * 2 ^ ((k : ℤ) - K) - (num : ℚ) / den| := by
  by_cases coarse : K ≤ k
  · have whole : (m : ℚ) * 2 ^ ((k : ℤ) - K) = (m * 2 ^ (k - K) : Nat) := by
      rw [← Nat.cast_sub coarse, zpow_natCast]
      push_cast
      rfl
    rw [whole]
    exact abs_roundEven_sub_le _ den_pos _
  · have reached := reached (by omega)
    -- it stands below the least whole number with the leading bit, which the ratio reaches
    have below : (m : ℚ) * 2 ^ ((k : ℤ) - K) ≤ 2 ^ f.fraction := by
      have short : (m : ℚ) ≤ 2 ^ (f.fraction + 1) := by exact_mod_cast h.short.le
      have half : (2 : ℚ) ^ ((k : ℤ) - K) ≤ 2 ^ (-1 : ℤ) :=
        zpow_le_zpow_right₀ one_le_two (by omega)
      calc (m : ℚ) * 2 ^ ((k : ℤ) - K) ≤ 2 ^ (f.fraction + 1) * 2 ^ (-1 : ℤ) :=
            mul_le_mul short half (by positivity) (by positivity)
        _ = 2 ^ f.fraction := by rw [pow_succ]; ring
    have nearest := abs_roundEven_sub_le num den_pos (2 ^ f.fraction)
    push_cast at nearest
    refine nearest.trans ?_
    rw [abs_of_nonpos (by linarith), abs_of_nonpos (by linarith)]
    linarith

theorem nearest_zero (f : Format) (den : Nat) : f.nearest 0 den = 0 := if_pos rfl

/-- **The nearest datum**: its significand fits, unless it is infinity instead, and no datum is
nearer to the ratio. -/
theorem exists_nearest (f : Format) (num : Nat) {den : Nat} (den_pos : 0 < den) :
    ∃ m k, f.Fits m k ∧
    f.nearest num den = min (k * 2 ^ f.fraction + m) f.infinity ∧
    ∀ m' k', f.Fits m' k' → |f.value m k - num / den| ≤ |f.value m' k' - num / den| := by
  by_cases zero : num = 0
  · subst zero
    refine ⟨0, 0, ⟨Nat.two_pow_pos _, fun h => absurd rfl h⟩, ?_, fun m' k' _ => ?_⟩
    · rw [nearest_zero]
      simp
    · rw [value, Nat.cast_zero, zero_mul, zero_div, sub_zero, abs_zero]
      exact abs_nonneg _
  obtain ⟨reached, unreached⟩ := leading_spec (Nat.pos_of_ne_zero zero) den_pos
  obtain ⟨K, power⟩ : ∃ K : Nat,
      max (leading num den - f.fraction) f.leastPower = f.leastPower + K :=
    ⟨(max (leading num den - f.fraction) f.leastPower - f.leastPower).toNat, by omega⟩
  have power_pos : (0 : ℚ) < 2 ^ (f.leastPower + K) := zpow_pos two_pos _
  set n := (scaled num den (f.leastPower + K)).1 with n_def
  set d := (scaled num den (f.leastPower + K)).2 with d_def
  have d_pos : 0 < d := scaled_snd_pos num den_pos _
  have ratio : (n : ℚ) / d = num / den / 2 ^ (f.leastPower + K) := scaled_ratio num den _
  have bits : f.nearest num den = min (K * 2 ^ f.fraction + roundEven n d) f.infinity := by
    rw [nearest, if_neg zero, power]
    show min ((f.leastPower + K - f.leastPower).toNat * 2 ^ f.fraction + roundEven n d) _ = _
    rw [add_sub_cancel_left, Int.toNat_natCast]
  have low : K ≠ 0 → (2 : ℚ) ^ f.fraction ≤ n / d := by
    intro above
    have exact_power : f.leastPower + K = leading num den - f.fraction := by omega
    rw [ratio, le_div_iff₀ power_pos, exact_power, ← zpow_natCast, ← zpow_add₀ two_ne_zero,
      add_sub_cancel]
    exact reached
  have high : n ≤ 2 ^ (f.fraction + 1) * d := by
    have within : (n : ℚ) / d ≤ 2 ^ (f.fraction + 1) := by
      rw [ratio, div_le_iff₀ power_pos, ← zpow_natCast, ← zpow_add₀ two_ne_zero]
      refine unreached.le.trans (zpow_le_zpow_right₀ one_le_two ?_)
      push_cast
      omega
    rw [div_le_iff₀ (Nat.cast_pos.2 d_pos)] at within
    exact_mod_cast within
  have low_bit : K ≠ 0 → 2 ^ f.fraction ≤ roundEven n d := by
    intro above
    have low := low above
    rw [le_div_iff₀ (Nat.cast_pos.2 d_pos)] at low
    exact le_roundEven d_pos (by exact_mod_cast low)
  have nearer (m' k' : Nat) (fits : f.Fits m' k') :
      |f.value (roundEven n d) K - num / den| ≤ |f.value m' k' - num / den| := by
    have scale (m k : Nat) : f.value m k - num / den
        = 2 ^ (f.leastPower + K) * (m * 2 ^ ((k : ℤ) - K) - n / d) := by
      rw [ratio, mul_sub, mul_div_cancel₀ _ power_pos.ne', mul_left_comm, ← zpow_add₀ two_ne_zero,
        value]
      congr 3
      omega
    have here := abs_roundEven_le_of_fits d_pos low fits
    rw [scale, scale, abs_mul, abs_mul, sub_self, zpow_zero, mul_one]
    exact mul_le_mul_of_nonneg_left here (abs_nonneg _)
  by_cases carried : roundEven n d < 2 ^ (f.fraction + 1)
  · exact ⟨roundEven n d, K, ⟨carried, low_bit⟩, bits, nearer⟩
  · -- the significand has become one bit too long, and the next power takes it
    have full : roundEven n d = 2 ^ f.fraction * 2 := by
      rw [← Nat.pow_succ]
      exact Nat.le_antisymm (roundEven_le d_pos high) (Nat.not_lt.1 carried)
    have same_value : f.value (2 ^ f.fraction) (K + 1) = f.value (roundEven n d) K := by
      rw [value, value, full, Nat.cast_succ, ← add_assoc, zpow_add_one₀ two_ne_zero]
      push_cast
      ring
    refine ⟨2 ^ f.fraction, K + 1, ⟨Nat.pow_lt_pow_succ (by decide), fun _ => le_rfl⟩, ?_, ?_⟩
    · rw [bits, full]
      congr 1
      ring
    · rw [same_value]
      exact nearer

/-! ### 64 bits -/

/-- The largest magnitude that is stored with 64 bits. -/
theorem double_value_le {m k : Nat} (h : double.Stores m k) :
    double.value m k ≤ (2 ^ 53 - 1) * 2 ^ (971 : ℤ) := by
  have short : m < 2 ^ 53 := h.short
  have finite : k * 2 ^ 52 + m < 2047 * 2 ^ 52 := h.finite
  have leading_bit : k ≠ 0 → 2 ^ 52 ≤ m := h.leading_bit
  have least : double.leastPower = -1074 := rfl
  have whole : (m : ℚ) ≤ 2 ^ 53 - 1 := by
    rw [le_sub_iff_add_le]
    exact_mod_cast short
  refine mul_le_mul whole ?_ (by positivity) (by norm_num)
  exact zpow_le_zpow_right₀ one_le_two (by rw [least]; omega)

/-- What is too large to be stored with 64 bits is far from all that is stored. -/
theorem double_gap {m k m' k' : Nat} (h : double.Stores m k) (fits : double.Fits m' k')
    (large : double.infinity ≤ k' * 2 ^ double.fraction + m') :
    double.value m k + 1 < double.value m' k' := by
  have short : m' < 2 ^ 53 := fits.short
  have large : 2047 * 2 ^ 52 ≤ k' * 2 ^ 52 + m' := large
  have least : double.leastPower = -1074 := rfl
  have lower : 2 ^ 52 * (2 ^ (971 : ℤ) * 2) ≤ double.value m' k' := by
    have leading_bit : 2 ^ 52 ≤ m' := fits.leading_bit (by omega)
    have whole : (2 : ℚ) ^ 52 ≤ m' := by exact_mod_cast leading_bit
    rw [← zpow_add_one₀ two_ne_zero]
    refine mul_le_mul whole ?_ (by positivity) (by positivity)
    exact zpow_le_zpow_right₀ one_le_two (by rw [least]; omega)
  have upper := double_value_le h
  have last_place : (1 : ℚ) < 2 ^ (971 : ℤ) := one_lt_zpow₀ one_lt_two (by decide)
  generalize (2 : ℚ) ^ (971 : ℤ) = place at *
  linarith

end Format

end Mavlink.Binary
