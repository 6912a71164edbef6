import Mathlib
import Mavlink.Binary

/-!
# Widening

Every number of 32 bits is a number of 64 bits.  Its significand has fewer bits and its
exponent is nearer to zero, so nothing is rounded when it is widened, and when it is narrowed
again it is what it was.

One number can be written as a whole number times a power of two in many ways; `SameRatio`
relates them.  One of these is the way in which a format stores the number (`Format.Stores`),
and rounding finds it.

* `Format.stores_of_decode`, `Format.decode_of_stores` --- a finite datum and its bits;
* `Format.convert_of_stores` --- rounding is exact where there is nothing to round;
* `Binary32.narrow_widen` --- widening loses nothing;
* `Binary32.exceedsSingle_widen` --- and does not leave the numbers of 32 bits;
* `Binary64.exceedsSingle_ofInt` --- nor does an integer of 64 bits.
-/

namespace Mavlink

namespace Binary

/-! ## Whole numbers times powers of two -/

/-- Two ways to write one number as a whole number times a power of two. -/
def SameRatio (m : Nat) (e : Int) (m' : Nat) (e' : Int) : Prop :=
  m * 2 ^ (e.toNat + (-e').toNat) = m' * 2 ^ (e'.toNat + (-e).toNat)

theorem log2_mul_two_pow {m : Nat} (pos : m ≠ 0) (s : Nat) : (m * 2 ^ s).log2 = m.log2 + s := by
  have nonzero : m * 2 ^ s ≠ 0 := Nat.mul_ne_zero pos (Nat.ne_of_gt (Nat.two_pow_pos s))
  rw [Nat.log2_eq_iff nonzero, Nat.pow_add, Nat.add_right_comm, Nat.pow_add]
  exact ⟨Nat.mul_le_mul_right _ (Nat.log2_self_le pos),
    Nat.mul_lt_mul_of_pos_right Nat.lt_log2_self (Nat.two_pow_pos s)⟩

namespace SameRatio

variable {m m' : Nat} {e e' : Int}

theorem symm (h : SameRatio m e m' e') : SameRatio m' e' m e := Eq.symm h

/-- A significand with zeros behind it. -/
theorem shifted (m s : Nat) (e : Int) : SameRatio (m * 2 ^ s) (e - s) m e := by
  rw [SameRatio, Nat.mul_assoc, ← Nat.pow_add]
  congr 2
  omega

theorem ne_zero (h : SameRatio m e m' e') (pos : m' ≠ 0) : m ≠ 0 := by
  rintro rfl
  rw [SameRatio, Nat.zero_mul] at h
  exact Nat.mul_ne_zero pos (Nat.ne_of_gt (Nat.two_pow_pos _)) h.symm

theorem eq_zero (h : SameRatio m e 0 e') : m = 0 := by
  rw [SameRatio, Nat.zero_mul] at h
  exact (Nat.mul_eq_zero.1 h).resolve_right (Nat.ne_of_gt (Nat.two_pow_pos _))

/-- The leading bit stands at the same power. -/
theorem log2_eq (h : SameRatio m e m' e') (pos : m' ≠ 0) : m.log2 + e = m'.log2 + e' := by
  have logs := congrArg Nat.log2 h
  rw [log2_mul_two_pow (h.ne_zero pos), log2_mul_two_pow pos] at logs
  omega

end SameRatio

/-- A whole number times a power of two, as a ratio. -/
theorem scaled_whole (m : Nat) (e : Int) :
    scaled m 1 (-e) = (m * 2 ^ e.toNat, 2 ^ (-e).toNat) := by
  rw [scaled, Int.neg_neg, Nat.one_mul]
  rfl

/-- The leading bit of a whole number times a power of two. -/
theorem leading_whole {m : Nat} (pos : m ≠ 0) (e : Int) :
    leading (m * 2 ^ e.toNat) (2 ^ (-e).toNat) = m.log2 + e := by
  have guess : ((m * 2 ^ e.toNat).log2 : Int) - (2 ^ (-e).toNat).log2 = m.log2 + e := by
    rw [log2_mul_two_pow pos, Nat.log2_two_pow]
    omega
  have reached : ¬ (scaled (m * 2 ^ e.toNat) (2 ^ (-e).toNat) (m.log2 + e)).1
      < (scaled (m * 2 ^ e.toNat) (2 ^ (-e).toNat) (m.log2 + e)).2 := by
    rw [Nat.not_lt, scaled, Nat.pow_eq, Nat.pow_eq, ← Nat.pow_add, Nat.mul_assoc, ← Nat.pow_add]
    calc 2 ^ ((-e).toNat + (m.log2 + e).toNat)
        = 2 ^ m.log2 * 2 ^ (e.toNat + (-(m.log2 + e)).toNat) := by
          rw [← Nat.pow_add]
          congr 1
          omega
      _ ≤ _ := Nat.mul_le_mul_right _ (Nat.log2_self_le pos)
  rw [leading, guess]
  exact if_neg reached

theorem roundEven_mul (m : Nat) {d : Nat} (pos : 0 < d) : roundEven (m * d) d = m := by
  rw [roundEven, Nat.mul_mod_left, Nat.mul_div_cancel m pos]
  exact if_pos pos

/-- Rounding stays below every whole number that the ratio stays below. -/
theorem roundEven_le {num den q : Nat} (pos : 0 < den) (h : num ≤ q * den) :
    roundEven num den ≤ q := by
  have split := Nat.div_add_mod num den
  have floor_le : num / den ≤ q := Nat.div_le_of_le_mul (by rwa [Nat.mul_comm])
  have above : num % den ≠ 0 → num / den + 1 ≤ q := by
    intro rest
    by_contra full
    obtain rfl : q = num / den := by omega
    rw [Nat.mul_comm] at h
    omega
  have parity : num / den % 2 ≤ 1 := by omega
  unfold roundEven
  simp only
  split
  · exact floor_le
  · split
    · exact above (by omega)
    · exact Nat.le_trans (Nat.add_le_add_left parity _) (above (by omega))

/-! ## The bits of a datum -/

namespace Format

variable {f : Format} {m k : Nat}

/-- The significand `m` and the power `f.leastPower + k` are those of a finite datum, and the
one pair among those of the same number by which a datum is stored. -/
structure Stores (f : Format) (m k : Nat) : Prop where
  short : m < 2 ^ (f.fraction + 1)
  /-- Only the smallest numbers have no leading bit. -/
  leading_bit : k ≠ 0 → 2 ^ f.fraction ≤ m
  finite : k * 2 ^ f.fraction + m < f.infinity

theorem nearest_of_stores_pos (h : f.Stores m k) {m' : Nat} {e' : Int}
    (same : SameRatio m' e' m (f.leastPower + k)) (pos : m ≠ 0) :
    f.nearest (m' * 2 ^ e'.toNat) (2 ^ (-e').toNat) = k * 2 ^ f.fraction + m := by
  have nonzero : m' * 2 ^ e'.toNat ≠ 0 :=
    Nat.mul_ne_zero (same.ne_zero pos) (Nat.ne_of_gt (Nat.two_pow_pos _))
  have power : max (leading (m' * 2 ^ e'.toNat) (2 ^ (-e').toNat) - f.fraction) f.leastPower
      = f.leastPower + k := by
    have log_lt : m.log2 < f.fraction + 1 := (Nat.log2_lt pos).2 h.short
    have log_eq : k ≠ 0 → f.fraction ≤ m.log2 := fun hk => (Nat.le_log2 pos).2 (h.leading_bit hk)
    rw [leading_whole (same.ne_zero pos), same.log2_eq pos]
    omega
  have exact_ratio : scaled (m' * 2 ^ e'.toNat) (2 ^ (-e').toNat) (f.leastPower + k)
      = (m * 2 ^ ((f.leastPower + k).toNat + (-e').toNat),
        2 ^ ((f.leastPower + k).toNat + (-e').toNat)) := by
    rw [scaled, ← same, Nat.pow_eq, Nat.pow_eq, Nat.mul_assoc, ← Nat.pow_add, ← Nat.pow_add,
      Nat.add_comm (-e').toNat]
  rw [nearest, if_neg nonzero, power]
  simp only [exact_ratio]
  show min ((f.leastPower + k - f.leastPower).toNat * 2 ^ f.fraction + roundEven _ _) _ = _
  rw [roundEven_mul m (Nat.two_pow_pos _), add_sub_cancel_left, Int.toNat_natCast]
  exact Nat.min_eq_left (Nat.le_of_lt h.finite)

/-- **Where there is nothing to round, the nearest datum is the number.** -/
theorem convert_of_stores (h : f.Stores m k) {m' : Nat} {e' : Int}
    (same : SameRatio m' e' m (f.leastPower + k)) (source : Format) (negative : Bool) :
    f.convert source (.finite negative m' e')
      = f.signBit negative + (k * 2 ^ f.fraction + m) := by
  have nearest : f.nearest (m' * 2 ^ e'.toNat) (2 ^ (-e').toNat) = k * 2 ^ f.fraction + m := by
    by_cases pos : m = 0
    · subst pos
      obtain rfl : m' = 0 := same.eq_zero
      obtain rfl : k = 0 := by
        by_contra nonzero
        exact Nat.not_le.2 (Nat.two_pow_pos _) (h.leading_bit nonzero)
      rw [Nat.zero_mul, Nat.zero_mul]
      rfl
    · exact nearest_of_stores_pos h same pos
  simp only [convert, scaled_whole, nearest]

/-- The bits of a sign, an exponent field and a fraction. -/
def pack (f : Format) (negative : Bool) (exponent fraction : Nat) : Nat :=
  f.signBit negative + (exponent * 2 ^ f.fraction + fraction)

/-- What is said by a sign, an exponent field and a fraction. -/
def unpack (f : Format) (negative : Bool) (exponent fraction : Nat) : Datum :=
  if exponent = f.topExponent then
    if fraction = 0 then .infinite negative else .nan negative fraction
  else if exponent = 0 then .finite negative fraction f.leastPower
  else .finite negative (2 ^ f.fraction + fraction) (f.leastPower + (exponent - 1 : Nat))

theorem decode_pack (f : Format) (negative : Bool) {exponent fraction : Nat}
    (he : exponent < 2 ^ f.exponent) (hf : fraction < 2 ^ f.fraction) :
    f.decode (f.pack negative exponent fraction) = f.unpack negative exponent fraction := by
  have whole : f.pack negative exponent fraction
      = (negative.toNat * 2 ^ f.exponent + exponent) * 2 ^ f.fraction + fraction := by
    cases negative
    · simp [pack, signBit]
    · simp [pack, signBit, width, pow_add]
      ring
  have low : f.pack negative exponent fraction % 2 ^ f.fraction = fraction := by
    rw [whole, Nat.mul_add_mod', Nat.mod_eq_of_lt hf]
  have high : f.pack negative exponent fraction / 2 ^ f.fraction
      = negative.toNat * 2 ^ f.exponent + exponent := by
    rw [whole, Nat.mul_comm, Nat.mul_add_div (Nat.two_pow_pos _), Nat.div_eq_of_lt hf, Nat.add_zero]
  have middle : f.pack negative exponent fraction / 2 ^ f.fraction % 2 ^ f.exponent = exponent := by
    rw [high, Nat.mul_add_mod', Nat.mod_eq_of_lt he]
  have top : f.pack negative exponent fraction / 2 ^ f.width = negative.toNat := by
    rw [width, Nat.pow_add, ← Nat.div_div_eq_div_mul, high, Nat.mul_comm,
      Nat.mul_add_div (Nat.two_pow_pos _), Nat.div_eq_of_lt he, Nat.add_zero]
  have sign : decide (f.pack negative exponent fraction / 2 ^ f.width % 2 = 1) = negative := by
    rw [top]
    cases negative <;> rfl
  simp only [decode, unpack, Nat.pow_eq, low, middle, sign]

/-- Whatever bits there are, they are of a sign, an exponent field and a fraction. -/
theorem exists_pack (f : Format) {bits : Nat} (h : bits < 2 ^ (f.width + 1)) :
    ∃ negative exponent fraction, exponent < 2 ^ f.exponent ∧ fraction < 2 ^ f.fraction ∧
      bits = f.pack negative exponent fraction := by
  refine ⟨decide (2 ^ f.width ≤ bits), bits / 2 ^ f.fraction % 2 ^ f.exponent,
    bits % 2 ^ f.fraction, Nat.mod_lt _ (Nat.two_pow_pos _), Nat.mod_lt _ (Nat.two_pow_pos _), ?_⟩
  have split : bits % 2 ^ f.width
      = bits / 2 ^ f.fraction % 2 ^ f.exponent * 2 ^ f.fraction + bits % 2 ^ f.fraction := by
    rw [width, Nat.pow_add, Nat.mod_mul, Nat.mul_comm, Nat.add_comm]
  rw [pack, ← split, signBit]
  rw [Nat.pow_succ] at h
  by_cases high : 2 ^ f.width ≤ bits
  · rw [if_pos (by simpa using high), Nat.mod_eq_sub_mod high, Nat.mod_eq_of_lt (by omega),
      Nat.pow_eq]
    omega
  · rw [if_neg (by simpa using high), Nat.mod_eq_of_lt (Nat.not_le.1 high), Nat.zero_add]

/-- The exponent field and the fraction of what is stored. -/
theorem exists_unpack_of_stores (h : f.Stores m k) :
    ∃ exponent fraction, exponent < f.topExponent ∧ fraction < 2 ^ f.fraction ∧
      exponent * 2 ^ f.fraction + fraction = k * 2 ^ f.fraction + m ∧
      ∀ negative, f.unpack negative exponent fraction = .finite negative m (f.leastPower + k) := by
  obtain ⟨short, leading_bit, finite⟩ := h
  rw [Nat.pow_succ] at short
  have below_top : ∀ x, x * 2 ^ f.fraction ≤ k * 2 ^ f.fraction + m → x < f.topExponent :=
    fun x le => Nat.lt_of_mul_lt_mul_right (Nat.lt_of_le_of_lt le finite)
  by_cases small : m < 2 ^ f.fraction
  · obtain rfl : k = 0 := by
      by_contra pos
      exact Nat.not_le.2 small (leading_bit pos)
    have zero_lt : 0 < f.topExponent := below_top 0 (by omega)
    refine ⟨0, m, zero_lt, small, rfl, fun negative => ?_⟩
    rw [unpack, if_neg (Nat.ne_of_lt zero_lt), if_pos rfl, Nat.cast_zero, Int.add_zero]
  · have succ_lt : k + 1 < f.topExponent := below_top (k + 1) (by rw [Nat.succ_mul]; omega)
    refine ⟨k + 1, m - 2 ^ f.fraction, succ_lt, by omega, by rw [Nat.succ_mul]; omega,
      fun negative => ?_⟩
    rw [unpack, if_neg (Nat.ne_of_lt succ_lt), if_neg (Nat.succ_ne_zero k),
      Nat.add_sub_cancel' (Nat.not_lt.1 small), Nat.add_sub_cancel]

theorem topExponent_lt (f : Format) : f.topExponent < 2 ^ f.exponent :=
  Nat.sub_lt (Nat.two_pow_pos _) Nat.one_pos

/-- What is stored is what the bits say. -/
theorem decode_of_stores (h : f.Stores m k) (negative : Bool) :
    f.decode (f.signBit negative + (k * 2 ^ f.fraction + m))
      = .finite negative m (f.leastPower + k) := by
  obtain ⟨exponent, fraction, he, hf, same, told⟩ := exists_unpack_of_stores h
  rw [← same, ← told negative]
  exact decode_pack f negative (Nat.lt_trans he f.topExponent_lt) hf

/-- What is finite is stored as such. -/
theorem stores_of_unpack {negative s : Bool} {exponent fraction : Nat} {e : Int}
    (he : exponent < 2 ^ f.exponent) (hf : fraction < 2 ^ f.fraction)
    (h : f.unpack negative exponent fraction = .finite s m e) :
    ∃ k, f.Stores m k ∧ e = f.leastPower + k ∧
      f.pack negative exponent fraction = f.signBit s + (k * 2 ^ f.fraction + m) := by
  unfold unpack at h
  split at h
  · split at h <;> cases h
  · next not_top =>
    have below : exponent + 1 ≤ f.topExponent := by
      rw [topExponent, Nat.pow_eq] at not_top ⊢
      omega
    have finite : exponent * 2 ^ f.fraction + fraction < f.infinity :=
      calc exponent * 2 ^ f.fraction + fraction < (exponent + 1) * 2 ^ f.fraction := by
            rw [Nat.succ_mul]; omega
        _ ≤ f.infinity := Nat.mul_le_mul_right _ below
    split at h
    · next zero =>
      cases h
      subst zero
      refine ⟨0, ⟨?_, fun h => absurd rfl h, finite⟩, by simp, rfl⟩
      rw [Nat.pow_succ]
      omega
    · next nonzero =>
      cases h
      obtain ⟨k, rfl⟩ := Nat.exists_eq_succ_of_ne_zero nonzero
      have same : (k + 1) * 2 ^ f.fraction + fraction
          = k * 2 ^ f.fraction + (2 ^ f.fraction + fraction) := by
        rw [Nat.succ_mul, Nat.add_assoc]
      refine ⟨k, ⟨?_, fun _ => Nat.le_add_right .., same ▸ finite⟩, rfl, by rw [pack, same]⟩
      rw [Nat.pow_succ]
      omega

/-- The bits of a datum that is finite. -/
theorem stores_of_decode {bits : Nat} (h : bits < 2 ^ (f.width + 1)) {s : Bool} {e : Int}
    (told : f.decode bits = .finite s m e) :
    ∃ k, f.Stores m k ∧ e = f.leastPower + k ∧ bits = f.signBit s + (k * 2 ^ f.fraction + m) := by
  obtain ⟨negative, exponent, fraction, he, hf, rfl⟩ := exists_pack f h
  rw [decode_pack f negative he hf] at told
  exact stores_of_unpack he hf told

/-- The bits of a datum that is infinite. -/
theorem infinite_of_decode {bits : Nat} (h : bits < 2 ^ (f.width + 1)) {s : Bool}
    (told : f.decode bits = .infinite s) : bits = f.signBit s + f.infinity := by
  obtain ⟨negative, exponent, fraction, he, hf, rfl⟩ := exists_pack f h
  rw [decode_pack f negative he hf, unpack] at told
  split at told
  · next top =>
    split at told
    · next zero =>
      cases told
      rw [pack, top, zero]
      rfl
    · cases told
  · split at told <;> cases told

theorem decode_infinity (f : Format) (negative : Bool) :
    f.decode (f.signBit negative + f.infinity) = .infinite negative := by
  have told := decode_pack f negative f.topExponent_lt (Nat.two_pow_pos f.fraction)
  rwa [unpack, if_pos rfl, if_pos rfl] at told

/-! ## The two formats -/

/-- A number of 32 bits is stored with 64 bits, its leading bit in front. -/
theorem stores_double {m k : Nat} (h : single.Stores m k) :
    ∃ m' k', double.Stores m' k' ∧
      SameRatio m (single.leastPower + k) m' (double.leastPower + k') := by
  by_cases pos : m = 0
  · subst pos
    exact ⟨0, 0, ⟨by decide, fun h => absurd rfl h, by decide⟩, by simp [SameRatio]⟩
  obtain ⟨short, -, finite⟩ := h
  have log_le : m.log2 ≤ 23 := Nat.le_of_lt_succ ((Nat.log2_lt pos).2 short)
  have power_lt : k < 255 :=
    Nat.lt_of_mul_lt_mul_right (Nat.lt_of_le_of_lt (Nat.le_add_right ..) finite)
  have shifted_log : (m * 2 ^ (52 - m.log2)).log2 = 52 := by
    rw [log2_mul_two_pow pos]
    omega
  have nonzero : m * 2 ^ (52 - m.log2) ≠ 0 :=
    Nat.mul_ne_zero pos (Nat.ne_of_gt (Nat.two_pow_pos _))
  have shifted_lt : m * 2 ^ (52 - m.log2) < 2 ^ 53 :=
    (Nat.log2_lt nonzero).1 (by rw [shifted_log]; decide)
  have shifted_le : 2 ^ 52 ≤ m * 2 ^ (52 - m.log2) :=
    (Nat.le_log2 nonzero).1 (by rw [shifted_log])
  have least_single : single.leastPower = -149 := rfl
  have least_double : double.leastPower = -1074 := rfl
  refine ⟨m * 2 ^ (52 - m.log2), k + 873 + m.log2, ⟨shifted_lt, fun _ => shifted_le, ?_⟩, ?_⟩
  · show (k + 873 + m.log2) * 2 ^ 52 + m * 2 ^ (52 - m.log2) < 2047 * 2 ^ 52
    omega
  · have same := (SameRatio.shifted m (52 - m.log2) (single.leastPower + k)).symm
    have power : single.leastPower + k - (52 - m.log2 : Nat)
        = double.leastPower + (k + 873 + m.log2 : Nat) := by
      rw [least_single, least_double]
      omega
    rwa [power] at same

theorem signBit_add_lt (f : Format) (negative : Bool) {n : Nat} (h : n ≤ f.infinity) :
    f.signBit negative + n < 2 ^ (f.width + 1) := by
  have infinity_lt : f.infinity < 2 ^ f.width := by
    rw [width, Nat.add_comm, Nat.pow_add]
    exact Nat.mul_lt_mul_of_pos_right f.topExponent_lt (Nat.two_pow_pos _)
  rw [signBit, Nat.pow_succ, Nat.pow_eq]
  split <;> omega

/-- The magnitude bits of a whole number of 64 bits. -/
theorem nearest_whole_le {n : Nat} (short : n ≤ 2 ^ 64) :
    double.nearest n 1 ≤ 1088 * 2 ^ 52 := by
  by_cases zero : n = 0
  · rw [nearest, if_pos zero]
    exact Nat.zero_le _
  have log_le : n.log2 ≤ 64 := by
    rw [← Nat.lt_succ_iff, Nat.log2_lt zero]
    omega
  have leading_eq : leading n 1 = n.log2 := by
    simpa using leading_whole zero 0
  have power : max (leading n 1 - double.fraction) double.leastPower = (n.log2 : Int) - 52 := by
    have fraction : double.fraction = 52 := rfl
    have least : double.leastPower = -1074 := rfl
    rw [leading_eq, fraction, least]
    omega
  have rounded : roundEven (n * 2 ^ (-((n.log2 : Int) - 52)).toNat)
      (1 * 2 ^ ((n.log2 : Int) - 52).toNat) ≤ 2 ^ 53 := by
    rw [Nat.one_mul]
    refine roundEven_le (Nat.two_pow_pos _) ?_
    calc n * 2 ^ (-((n.log2 : Int) - 52)).toNat
        ≤ 2 ^ (n.log2 + 1) * 2 ^ (-((n.log2 : Int) - 52)).toNat :=
          Nat.mul_le_mul_right _ (Nat.le_of_lt Nat.lt_log2_self)
      _ = 2 ^ 53 * 2 ^ ((n.log2 : Int) - 52).toNat := by
          rw [← Nat.pow_add, ← Nat.pow_add]
          congr 1
          omega
  rw [nearest, if_neg zero, power]
  refine Nat.le_trans (Nat.min_le_left ..) ?_
  show ((n.log2 : Int) - 52 - -1074).toNat * 2 ^ 52 + roundEven _ _ ≤ _
  have high : ((n.log2 : Int) - 52 - -1074).toNat ≤ 1086 := by omega
  have scaled_high := Nat.mul_le_mul_right (2 ^ 52) high
  exact Nat.le_trans (Nat.add_le_add scaled_high rounded) (by decide)

end Format

end Binary

open Binary

namespace Binary64

theorem datum_ofNatBits {n : Nat} (h : n < 2 ^ 64) :
    (ofNatBits n).datum = Format.double.decode n := by
  rw [datum, ofNatBits, UInt64.toNat_ofNat_of_lt' h]

/-- **An integer of 64 bits** is far below the largest number of 32 bits. -/
theorem exceedsSingle_ofInt {n : Int} (short : n.natAbs ≤ 2 ^ 64) :
    (ofInt n).exceedsSingle = false := by
  have magnitude := Format.nearest_whole_le short
  have finite : Format.double.nearest n.natAbs 1 ≤ Format.double.infinity :=
    Nat.le_trans magnitude (by decide)
  have small := Format.signBit_add_lt .double (n < 0) finite
  rw [exceedsSingle, ofInt, datum_ofNatBits small]
  cases told : Format.double.decode
      (Format.double.signBit (n < 0) + Format.double.nearest n.natAbs 1) with
  | nan negative load => rfl
  | infinite negative => rfl
  | finite negative m e =>
    obtain ⟨k, ⟨significand_lt, -, stored⟩, rfl, bits⟩ := Format.stores_of_decode small told
    have significand_lt : m < 2 ^ 53 := significand_lt
    have power_le : k ≤ 1088 := by
      have stored : k * 2 ^ 52 + m < 2047 * 2 ^ 52 := stored
      have sign : ∀ s, Format.double.signBit s = 0 ∨ Format.double.signBit s = 2 ^ 63 := by
        intro s
        cases s
        · exact .inl rfl
        · exact .inr rfl
      have bits : Format.double.signBit (n < 0) + Format.double.nearest n.natAbs 1
          = Format.double.signBit negative + (k * 2 ^ 52 + m) := bits
      rcases sign (n < 0) with h₁ | h₁ <;> rcases sign negative with h₂ | h₂ <;> omega
    have least : Format.double.leastPower = -1074 := rfl
    have within : m * 2 ^ (Format.double.leastPower + k).toNat ≤ 2 ^ 53 * 2 ^ 14 :=
      Nat.mul_le_mul (Nat.le_of_lt significand_lt)
        (Nat.pow_le_pow_right (by decide) (by omega))
    simp only [scaled_whole]
    refine decide_eq_false (Nat.not_lt.2 (Nat.le_trans within ?_))
    exact Nat.le_trans (by decide) (Nat.le_mul_of_pos_left _ (Nat.two_pow_pos _))

end Binary64

namespace Binary32

theorem datum_ne_nan {x : Binary32} (number : x.isNaN = false) (negative : Bool) (load : Nat) :
    x.datum ≠ .nan negative load := by
  intro told
  rw [isNaN, told] at number
  cases number

/-- What the bits of a finite number are, and what the number is with 64 bits. -/
theorem exists_stores {x : Binary32} {negative : Bool} {m : Nat} {e : Int}
    (told : x.datum = .finite negative m e) :
    ∃ k m' k', Format.single.Stores m k ∧ e = Format.single.leastPower + k ∧
      x.bits.toNat = Format.single.signBit negative + (k * 2 ^ 23 + m) ∧
      SameRatio m e m' (Format.double.leastPower + k') ∧
      x.widen.datum = .finite negative m' (Format.double.leastPower + k') := by
  obtain ⟨k, stores, rfl, bits⟩ := Format.stores_of_decode x.bits.toNat_lt told
  obtain ⟨m', k', wide, same⟩ := Format.stores_double stores
  refine ⟨k, m', k', stores, rfl, bits, same, ?_⟩
  rw [widen, told, Format.convert_of_stores wide same, Binary64.datum_ofNatBits
    (Format.signBit_add_lt .double negative (Nat.le_of_lt wide.finite)),
    Format.decode_of_stores wide]

theorem datum_widen_of_infinite {x : Binary32} {negative : Bool}
    (told : x.datum = .infinite negative) : x.widen.datum = .infinite negative := by
  rw [widen, told, Format.convert, Binary64.datum_ofNatBits
    (Format.signBit_add_lt .double negative (Nat.le_refl _)), Format.decode_infinity]

/-- **Widening loses nothing**: the number of 32 bits nearest to the widened number is the one
that was widened. -/
theorem narrow_widen {x : Binary32} (number : x.isNaN = false) : x.widen.narrow = x := by
  have same_bits : ∀ n, x.bits.toNat = n → (⟨UInt32.ofNat n⟩ : Binary32) = x := by
    rintro n rfl
    rw [UInt32.ofNat_toNat]
  cases told : x.datum with
  | nan negative load => exact absurd told (datum_ne_nan number negative load)
  | infinite negative =>
    rw [Binary64.narrow, datum_widen_of_infinite told]
    exact same_bits _ (Format.infinite_of_decode x.bits.toNat_lt told)
  | finite negative m e =>
    obtain ⟨k, m', k', stores, rfl, bits, same, wide⟩ := exists_stores told
    rw [Binary64.narrow, wide, Format.convert_of_stores stores same.symm]
    exact same_bits _ bits

/-- **A widened number is one of 32 bits**, and does not exceed them. -/
theorem exceedsSingle_widen {x : Binary32} (number : x.isNaN = false) :
    x.widen.exceedsSingle = false := by
  rw [Binary64.exceedsSingle]
  cases told : x.datum with
  | nan negative load => exact absurd told (datum_ne_nan number negative load)
  | infinite negative => rw [datum_widen_of_infinite told]
  | finite negative m e =>
    obtain ⟨k, m', k', ⟨short, leading_bit, finite⟩, rfl, -, same, wide⟩ := exists_stores told
    rw [wide]
    have power_le : k ≤ 253 := by
      have finite : k * 2 ^ 23 + m < 255 * 2 ^ 23 := finite
      have leading_bit : k ≠ 0 → 2 ^ 23 ≤ m := leading_bit
      omega
    generalize power : Format.single.leastPower + (k : Int) = e at same
    generalize Format.double.leastPower + (k' : Int) = e' at same
    have least : Format.single.leastPower = -149 := rfl
    have within : m * 2 ^ e.toNat ≤ 0xFFFFFF * 2 ^ 104 :=
      Nat.mul_le_mul (Nat.le_of_lt_succ short) (Nat.pow_le_pow_right (by decide) (by omega))
    have widened_le : m' * 2 ^ e'.toNat ≤ 2 ^ (-e').toNat * (0xFFFFFF * 2 ^ 104) := by
      refine Nat.le_of_mul_le_mul_right ?_ (Nat.two_pow_pos (-e).toNat)
      calc m' * 2 ^ e'.toNat * 2 ^ (-e).toNat = m * 2 ^ e.toNat * 2 ^ (-e').toNat := by
            rw [Nat.mul_assoc, ← Nat.pow_add, ← same, Nat.pow_add, Nat.mul_assoc]
        _ ≤ 0xFFFFFF * 2 ^ 104 * 2 ^ (-e').toNat := Nat.mul_le_mul_right _ within
        _ = 2 ^ (-e').toNat * (0xFFFFFF * 2 ^ 104) := Nat.mul_comm ..
        _ ≤ _ := Nat.le_mul_of_pos_right _ (Nat.two_pow_pos _)
    simp only [scaled_whole]
    exact decide_eq_false (Nat.not_lt.2 widened_le)

end Binary32

end Mavlink
