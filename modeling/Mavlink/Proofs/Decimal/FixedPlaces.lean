import Mathlib
import Mavlink.Decimal.Fixed
import Mavlink.Decimal.Read
import Mavlink.Proofs.Binary.Rounding
import Mavlink.Proofs.Text.Lines

/-!
# Decimals that are written again

A number that is written with a fixed number of places and read again can be another number: what
is read is the number nearest to the text, not the one that was written.  It is no further from the
text than that one was.  So it rounds to the same text, even where it stands halfway between two.

* `read?_pointed` --- a magnitude is read as the ratio that it spells;
* `roundUnits_nearest` --- what is read rounds to what was written;
* `exists_read?_fixed` --- so that it is written as before.
-/

namespace Mavlink.Decimal

open Binary

/-! ## Reading a magnitude -/

section Pointed

variable {places units : Nat}

/-- A magnitude has digits on both sides of its point, so many behind it, and together they spell
its units. -/
theorem exists_pointed (places units : Nat) : ∃ whole rest : List Char,
    (pointed places units).toList = whole ++ '.' :: rest ∧ whole ≠ [] ∧ rest.length = places ∧
      (∀ c ∈ whole ++ rest, c.isDigit = true) ∧ Nat.ofDigitChars 10 (whole ++ rest) 0 = units := by
  let digits := List.replicate (places + 1 - (Nat.toDigits 10 units).length) '0'
    ++ Nat.toDigits 10 units
  have long : places + 1 ≤ digits.length := by
    rw [List.length_append, List.length_replicate]
    omega
  refine ⟨digits.take (digits.length - places), digits.drop (digits.length - places), ?_, ?_, ?_,
    ?_, ?_⟩
  · rw [pointed, String.toList_ofList]
  · rw [← List.length_pos_iff, List.length_take]
    omega
  · rw [List.length_drop]
    omega
  · rw [List.take_append_drop]
    intro c hc
    rcases List.mem_append.1 hc with zero | digit
    · rw [List.eq_of_mem_replicate zero]
      decide
    · exact Text.isDigit_of_mem_toDigits digit
  · rw [List.take_append_drop, Nat.ofDigitChars_append, Nat.ofDigitChars_replicate_zero,
      Nat.mul_zero, Nat.ofDigitChars_toDigits (by decide) (by decide)]

/-- A text with a point in it is no word. -/
theorem isWord_eq_false {word : String} {cs : List Char} (point : '.' ∈ cs)
    (letters : '.' ∉ word.toList) : isWord word cs = false := by
  rw [isWord, beq_eq_false_iff_ne]
  intro same
  exact letters (same ▸ List.mem_map.2 ⟨'.', point, rfl⟩)

/-- A digit is none of the characters that cut a decimal. -/
theorem ne_of_isDigit {c d : Char} (digit : c.isDigit = true) (other : d.isDigit = false) :
    (c != d) = true := by
  rw [bne_iff_ne]
  rintro rfl
  cases digit.symm.trans other

/-- A magnitude is read by its digits. -/
theorem unsigned?_pointed (negative : Bool) : unsigned? negative (pointed places units).toList
    = some (ofScaled negative units (-(places : Int))) := by
  obtain ⟨whole, rest, text, nonempty, length, digits, value⟩ := exists_pointed places units
  have no_exponent : ∀ c ∈ whole ++ '.' :: rest, (c != 'e' && c != 'E') = true := by
    have plain (c : Char) (digit : c.isDigit = true) : (c != 'e' && c != 'E') = true := by
      rw [ne_of_isDigit digit (by decide), ne_of_isDigit digit (by decide)]
      rfl
    intro c hc
    rcases List.mem_append.1 hc with before | after
    · exact plain c (digits c (List.mem_append_left _ before))
    · rcases List.mem_cons.1 after with rfl | after
      · decide
      · exact plain c (digits c (List.mem_append_right _ after))
  have no_point : ∀ c ∈ whole, (c != '.') = true := fun c hc =>
    ne_of_isDigit (digits c (List.mem_append_left _ hc)) (by decide)
  have spelled : Text.digits? 10 (whole ++ rest) = some units := by
    rw [Text.digits?, if_neg (by simp [nonempty]), Text.digitsFrom?_of_isDigit digits, value]
  have point : '.' ∈ whole ++ '.' :: rest := List.mem_append_right _ List.mem_cons_self
  rw [text, unsigned?, isWord_eq_false point (by decide), isWord_eq_false point (by decide),
    isWord_eq_false point (by decide)]
  simp only [magnitude?, List.span_eq_takeWhile_dropWhile,
    List.takeWhile_eq_self_iff.2 no_exponent, List.dropWhile_eq_nil_iff.2 no_exponent,
    List.takeWhile_append_of_pos no_point, List.dropWhile_append_of_pos no_point,
    List.takeWhile_cons_of_neg, List.dropWhile_cons_of_neg, bne_self_eq_false, Bool.false_eq_true,
    not_false_eq_true, List.append_nil, List.drop_succ_cons, List.drop_zero, spelled, length,
    Int.zero_sub, Bool.or_self, if_false]

/-- A sign before a magnitude is read as the sign. -/
theorem read?_pointed (negative : Bool) :
    read? (if negative then "-" ++ pointed places units else pointed places units).toList
      = some (ofScaled negative units (-(places : Int))) := by
  cases negative with
  | true =>
    rw [if_pos rfl, String.toList_append]
    exact unsigned?_pointed true
  | false =>
    obtain ⟨whole, rest, text, nonempty, -, digits, -⟩ := exists_pointed places units
    obtain ⟨c, cs, rfl⟩ := List.exists_cons_of_ne_nil nonempty
    have digit : c.isDigit = true := digits c List.mem_cons_self
    rw [if_neg Bool.false_ne_true, ← unsigned?_pointed false, text, List.cons_append, read?]
    · rintro r same
      obtain ⟨rfl, -⟩ := List.cons.inj same
      cases digit
    · rintro r same
      obtain ⟨rfl, -⟩ := List.cons.inj same
      cases digit

/-- The order of magnitude of what is written is within the range that is computed. -/
theorem ofScaled_eq_ofRatio (negative : Bool) (few : places ≤ 400)
    (small : units < 10 ^ (400 + places)) :
    ofScaled negative units (-(places : Int)) = .ofRatio negative units (10 ^ places) := by
  have count_pos : 0 < (Nat.toDigits 10 units).length := List.length_pos_iff.2 Nat.toDigits_ne_nil
  have count_le : (Nat.toDigits 10 units).length ≤ 400 + places :=
    Nat.toDigits_length 10 units _ (by omega) small
  simp only [ofScaled]
  by_cases zero : units = 0
  · rw [if_pos zero, zero, Binary64.ofRatio, Binary64.ofRatio, Format.nearest_zero,
      Format.nearest_zero]
  · rw [if_neg zero, if_neg (by omega), if_neg (by omega), Int.neg_neg, Int.toNat_natCast,
      Int.toNat_neg_natCast, Nat.pow_eq, Nat.pow_zero, Nat.mul_one]
    rfl

end Pointed

/-! ## Units of the last place -/

/-- The units of the last place that a magnitude is rounded to. -/
def roundUnits (places m : Nat) (e : Int) : Nat :=
  roundEven (scaled (m * 10 ^ places) 1 (-e)).1 (scaled (m * 10 ^ places) 1 (-e)).2

section Units

variable {places m : Nat} {e : Int}

theorem fixed_of_datum {x : Binary64} {negative : Bool} (places : Nat)
    (told : x.datum = .finite negative m e) :
    fixed places x = if negative then "-" ++ pointed places (roundUnits places m e)
      else pointed places (roundUnits places m e) := by
  rw [fixed, told]
  rfl

theorem units_ratio (places m : Nat) (e : Int) :
    ((scaled (m * 10 ^ places) 1 (-e)).1 : ℚ) / (scaled (m * 10 ^ places) 1 (-e)).2
      = m * 2 ^ e * 10 ^ places := by
  rw [scaled_whole, whole_ratio]
  push_cast
  ring

/-- The magnitude is at most half a unit away from what is written. -/
theorem roundUnits_spec (places m : Nat) (e : Int) :
    |(m : ℚ) * 2 ^ e * 10 ^ places - roundUnits places m e| ≤ 1 / 2 ∧
      (|(m : ℚ) * 2 ^ e * 10 ^ places - roundUnits places m e| = 1 / 2 →
        Even (roundUnits places m e)) := by
  rw [← units_ratio]
  exact roundEven_spec _ (scaled_snd_pos _ Nat.one_pos _)

theorem abs_units_sub (places units : Nat) (q : ℚ) :
    |q * 10 ^ places - units| = |q - units / 10 ^ places| * 10 ^ places := by
  have scale_pos : (0 : ℚ) < 10 ^ places := by positivity
  rw [← abs_of_pos scale_pos, ← abs_mul, abs_of_pos scale_pos, sub_mul,
    div_mul_cancel₀ _ scale_pos.ne']

/-- A magnitude that is no further from what is written is written alike. -/
theorem roundUnits_eq {m' : Nat} {e' : Int}
    (nearer : |(m' : ℚ) * 2 ^ e' - roundUnits places m e / 10 ^ places|
      ≤ |(m : ℚ) * 2 ^ e - roundUnits places m e / 10 ^ places|) :
    roundUnits places m' e' = roundUnits places m e := by
  obtain ⟨near, tie⟩ := roundUnits_spec places m e
  generalize roundUnits places m e = units at *
  have nearer : |(m' : ℚ) * 2 ^ e' * 10 ^ places - units|
      ≤ |(m : ℚ) * 2 ^ e * 10 ^ places - units| := by
    rw [abs_units_sub, abs_units_sub]
    exact mul_le_mul_of_nonneg_right nearer (by positivity)
  refine roundEven_eq (scaled_snd_pos _ Nat.one_pos _) ?_ ?_
  · rw [units_ratio]
    exact nearer.trans near
  · rw [units_ratio]
    intro half
    exact tie (le_antisymm near (half ▸ nearer))

/-- What is written is never far from the magnitude. -/
theorem abs_sub_units_le (places m : Nat) (e : Int) :
    |(m : ℚ) * 2 ^ e - roundUnits places m e / 10 ^ places| ≤ 1 / 2 := by
  obtain ⟨near, -⟩ := roundUnits_spec places m e
  rw [abs_units_sub] at near
  have scale : (1 : ℚ) ≤ 10 ^ places := one_le_pow₀ (by norm_num)
  exact (le_mul_of_one_le_right (abs_nonneg _) scale).trans near

/-- What is written has not many digits before its point. -/
theorem roundUnits_lt {k : Nat} (places : Nat) (h : Format.double.Stores m k) :
    roundUnits places m (Format.double.leastPower + k) < 10 ^ (400 + places) := by
  have near := abs_sub_units_le places m (Format.double.leastPower + k)
  have near : |Format.double.value m k - _| ≤ 1 / 2 := near
  have limit : Format.double.value m k ≤ 10 ^ 342 :=
    calc Format.double.value m k ≤ (2 ^ 53 - 1) * 2 ^ (971 : ℤ) := Format.double_value_le h
      _ ≤ 2 ^ 55 * 2 ^ 971 := by
        refine mul_le_mul_of_nonneg_right ?_ (by positivity)
        norm_num
      _ = (2 ^ 3) ^ 342 := by rw [← pow_add, ← pow_mul]
      _ ≤ 10 ^ 342 := pow_le_pow_left₀ (by norm_num) (by norm_num) 342
  have one_le : (1 : ℚ) ≤ 10 ^ 342 := one_le_pow₀ (by norm_num)
  have room : (10 : ℚ) ^ 342 * 10 ≤ 10 ^ 400 := by
    rw [← pow_succ]
    exact pow_le_pow_right₀ (by norm_num) (by norm_num)
  have under : (roundUnits places m (Format.double.leastPower + k) : ℚ) / 10 ^ places
      < 10 ^ 400 := by
    obtain ⟨below, -⟩ := abs_le.1 near
    generalize (10 : ℚ) ^ 342 = bound at *
    generalize (10 : ℚ) ^ 400 = top at *
    linarith
  rw [div_lt_iff₀ (by positivity), ← pow_add] at under
  exact_mod_cast under

/-- **What is read rounds to what was written.** -/
theorem roundUnits_nearest {k : Nat} (places : Nat) (h : Format.double.Stores m k) :
    let units := roundUnits places m (Format.double.leastPower + k)
    ∃ m' k', Format.double.Stores m' k' ∧
      Format.double.nearest units (10 ^ places) = k' * 2 ^ Format.double.fraction + m' ∧
      roundUnits places m' (Format.double.leastPower + k') = units := by
  intro units
  have ten_pos : 0 < 10 ^ places := by positivity
  obtain ⟨m', k', fits, bits, nearest⟩ := Format.exists_nearest .double units ten_pos
  have nearer := nearest m k h.fits
  push_cast at nearer
  have finite : k' * 2 ^ Format.double.fraction + m' < Format.double.infinity := by
    by_contra large
    have gap := Format.double_gap h fits (Nat.not_lt.1 large)
    have near := abs_sub_units_le places m (Format.double.leastPower + k)
    have near : |Format.double.value m k - units / 10 ^ places| ≤ 1 / 2 := near
    obtain ⟨-, above⟩ := abs_le.1 (nearer.trans near)
    obtain ⟨below, -⟩ := abs_le.1 near
    linarith
  exact ⟨m', k', ⟨fits.short, fits.leading_bit, finite⟩, bits.trans (Nat.min_eq_left finite.le),
    roundUnits_eq nearer⟩

end Units

/-! ## Writing again -/

/-- **A decimal that is read back is written as before.** -/
theorem exists_read?_fixed (places : Nat) (few : places ≤ 400) (x : Binary64) :
    ∃ y, read? (fixed places x).toList = some y ∧ fixed places y = fixed places x := by
  cases told : x.datum with
  | nan negative load =>
    have text : fixed places x = "NaN" := by rw [fixed, told]
    rw [text]
    exact ⟨_, rfl, rfl⟩
  | infinite negative =>
    have text : fixed places x = if negative then "-inf" else "inf" := by rw [fixed, told]
    rw [text]
    cases negative
    · exact ⟨_, rfl, rfl⟩
    · exact ⟨_, rfl, rfl⟩
  | finite negative m e =>
    obtain ⟨k, stores, rfl, -⟩ := Format.stores_of_decode x.bits.toNat_lt told
    obtain ⟨m', k', stores', nearest, same⟩ := roundUnits_nearest places stores
    rw [fixed_of_datum places told, read?_pointed,
      ofScaled_eq_ofRatio negative few (roundUnits_lt places stores)]
    refine ⟨_, rfl, ?_⟩
    have datum : (Binary64.ofRatio negative (roundUnits places m (Format.double.leastPower + k))
        (10 ^ places)).datum = .finite negative m' (Format.double.leastPower + k') := by
      rw [Binary64.ofRatio, nearest, Binary64.datum_ofNatBits
        (Format.signBit_add_lt .double negative stores'.finite.le), Format.decode_of_stores stores']
    rw [fixed_of_datum places datum, same]

end Mavlink.Decimal
