/-!
# Bytes and the numbers they spell

Everything on the wire is a list of bytes.  A number of a fixed width is spelled
with its least significant byte first, except in telemetry logs, which put the
most significant byte first.

* `ofLittle_little` --- reading a spelling gives the number back, up to the width;
* `little_ofLittle` --- every string of bytes is the spelling of what it reads as.
-/

namespace Mavlink

/-- A string of bytes. -/
abbrev Bytes := List UInt8

namespace Bytes

/-- The `w` bytes of a number, least significant first; higher bits are dropped. -/
def little : Nat → Nat → Bytes
  | 0, _ => []
  | w + 1, n => UInt8.ofNat n :: little w (n / 256)

/-- The number spelled by bytes, least significant first. -/
def ofLittle : Bytes → Nat
  | [] => 0
  | b :: r => b.toNat + 256 * ofLittle r

/-- The `w` bytes of a number, most significant first. -/
def big (w n : Nat) : Bytes := (little w n).reverse

/-- The number spelled by bytes, most significant first. -/
def ofBig (bytes : Bytes) : Nat := ofLittle bytes.reverse

@[simp] theorem length_little (w n : Nat) : (little w n).length = w := by
  induction w generalizing n with
  | zero => rfl
  | succ w ih => simp [little, ih]

@[simp] theorem length_big (w n : Nat) : (big w n).length = w := by simp [big]

theorem ofLittle_little (w n : Nat) : ofLittle (little w n) = n % Nat.pow 256 w := by
  induction w generalizing n with
  | zero => simp [little, ofLittle, Nat.mod_one]
  | succ w ih =>
    have h : (UInt8.ofNat n).toNat = n % 256 := by simp
    rw [little, ofLittle, ih, h, Nat.pow_eq, Nat.pow_eq, Nat.pow_succ', Nat.mod_mul]

theorem ofLittle_little_of_lt {w n : Nat} (h : n < Nat.pow 256 w) : ofLittle (little w n) = n := by
  rw [ofLittle_little, Nat.mod_eq_of_lt h]

theorem ofLittle_lt (bytes : Bytes) : ofLittle bytes < Nat.pow 256 bytes.length := by
  induction bytes with
  | nil => simp [ofLittle]
  | cons b r ih =>
    have hb : b.toNat < 256 := b.toNat_lt
    rw [Nat.pow_eq] at ih
    rw [ofLittle, List.length_cons, Nat.pow_eq, Nat.pow_succ']
    omega

theorem little_ofLittle (bytes : Bytes) : little bytes.length (ofLittle bytes) = bytes := by
  induction bytes with
  | nil => rfl
  | cons b r ih =>
    have hb : b.toNat < 256 := b.toNat_lt
    have head : UInt8.ofNat (b.toNat + 256 * ofLittle r) = b := by
      apply UInt8.toNat_inj.1
      simp
    have tail : (b.toNat + 256 * ofLittle r) / 256 = ofLittle r := by omega
    rw [List.length_cons, ofLittle, little, head, tail, ih]

theorem ofBig_big (w n : Nat) : ofBig (big w n) = n % Nat.pow 256 w := by
  simp [ofBig, big, ofLittle_little]

/-- The bytes followed by as many zeros as reach the length. -/
def extend (bytes : Bytes) (len : Nat) : Bytes :=
  bytes ++ List.replicate (len - bytes.length) 0

theorem length_extend (bytes : Bytes) (len : Nat) :
    (bytes.extend len).length = max bytes.length len := by
  simp [extend]; omega

end Bytes
end Mavlink
