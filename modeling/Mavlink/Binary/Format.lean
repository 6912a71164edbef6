/-!
# Binary floating point, exactly

Numbers travel in two binary formats, of 32 and of 64 bits.  Everything that is
said about them here is exact arithmetic of whole numbers: a datum of a format is
decoded into a sign, a significand and a power of two, and a ratio of whole
numbers is encoded as the nearest datum, the even one of two that are equally
near.

One function, `nearest`, does all the rounding: reading decimal text, turning an
integer into a number of 64 bits and narrowing that to 32 bits are all ratios.
-/

namespace Mavlink.Binary

/-- A binary interchange format: the stored bits of the significand, and the bits
of the exponent. -/
structure Format where
  fraction : Nat
  exponent : Nat

/-- The format of 32 bits. -/
def Format.single : Format := ⟨23, 8⟩

/-- The format of 64 bits. -/
def Format.double : Format := ⟨52, 11⟩

/-- What the bits of a datum say. -/
inductive Datum where
  /-- Not a number, with the stored bits of its significand. -/
  | nan (negative : Bool) (load : Nat)
  | infinite (negative : Bool)
  /-- The number of the given sign whose magnitude is `significand * 2 ^ exponent`. -/
  | finite (negative : Bool) (significand : Nat) (exponent : Int)
  deriving DecidableEq, Repr

namespace Format

/-- The bits of a datum without the sign. -/
def width (f : Format) : Nat := f.fraction + f.exponent

/-- The greatest exponent field; it marks what is not finite. -/
def topExponent (f : Format) : Nat := Nat.pow 2 f.exponent - 1

/-- The power of two that the last bit of the smallest significands is worth. -/
def leastPower (f : Format) : Int := 2 - Nat.pow 2 (f.exponent - 1) - f.fraction

/-- The magnitude bits of infinity. -/
def infinity (f : Format) : Nat := f.topExponent * Nat.pow 2 f.fraction

/-- The magnitude bits of the not-a-number that arithmetic makes. -/
def quiet (f : Format) : Nat := f.infinity + Nat.pow 2 (f.fraction - 1)

/-- The sign bit. -/
def signBit (f : Format) (negative : Bool) : Nat := if negative then Nat.pow 2 f.width else 0

/-- Decodes the bits of a datum. -/
def decode (f : Format) (bits : Nat) : Datum :=
  let negative := bits / Nat.pow 2 f.width % 2 = 1
  let exponent := bits / Nat.pow 2 f.fraction % Nat.pow 2 f.exponent
  let fraction := bits % Nat.pow 2 f.fraction
  if exponent = f.topExponent then
    if fraction = 0 then .infinite negative else .nan negative fraction
  else if exponent = 0 then .finite negative fraction f.leastPower
  else .finite negative (Nat.pow 2 f.fraction + fraction) (f.leastPower + (exponent - 1 : Nat))

end Format

/-- The whole number nearest to a ratio, the even one of two that are equally near. -/
def roundEven (num den : Nat) : Nat :=
  let q := num / den
  let r := num % den
  if 2 * r < den then q
  else if den < 2 * r then q + 1
  else q + q % 2

/-- The ratio `num / den * 2 ^ (-power)` as numerator and denominator. -/
def scaled (num den : Nat) (power : Int) : Nat × Nat :=
  (num * Nat.pow 2 (-power).toNat, den * Nat.pow 2 power.toNat)

/-- The power of two of the leading bit of a positive ratio. -/
def leading (num den : Nat) : Int :=
  let guess : Int := (num.log2 : Int) - den.log2
  let (n, d) := scaled num den guess
  if n < d then guess - 1 else guess

/-- The magnitude bits of the datum nearest to a positive ratio.  A ratio beyond
the largest finite datum and its half step is infinity. -/
def Format.nearest (f : Format) (num den : Nat) : Nat :=
  if num = 0 then 0 else
  let power := max (leading num den - f.fraction) f.leastPower
  let (n, d) := scaled num den power
  min ((power - f.leastPower).toNat * Nat.pow 2 f.fraction + roundEven n d) f.infinity

/-- The bits of the datum of format `f` nearest to a datum of another format.  A
not-a-number keeps its sign and the leading bits of its load, and becomes quiet. -/
def Format.convert (f source : Format) : Datum → Nat
  | .infinite negative => f.signBit negative + f.infinity
  | .finite negative m e =>
    let (n, d) := scaled m 1 (-e)
    f.signBit negative + f.nearest n d
  | .nan negative load =>
    let load := if source.fraction ≤ f.fraction
      then load * Nat.pow 2 (f.fraction - source.fraction)
      else load / Nat.pow 2 (source.fraction - f.fraction)
    let half := Nat.pow 2 (f.fraction - 1)
    f.signBit negative + f.quiet + load % half

end Mavlink.Binary
