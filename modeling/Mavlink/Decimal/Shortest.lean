import Mavlink.Binary

/-!
# The shortest decimal that reads back

A number is shown by the fewest decimal digits that still read back as it, and
of those by the digits nearest to it.  The decimals that read back fill an
interval around the number: halfway to its neighbours, ends included exactly if
the significand is even.  A grid of multiples of `10 ^ k` meets the interval only
if one of the two grid points next to the number lies in it, so those two are
tried, from coarse grids to fine ones; the first grid that hits has the fewest
digits.

The text is positional whatever the size, without a point for a whole number.
-/

namespace Mavlink.Decimal

open Binary

/-- A positive decimal, `digits * 10 ^ power`. -/
structure Scaled where
  digits : Nat
  power : Int
  deriving DecidableEq, Repr

/-- Four times a positive datum, and of the ends of its interval, in units of a
quarter of its last bit; and whether the ends belong to it. -/
structure Interval where
  low : Nat
  middle : Nat
  high : Nat
  /-- The quarter of the last bit is two to this power. -/
  unit : Int
  closed : Bool

/-- The interval of a significand and an exponent of the format of 64 bits.  Below
a power of two the neighbour is only half as far. -/
def Interval.around (significand : Nat) (exponent : Int) : Interval :=
  let narrow := significand = Nat.pow 2 Format.double.fraction ∧ Format.double.leastPower < exponent
  { low := 4 * significand - if narrow then 1 else 2
    middle := 4 * significand
    high := 4 * significand + 2
    unit := exponent - 2
    closed := significand % 2 = 0 }

/-- The step `10 ^ power` in the units of the interval, as a ratio. -/
def Interval.step (i : Interval) (power : Int) : Nat × Nat :=
  scaled (Nat.pow 10 power.toNat) (Nat.pow 10 (-power).toNat) i.unit

/-- Whether the ratio `num / den`, in the units of the interval, lies in it. -/
def Interval.holds (i : Interval) (num den : Nat) : Bool :=
  if i.closed then i.low * den ≤ num && num ≤ i.high * den
  else i.low * den < num && num < i.high * den

/-- The multiple of `10 ^ power` in the interval that is nearest to the middle. -/
def Interval.hit? (i : Interval) (power : Int) : Option Scaled :=
  let (num, den) := i.step power
  let below := i.middle * den / num
  let hitBelow := i.holds (below * num) den
  let hitAbove := i.holds ((below + 1) * num) den
  if hitBelow && (!hitAbove || 2 * i.middle * den < (2 * below + 1) * num) then
    some ⟨below, power⟩
  else if hitAbove then some ⟨below + 1, power⟩
  else none

/-- Tries ever finer grids, `tries` of them before the last. -/
def Interval.search (i : Interval) (power : Int) : Nat → Scaled
  | 0 => (i.hit? power).getD ⟨0, 0⟩
  | tries + 1 =>
    match i.hit? power with
    | some s => s
    | none => i.search (power - 1) tries

/-- The shortest decimal of a positive datum.  The first grid is coarser than the
number, and seventeen digits always suffice. -/
def shortest (significand : Nat) (exponent : Int) : Scaled :=
  let log : Int := significand.log2 + exponent
  (Interval.around significand exponent).search (log * 30103 / 100000 + 2) 24

/-- The digits of a decimal at their positions. -/
def Scaled.positional (s : Scaled) : String :=
  if 0 ≤ s.power then
    String.ofList (Nat.toDigits 10 s.digits ++ List.replicate s.power.toNat '0')
  else
    let places := (-s.power).toNat
    let digits := Nat.toDigits 10 s.digits
    let digits := List.replicate (places + 1 - digits.length) '0' ++ digits
    let whole := digits.take (digits.length - places)
    let rest := digits.drop (digits.length - places)
    String.ofList (whole ++ '.' :: rest)

/-- The text of a number, by its shortest decimal. -/
def text (x : Binary64) : String :=
  match x.datum with
  | .nan .. => "NaN"
  | .infinite negative => if negative then "-inf" else "inf"
  | .finite negative m e =>
    let magnitude := if m = 0 then "0" else (shortest m e).positional
    if negative then "-" ++ magnitude else magnitude

end Mavlink.Decimal
