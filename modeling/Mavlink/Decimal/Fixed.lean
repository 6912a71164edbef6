import Mavlink.Binary

/-!
# Decimals with a fixed number of places

The exact value of a number is rounded to the given number of places; halfway
between two it goes to the even one.  The sign of a number that rounds to zero is
kept.
-/

namespace Mavlink.Decimal

open Binary

/-- A magnitude, counted in units of the last place, with its point set. -/
def pointed (places units : Nat) : String :=
  let digits := Nat.toDigits 10 units
  let digits := List.replicate (places + 1 - digits.length) '0' ++ digits
  let whole := digits.take (digits.length - places)
  let rest := digits.drop (digits.length - places)
  String.ofList (whole ++ '.' :: rest)

/-- The text of a number with a fixed number of places. -/
def fixed (places : Nat) (x : Binary64) : String :=
  match x.datum with
  | .nan .. => "NaN"
  | .infinite negative => if negative then "-inf" else "inf"
  | .finite negative m e =>
    let (num, den) := scaled (m * Nat.pow 10 places) 1 (-e)
    let magnitude := pointed places (roundEven num den)
    if negative then "-" ++ magnitude else magnitude

end Mavlink.Decimal
