/-!
# Whole numbers in text

A whole number is written with an optional plus sign and at least one digit, in
ASCII digits only, and must not exceed the limit of the type it is read for.
-/

namespace Mavlink.Text

/-- The value of a digit in a radix up to sixteen. -/
def digit? (radix : Nat) (c : Char) : Option Nat :=
  let n := c.toNat
  let v :=
    if 0x30 ≤ n ∧ n ≤ 0x39 then some (n - 0x30)
    else if 0x41 ≤ n ∧ n ≤ 0x46 then some (n - 0x41 + 10)
    else if 0x61 ≤ n ∧ n ≤ 0x66 then some (n - 0x61 + 10)
    else none
  v.filter (· < radix)

/-- The number that digits spell, after digits that spell `acc`. -/
def digitsFrom? (radix acc : Nat) : List Char → Option Nat
  | [] => some acc
  | c :: r =>
    match digit? radix c with
    | some d => digitsFrom? radix (acc * radix + d) r
    | none => none

/-- The number that digits spell; there must be a digit. -/
def digits? (radix : Nat) (cs : List Char) : Option Nat :=
  if cs.isEmpty then none else digitsFrom? radix 0 cs

/-- A whole number of at most `limit` in a radix, with an optional plus sign. -/
def whole? (radix limit : Nat) (cs : List Char) : Option Nat :=
  let number := match cs with
    | '+' :: r => digits? radix r
    | _ => digits? radix cs
  number.filter (· ≤ limit)

/-- A whole number of at most `limit` in decimal digits. -/
def decimal? (limit : Nat) (cs : List Char) : Option Nat := whole? 10 limit cs

/-- The hexadecimal digits of a number, at least `width` of them. -/
def hex (width n : Nat) : String :=
  let digits := Nat.toDigits 16 n
  String.ofList (List.replicate (width - digits.length) '0' ++ digits)

end Mavlink.Text
