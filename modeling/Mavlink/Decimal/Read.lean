import Mavlink.Binary
import Mavlink.Text.Numeral

/-!
# Reading decimals

A number is written as an optional sign and either a word for infinity or for
not-a-number, in any letter case, or digits with an optional point (at least one
digit on either side of it) and an optional exponent.  It reads as the number
nearest to its exact value.

An exponent can be far longer than the range of the format; the value is decided
by its order of magnitude before the power of ten is computed.
-/

namespace Mavlink.Decimal

open Text

/-- Whether a text is a word of lower-case letters, up to ASCII letter case. -/
def isWord (word : String) (cs : List Char) : Bool :=
  cs.map Char.toLower == word.toList

/-- The number `digits * 10 ^ power`, for `count` significant digits. -/
def ofScaled (negative : Bool) (digits : Nat) (power : Int) : Binary64 :=
  let count : Int := (Nat.toDigits 10 digits).length
  if digits = 0 then .ofRatio negative 0 1
  else if 400 < count + power then .infinity negative
  else if count + power < -400 then .ofRatio negative 0 1
  else .ofRatio negative (digits * Nat.pow 10 power.toNat) (Nat.pow 10 (-power).toNat)

/-- The exponent after its letter: an optional sign and at least one digit. -/
def exponent? (cs : List Char) : Option Int :=
  match cs with
  | '-' :: r => (digits? 10 r).map fun n => -(n : Int)
  | '+' :: r => (digits? 10 r).map fun n => (n : Int)
  | _ => (digits? 10 cs).map fun n => (n : Int)

/-- An unsigned decimal with digits, `none` if the text is not one. -/
def magnitude? (negative : Bool) (cs : List Char) : Option Binary64 :=
  let (mantissa, tail) := cs.span fun c => c != 'e' && c != 'E'
  let (whole, fraction) := mantissa.span (· != '.')
  let fraction := fraction.drop 1
  let digits := whole ++ fraction
  let exponent := match tail with
    | [] => some 0
    | _ :: r => exponent? r
  match digits? 10 digits, exponent with
  | some n, some e => some (ofScaled negative n (e - fraction.length))
  | _, _ => none

/-- A decimal without its sign. -/
def unsigned? (negative : Bool) (cs : List Char) : Option Binary64 :=
  if isWord "inf" cs || isWord "infinity" cs then some (.infinity negative)
  else if isWord "nan" cs then
    some (.ofNatBits (Binary.Format.double.signBit negative + Binary.Format.double.quiet))
  else magnitude? negative cs

/-- The number that a text spells. -/
def read? (cs : List Char) : Option Binary64 :=
  match cs with
  | '-' :: r => unsigned? true r
  | '+' :: r => unsigned? false r
  | _ => unsigned? false cs

end Mavlink.Decimal
