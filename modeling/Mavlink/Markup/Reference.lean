import Mavlink.Text.Numeral

/-!
# Character references

Text and attribute values may name a character between an ampersand and a
semicolon: five by a word, any other by the number of its code point.  There is no
other use of an ampersand.
-/

namespace Mavlink.Markup

/-- The digits of a code point, at most as many as the greatest code point has. -/
def codePoint? (name : List Char) : Option Nat :=
  match name with
  | 'x' :: digits => if digits.length ≤ 6 then Text.digits? 16 digits else none
  | digits => if digits.length ≤ 7 then Text.digits? 10 digits else none

/-- The character that a reference names. -/
def referred? (name : List Char) : Option Char :=
  match name with
  | ['l', 't'] => some '<'
  | ['g', 't'] => some '>'
  | ['a', 'm', 'p'] => some '&'
  | ['a', 'p', 'o', 's'] => some '\''
  | ['q', 'u', 'o', 't'] => some '"'
  | '#' :: number =>
    (codePoint? number).bind fun n => if n ≠ 0 ∧ n.isValidChar then some (Char.ofNat n) else none
  | _ => none

/-- Replaces references.  `pending` holds the characters since an ampersand, last
first.  There is no result if a reference does not end or names nothing. -/
def resolveFrom (pending : Option (List Char)) : List Char → Option (List Char)
  | [] => if pending.isNone then some [] else none
  | c :: r =>
    match pending with
    | none =>
      if c = '&' then resolveFrom (some []) r
      else (resolveFrom none r).map (c :: ·)
    | some name =>
      if c = ';' then
        match referred? name.reverse with
        | some d => (resolveFrom none r).map (d :: ·)
        | none => none
      else if c = '&' then none
      else resolveFrom (some (c :: name)) r

/-- The text with its references replaced. -/
def resolve (cs : List Char) : Option (List Char) := resolveFrom none cs

end Mavlink.Markup
