import Mavlink.Text.CaseTable
import Mavlink.Text.WordTable

/-!
# Letter case

`upperChar` and `lowerChar` map one character by itself.  Lowering a whole word
depends on the letters around it in one case: a capital sigma that ends a word
becomes the final form of the small letter.
-/

namespace Mavlink.Text

open CaseTable

/-- The image of a code point under the first run that holds it. -/
def moved? (n : Nat) : List Run → Option Nat
  | [] => none
  | run :: runs =>
    if run.first ≤ n && n ≤ run.last && (n - run.first) % run.stride == 0 then
      some (Int.toNat (n + run.shift))
    else moved? n runs

/-- The image of a character: several characters, one, or itself. -/
def mapCase (runs : List Run) (many : List (Nat × List Nat)) (c : Char) : List Char :=
  match many.lookup c.toNat with
  | some image => image.map Char.ofNat
  | none => [((moved? c.toNat runs).map Char.ofNat).getD c]

/-- The upper case of a character. -/
def upperChar (c : Char) : List Char := mapCase upperRuns upperMany c

/-- The lower case of a character by itself. -/
def lowerChar (c : Char) : List Char := mapCase lowerRuns lowerMany c

/-- Whether a code point lies in one of the inclusive ranges. -/
def inRanges (ranges : List (Nat × Nat)) (n : Nat) : Bool :=
  ranges.any fun r => r.1 ≤ n && n ≤ r.2

/-- Whether the first character that is not passed over is a letter with case. -/
def leadsToCased : List Char → Bool
  | [] => false
  | c :: r =>
    if inRanges WordTable.passed c.toNat then leadsToCased r
    else inRanges WordTable.cased c.toNat

/-- Lowers the rest of a word; `before` holds the characters already passed, last first. -/
def lowerFrom (before : List Char) : List Char → List Char
  | [] => []
  | c :: r =>
    let image :=
      if c = 'Σ' then
        if leadsToCased before && !leadsToCased r then ['ς'] else ['σ']
      else lowerChar c
    image ++ lowerFrom (c :: before) r

/-- The lower case of a text. -/
def lower (cs : List Char) : List Char := lowerFrom [] cs

/-- The upper case of a text. -/
def upper (cs : List Char) : List Char := cs.flatMap upperChar

end Mavlink.Text
