/-!
# Blanks, words and lines

Definition files, waypoint files and names of targets are cut at blanks.  A blank
is any character of the Unicode property White_Space, so a no-break space counts,
and a byte order mark does not.

* `words` cuts at runs of blanks and never returns an empty word;
* `lines` cuts at line feeds; a carriage return belongs to the line end only if a
  line feed follows it.
-/

namespace Mavlink.Text

/-- The characters of the property White_Space. -/
def isBlank (c : Char) : Bool :=
  let n := c.toNat
  (0x9 ≤ n && n ≤ 0xD) || n == 0x20 || n == 0x85 || n == 0xA0 || n == 0x1680 ||
    (0x2000 ≤ n && n ≤ 0x200A) || n == 0x2028 || n == 0x2029 || n == 0x202F ||
    n == 0x205F || n == 0x3000

/-- The text without the blanks at its end. -/
def trimEnd (cs : List Char) : List Char := (cs.reverse.dropWhile isBlank).reverse

/-- The text without the blanks around it. -/
def trim (cs : List Char) : List Char := trimEnd (cs.dropWhile isBlank)

/-- The maximal runs of characters that are not blank. -/
def words : List Char → List (List Char)
  | [] => []
  | [c] => if isBlank c then [] else [[c]]
  | c :: d :: r =>
    if isBlank c then words (d :: r)
    else if isBlank d then [c] :: words (d :: r)
    else match words (d :: r) with
      | [] => [[c]]
      | w :: ws => (c :: w) :: ws

/-- The lines of a text without their ends.  Text after the last line feed is a
line only if there is any. -/
def lines : List Char → List (List Char)
  | [] => []
  | '\n' :: r => [] :: lines r
  | '\r' :: '\n' :: r => [] :: lines r
  | [c] => [[c]]
  | c :: d :: r =>
    match lines (d :: r) with
    | [] => [[c]]
    | l :: ls => (c :: l) :: ls

/-- `trim` on strings. -/
def trimmed (s : String) : String := String.ofList (trim s.toList)

end Mavlink.Text
