import Mavlink.Text.Case
import Mavlink.Text.HiddenTable

/-!
# Quoted text

A text is shown between double quotes.  Quotes and backslashes are escaped, the
usual controls have short names, and every other character that does not show as
itself is spelled by its code point in braces.
-/

namespace Mavlink.Text

/-- The code point of a character in the braces of an escape. -/
def spelled (c : Char) : List Char :=
  ['\\', 'u', '\x7b'] ++ Nat.toDigits 16 c.toNat ++ ['\x7d']

/-- One character of a quoted text. -/
def quotedChar (c : Char) : List Char :=
  if c = '"' then ['\\', '"']
  else if c = '\\' then ['\\', '\\']
  else if c = '\n' then ['\\', 'n']
  else if c = '\r' then ['\\', 'r']
  else if c = '\t' then ['\\', 't']
  else if c = '\x00' then ['\\', '0']
  else if inRanges HiddenTable.hidden c.toNat then spelled c
  else [c]

/-- The text between quotes, escaped. -/
def quoted (s : String) : String :=
  String.ofList ('"' :: s.toList.flatMap quotedChar ++ ['"'])

end Mavlink.Text
