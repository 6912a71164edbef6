import Mavlink.Error
import Mavlink.Markup.Reference
import Mavlink.Text.Blank

/-!
# Tags and their attributes

The attributes of a tag are not read until one is asked for, and then only as far
as it takes to find it.  Nobody notices what is wrong behind it.
-/

namespace Mavlink.Markup

/-- The blanks of markup. -/
def isSpace (c : Char) : Bool := c = ' ' || c = '\t' || c = '\r' || c = '\n'

/-- A tag: its name, and what stands between the name and the end. -/
structure Tag where
  name : String
  attributes : List Char

/-- The tag between angle brackets. -/
def Tag.ofContent (content : List Char) : Tag :=
  ⟨String.ofList (content.takeWhile (!isSpace ·)), content.dropWhile (!isSpace ·)⟩

/-- Where the reading of attributes stands. -/
inductive AttributeStage where
  | beforeKey
  /-- In a key; its characters, last first. -/
  | key (name : List Char)
  | beforeEquals (name : List Char)
  | beforeValue (name : List Char)
  /-- In a value after this quote; its characters, last first. -/
  | value (name : List Char) (quote : Char) (text : List Char)

/-- Looks for an attribute, `seen` being the keys before.  The result is the text
between its quotes, nothing if the tag ends before, and a fault if the attributes
up to there are not well formed. -/
def findAttribute (wanted : List Char) (seen : List (List Char)) :
    AttributeStage → List Char → Except MarkupFault (Option (List Char))
  | .beforeKey, [] => .ok none
  | _, [] => .error .malformed
  | .beforeKey, c :: r =>
    if isSpace c then findAttribute wanted seen .beforeKey r
    else findAttribute wanted seen (.key [c]) r
  | .key name, c :: r =>
    if c = '=' then findAttribute wanted seen (.beforeValue name) r
    else if isSpace c then findAttribute wanted seen (.beforeEquals name) r
    else findAttribute wanted seen (.key (c :: name)) r
  | .beforeEquals name, c :: r =>
    if isSpace c then findAttribute wanted seen (.beforeEquals name) r
    else if c = '=' then findAttribute wanted seen (.beforeValue name) r
    else .error .malformed
  | .beforeValue name, c :: r =>
    if isSpace c then findAttribute wanted seen (.beforeValue name) r
    else if name ∈ seen then .error .malformed
    else if c = '"' ∨ c = '\'' then findAttribute wanted seen (.value name c []) r
    else .error .malformed
  | .value name quote text, c :: r =>
    if c = quote then
      if name.reverse = wanted then .ok (some text.reverse)
      else findAttribute wanted (name :: seen) .beforeKey r
    else findAttribute wanted seen (.value name quote (c :: text)) r

/-- The value of an attribute without the blanks around it, if the tag has it. -/
def Tag.attribute? (tag : Tag) (name : String) : Except MarkupFault (Option String) := do
  match ← findAttribute name.toList [] .beforeKey tag.attributes with
  | none => return none
  | some raw =>
    match resolve raw with
    | none => .error .malformed
    | some value => return some (String.ofList (Text.trim value))

end Mavlink.Markup
