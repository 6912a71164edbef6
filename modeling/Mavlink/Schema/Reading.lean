import Mavlink.Markup.Event
import Mavlink.Schema.Definition

/-!
# Reading a definition file

A definition file is read event by event.  The reader remembers the elements it
is in and at most one message, field, enumeration and entry in the making, each
begun by its opening tag and put where it belongs by its closing tag.  Elements
that mean nothing in their place are passed over.

A fault of the markup is placed by the count of bytes before the event in which it
was found.
-/

namespace Mavlink.Schema

open Markup

/-- A message in the making. -/
structure MessageDraft where
  id : Nat
  name : String
  description : Option String := none
  deprecated : Bool := false
  /-- Whether the fields to come are extensions. -/
  inExtensions : Bool := false
  fields : List Field := []

/-- The reader between two events. -/
structure Reader where
  /-- The elements that are open, innermost first. -/
  inside : List String := []
  definition : Definition := {}
  message : Option MessageDraft := none
  field : Option Field := none
  enum : Option Enum := none
  entry : Option EnumEntry := none
  /-- The number of the next entry that has none of its own. -/
  nextValue : Nat := 0

/-- Why reading stops. -/
inductive ReadingFault where
  | markup (fault : MarkupFault)
  | schema (error : SchemaError)

/-- The greatest number that can be written. -/
def maxNumber : Nat := 0xFFFFFFFFFFFFFFFF

/-- A whole number of 64 bits, in decimal or after `0x` in hexadecimal digits. -/
def number? (s : String) : Option Nat :=
  match s.toList with
  | '0' :: 'x' :: digits | '0' :: 'X' :: digits => Text.whole? 16 maxNumber digits
  | digits => Text.whole? 10 maxNumber digits

/-- Adds a text to a description; an empty one adds nothing. -/
def addText (text : String) (description : Option String) : Option String :=
  if text = "" then description
  else some (match description with
    | none => text
    | some before => before ++ " " ++ text)

namespace Reader

/-- An attribute that need not be there. -/
def optional (tag : Tag) (name : String) : Except ReadingFault (Option String) :=
  (tag.attribute? name).mapError .markup

/-- An attribute that must be there. -/
def required (file : String) (tag : Tag) (name : String) : Except ReadingFault String := do
  match ← optional tag name with
  | some value => return value
  | none => .error (.schema (.missingAttribute file tag.name name))

/-- A number of at most `limit`, or the complaint that it is none. -/
def numberOr (file context value : String) (limit : Nat) : Except ReadingFault Nat :=
  match (number? value).filter (· ≤ limit) with
  | some n => .ok n
  | none => .error (.schema (.invalidValue file context value))

/-- Whether the innermost open element has a name. -/
def isIn (r : Reader) (element : String) : Bool := r.inside.head? = some element

/-- Begins an enumeration. -/
def beginEnum (file : String) (r : Reader) (tag : Tag) : Except ReadingFault Reader := do
  let name ← required file tag "name"
  let bitmask ← optional tag "bitmask"
  return { r with enum := some { name, bitmask := bitmask = some "true" }, nextValue := 0 }

/-- Begins an entry.  Without a number of its own it gets the one after the entry
before it, the greatest number having no successor. -/
def beginEntry (file : String) (r : Reader) (tag : Tag) : Except ReadingFault Reader := do
  let name ← required file tag "name"
  let value ← match ← optional tag "value" with
    | some value => numberOr file s!"value of enum entry `{name}`" value EnumEntry.maxValue
    | none => pure r.nextValue
  return { r with
    entry := some { value, name }
    nextValue := min (value + 1) EnumEntry.maxValue }

/-- Begins a message. -/
def beginMessage (file : String) (r : Reader) (tag : Tag) : Except ReadingFault Reader := do
  let name ← required file tag "name"
  let value ← required file tag "id"
  let id ← numberOr file s!"id of message `{name}`" value maxNumber
  return { r with message := some { id, name } }

/-- Begins a field. -/
def beginField (file : String) (r : Reader) (tag : Tag) : Except ReadingFault Reader := do
  let name ← required file tag "name"
  let typeName ← required file tag "type"
  match FieldType.read? typeName with
  | none =>
    .error (.schema (.unknownType ((r.message.map (·.name)).getD "") name typeName))
  | some type =>
    let enum ← optional tag "enum"
    let units ← optional tag "units"
    let display ← optional tag "display"
    let printFormat ← optional tag "print_format"
    let invalid ← optional tag "invalid"
    let isExtension := (r.message.map (·.inExtensions)).getD false
    return { r with
      field := some { name, type, isExtension, enum, units, display, printFormat, invalid } }

/-- What an opening tag begins. -/
def beginElement (file : String) (r : Reader) (tag : Tag) : Except ReadingFault Reader :=
  if tag.name = "enum" ∧ r.isIn "enums" then r.beginEnum file tag
  else if tag.name = "entry" ∧ r.enum.isSome then r.beginEntry file tag
  else if tag.name = "message" ∧ r.isIn "messages" then r.beginMessage file tag
  else if tag.name = "extensions" ∧ r.isIn "message" then
    .ok { r with message := r.message.map fun m => { m with inExtensions := true } }
  else if tag.name = "deprecated" ∧ r.isIn "message" then
    .ok { r with message := r.message.map fun m => { m with deprecated := true } }
  else if tag.name = "field" ∧ r.isIn "message" then r.beginField file tag
  else .ok r

/-- An element opens. -/
def opening (file : String) (r : Reader) (tag : Tag) : Except ReadingFault Reader := do
  if r.inside = [] ∧ tag.name ≠ "mavlink" then .error (.markup (.wrongRoot tag.name))
  else
    let r ← r.beginElement file tag
    return { r with inside := tag.name :: r.inside }

/-- Puts the field where it belongs. -/
def endField (r : Reader) : Reader :=
  match r.field, r.message with
  | some f, some m => { r with field := none, message := some { m with fields := m.fields ++ [f] } }
  | _, _ => { r with field := none }

/-- Makes the message. -/
def endMessage (r : Reader) : Except ReadingFault Reader :=
  match r.message with
  | none => .ok r
  | some m =>
    match Message.make m.id m.name m.fields m.description m.deprecated with
    | .error e => .error (.schema e)
    | .ok message =>
      .ok { r with
        message := none
        definition := { r.definition with messages := r.definition.messages ++ [message] } }

/-- Puts the entry where it belongs. -/
def endEntry (r : Reader) : Reader :=
  match r.entry, r.enum with
  | some y, some e => { r with entry := none, enum := some { e with entries := e.entries ++ [y] } }
  | _, _ => { r with entry := none }

/-- Puts the enumeration where it belongs. -/
def endEnum (r : Reader) : Reader :=
  match r.enum with
  | none => r
  | some e =>
    { r with
      enum := none
      definition := { r.definition with enums := r.definition.enums ++ [e] } }

/-- An element closes. -/
def closing (r : Reader) : Except ReadingFault Reader :=
  let element := r.inside.headD ""
  let r := { r with inside := r.inside.tail }
  match element with
  | "field" => .ok r.endField
  | "message" => r.endMessage
  | "entry" => .ok r.endEntry
  | "enum" => .ok r.endEnum
  | "" => .error (.markup .unexpectedClosing)
  | _ => .ok r

/-- A text in the innermost open element. -/
def text (file : String) (r : Reader) (content : String) : Except ReadingFault Reader :=
  let content := Text.trimmed content
  match (r.inside.tail.headD ""), (r.inside.headD "") with
  | "mavlink", "include" =>
    .ok { r with definition :=
      { r.definition with includes := r.definition.includes ++ [content] } }
  | "mavlink", "version" => do
    let n ← numberOr file "version" content 0xFF
    return { r with definition := { r.definition with version := some n } }
  | "mavlink", "dialect" => do
    let n ← numberOr file "dialect" content 0xFFFFFFFF
    return { r with definition := { r.definition with dialect := some n } }
  | _, "field" =>
    .ok { r with field := r.field.map fun f =>
      { f with description := addText content f.description } }
  | "message", "description" =>
    .ok { r with message := r.message.map fun m =>
      { m with description := addText content m.description } }
  | "enum", "description" =>
    .ok { r with enum := r.enum.map fun e =>
      { e with description := addText content e.description } }
  | "entry", "description" =>
    .ok { r with entry := r.entry.map fun y =>
      { y with description := addText content y.description } }
  | _, _ => .ok r

/-- Reads one event. -/
def read (file : String) (r : Reader) : Event → Except ReadingFault Reader
  | .opening tag => r.opening file tag
  | .empty tag => do (← r.opening file tag).closing
  | .closing => r.closing
  | .text content => r.text file content
  | .finished =>
    if r.inside = [] then .ok r else .error (.markup (.unclosed r.inside.reverse))
  | .malformed => .error (.markup .malformed)

end Reader

/-- The bytes of a text. -/
def byteCount (cs : List Char) : Nat := cs.foldr (fun c n => c.utf8Size + n) 0

/-- Reads events to their end.  The end of the text is where an element that is
not closed is found out. -/
def readEvents (file : String) (total : Nat) (r : Reader) :
    List (List Char × Event) → Except SchemaError Definition
  | [] => .ok r.definition
  | (place, event) :: more =>
    match r.read file event with
    | .ok r => readEvents file total r more
    | .error (.schema error) => .error error
    | .error (.markup fault) =>
      let position := match event with
        | .finished => total
        | _ => total - byteCount place
      .error (.markup file position fault)

end Mavlink.Schema

namespace Mavlink

/-- Reads the text of a definition file. -/
def Definition.read (file source : String) : Except SchemaError Definition :=
  let cs := Markup.withoutMark source.toList
  Schema.readEvents file (Schema.byteCount cs) {} (Markup.events cs)

end Mavlink
