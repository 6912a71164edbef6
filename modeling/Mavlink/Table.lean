import Mavlink.Schema.Dialect
import Mavlink.Value
import Mavlink.Wire.Frame
import Mavlink.Wire.PayloadReader
import Mavlink.Wire.PayloadWriter

/-!
# Encoding by name

A table holds the messages of a dialect, to encode and decode messages whose
fields are given by name.  Every base field must be given.  An extension field
that is not given is zero, and so is one that a payload does not reach.
-/

namespace Mavlink

/-- The messages of a dialect. -/
structure Table where
  /-- The name of the dialect. -/
  name : String
  messages : Dictionary MessageId Message
  /-- The number of each name. -/
  idOf : Dictionary String MessageId

namespace Table

/-- The table of a dialect. -/
def ofDialect (d : Dialect) : Table where
  name := d.name
  messages := Dictionary.ofList (d.messages.values.map fun m => (m.id, m))
  idOf := d.messages.values.foldl (fun ids m => ids.insert m.name m.id) ∅

/-- What the table knows of messages to read frames. -/
def lookup (t : Table) : Lookup where
  fingerprint id := (t.messages.find? id).map (·.fingerprint)
  maxLength id := (t.messages.find? id).map (·.maxLength)

/-! ## Writing -/

/-- Writes an element of a field. -/
def putPrimitive (message : String) (f : Field) (p : Primitive) (w : PayloadWriter)
    (value : Value) : Except EncodeError PayloadWriter :=
  if p.isFloat then
    match value.toFloat? with
    | none => .error (.typeMismatch message f.name f.type.text)
    | some x =>
      if p = .float then
        if x.exceedsSingle then .error (.outOfRange message f.name p.token value.shown)
        else .ok (w.putSingle x.narrow)
      else .ok (w.putDouble x)
  else
    match value.toInt? with
    | none => .error (.typeMismatch message f.name f.type.text)
    | some n =>
      let (low, high) := p.range?.getD (0, 255)
      if n < low ∨ high < n then .error (.outOfRange message f.name p.token value.shown)
      else .ok (w.putInt p.number n)

/-- Writes the value of a field.  A character may be given as a text or as the
number of its byte. -/
def putValue (message : String) (f : Field) (w : PayloadWriter) (value : Value) :
    Except EncodeError PayloadWriter :=
  match f.type with
  | .scalar .char =>
    match value with
    | .text s => w.putText message f.name s 1
    | .int _ | .uint _ => putPrimitive message f .uint8 w value
    | _ => .error (.typeMismatch message f.name f.type.text)
  | .scalar p => putPrimitive message f p w value
  | .array .char n =>
    match value with
    | .text s => w.putText message f.name s n
    | _ => .error (.typeMismatch message f.name f.type.text)
  | .array p n =>
    match value with
    | .array values =>
      if values.length ≠ n then .error (.arrayLength message f.name n values.length)
      else values.foldlM (putPrimitive message f p) w
    | _ => .error (.typeMismatch message f.name f.type.text)

/-- Writes a field of a message. -/
def putField (message : String) (v : MessageValue) (w : PayloadWriter) (f : Field) :
    Except EncodeError PayloadWriter :=
  match v.get? f.name with
  | some value => putValue message f w value
  | none =>
    if f.isExtension then .ok (w.putBytes (List.replicate f.size 0))
    else .error (.missingField message f.name)

/-- The payload of a message. -/
def encode (t : Table) (v : MessageValue) (version : Version) : Except EncodeError Payload :=
  match t.messages.find? v.id with
  | none => .error (.unknownMessage v.id)
  | some m =>
    match v.fields.keys.find? fun name => (m.field? name).isNone with
    | some name => .error (.unknownField m.name name)
    | none => do
      let w ← m.wireFields.foldlM (putField m.name v) (.start m.id m.baseLength)
      w.finish version

/-! ## Reading -/

/-- The element at the beginning of what is left. -/
def readPrimitive (r : PayloadReader) (p : Primitive) : Value :=
  match p with
  | .float => .float r.single.widen
  | .double => .float r.double
  | p =>
    if p.isSigned then .int (Int64.ofInt (r.int p.size))
    else .uint (UInt64.ofNat (r.word p.size))

/-- The value of a field at the beginning of what is left. -/
def readValue (r : PayloadReader) : FieldType → Value
  | .scalar .char => .text (r.text 1)
  | .scalar p => readPrimitive r p
  | .array .char n => .text (r.text n)
  | .array p n => .array ((List.range n).map fun i => readPrimitive (r.skip (i * p.size)) p)

/-- The names and values of fields one after another. -/
def readFields (r : PayloadReader) : List Field → List (String × Value)
  | [] => []
  | f :: fs => (f.name, readValue r f.type) :: readFields (r.skip f.size) fs

/-- The message of a payload, with all its fields. -/
def decode (t : Table) (p : Payload) : Except DecodeError MessageValue :=
  match t.messages.find? p.id with
  | none => .error (.unknownMessage p.id p.bytes)
  | some m => do
    let r ← PayloadReader.start p m.maxLength
    return ⟨m.id, Dictionary.ofList (readFields r m.wireFields)⟩

end Table
end Mavlink
