import Mavlink.Schema.FieldType
import Mavlink.Text.Utf8
import Mavlink.Wire.Checksum
import Mavlink.Wire.Version
import Mavlink.Wire.Payload

/-!
# Messages and their layout

The fields of a message are sent in another order than they are declared: the
base fields first, those of wider elements before those of narrower ones, and
after them the extension fields as they are declared.  Every base field then
stands at a multiple of its element's width.

A message exists only if it can be sent.  What keeps it from being sent is its
`fault?`, and a `Message` carries the fact that it has none.

The fingerprint is a byte taken from the checksum of the base layout.  It is in
the checksum of every frame, so that the two ends of a link agree about the
layout of what they exchange.
-/

namespace Mavlink

/-- A field of a message. -/
structure Field where
  name : String
  type : FieldType
  /-- Whether only the second version of the protocol carries the field. -/
  isExtension : Bool := false
  /-- The enumeration that the values come from. -/
  enum : Option String := none
  units : Option String := none
  display : Option String := none
  printFormat : Option String := none
  invalid : Option String := none
  description : Option String := none
  deriving DecidableEq

namespace Field

/-- The bytes of a field. -/
def size (f : Field) : Nat := f.type.size

/-- What the layout of a message depends on. -/
def shape (f : Field) : String × FieldType × Bool := (f.name, f.type, f.isExtension)

end Field

namespace Layout

/-- The bytes of fields. -/
def size (fields : List Field) : Nat := fields.foldr (fun f n => f.size + n) 0

/-- The fields that both versions of the protocol carry. -/
def base (fields : List Field) : List Field := fields.filter (!·.isExtension)

/-- The fields that only the second version carries. -/
def extensions (fields : List Field) : List Field := fields.filter (·.isExtension)

/-- The fields in the order in which they are sent. -/
def wire (fields : List Field) : List Field :=
  (base fields).mergeSort (fun a b => b.type.element.size ≤ a.type.element.size)
    ++ extensions fields

/-- What is wrong with the names and types of fields, in their order; `seen` holds
the names before. -/
def fieldFault? (message : String) (seen : List String) : List Field → Option SchemaError
  | [] => none
  | f :: r =>
    if f.name ∈ seen then some (.duplicateField message f.name)
    else if f.type.length? = some 0 then some (.zeroLengthArray message f.name)
    else fieldFault? message (f.name :: seen) r

/-- The first base field after an extension field. -/
def misplaced? (fields : List Field) : Option Field :=
  (fields.dropWhile (!·.isExtension)).find? (!·.isExtension)

/-- What keeps a message from being sent, the first of several faults. -/
def fault? (id : Nat) (name : String) (fields : List Field) : Option SchemaError :=
  if Version.v2.maxMessageId < id then some (.messageIdOutOfRange name id)
  else if fields = [] then some (.emptyMessage name)
  else match fieldFault? name [] fields with
    | some fault => some fault
    | none =>
      match misplaced? fields with
      | some f => some (.misplacedExtension name f.name)
      | none =>
        if Payload.maxSize < size fields then some (.payloadTooLarge name (size fields))
        else none

/-- The text from which a fingerprint is taken. -/
def fingerprintText (name : String) (fields : List Field) : Bytes :=
  Text.utf8 (name ++ " ") ++ (base (wire fields)).flatMap fun f =>
    Text.utf8 (f.type.element.canonical ++ " " ++ f.name ++ " ")
      ++ (f.type.length?.map fun n => UInt8.ofNat n).toList

/-- The fingerprint of a layout. -/
def fingerprint (name : String) (fields : List Field) : UInt8 :=
  let crc := Wire.crc (fingerprintText name fields)
  crc.toUInt8 ^^^ (crc >>> 8).toUInt8

end Layout

/-- A message that can be sent. -/
structure Message where
  id : MessageId
  name : String
  description : Option String
  deprecated : Bool
  /-- The fields as they are declared. -/
  fields : List Field
  sound : Layout.fault? id name fields = none
  deriving DecidableEq

namespace Message

/-- The message of fields, unless something keeps it from being sent. -/
def make (id : Nat) (name : String) (fields : List Field)
    (description : Option String := none) (deprecated : Bool := false) :
    Except SchemaError Message :=
  match h : Layout.fault? id name fields with
  | some fault => .error fault
  | none => .ok ⟨id, name, description, deprecated, fields, h⟩

/-- The fields in the order in which they are sent. -/
def wireFields (m : Message) : List Field := Layout.wire m.fields

/-- The base fields in the order in which they are sent. -/
def baseFields (m : Message) : List Field := Layout.base m.wireFields

/-- The extension fields. -/
def extensionFields (m : Message) : List Field := Layout.extensions m.fields

/-- The place of the first extension field among the fields. -/
def extensionsOffset? (m : Message) : Option Nat := m.fields.findIdx? (·.isExtension)

/-- The bytes of the base fields. -/
def baseLength (m : Message) : Nat := Layout.size (Layout.base m.fields)

/-- The bytes of all fields. -/
def maxLength (m : Message) : Nat := Layout.size m.fields

/-- The fingerprint of the layout. -/
def fingerprint (m : Message) : UInt8 := Layout.fingerprint m.name m.fields

/-- Whether the first version of the protocol can carry the message. -/
def fitsVersion1 (m : Message) : Bool := m.id ≤ Version.v1.maxMessageId

/-- The field of a name. -/
def field? (m : Message) (name : String) : Option Field := m.fields.find? (·.name = name)

/-- Whether two definitions mean the same on the wire. -/
def SameLayout (a b : Message) : Prop :=
  a.id = b.id ∧ a.name = b.name ∧ a.fields.map Field.shape = b.fields.map Field.shape

instance (a b : Message) : Decidable (SameLayout a b) := by unfold SameLayout; infer_instance

end Message
end Mavlink
