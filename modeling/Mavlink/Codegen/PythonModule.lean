import Mavlink.Codegen.Naming
import Mavlink.Schema.Dialect

/-!
# Python modules

What is in the Python module of a dialect: a constant for each entry of an
enumeration, and for each message a class.  A class packs all its fields at once, by
a format that tells their types and lengths; unpacking gives a tuple, and each field
takes its slots of it.  How this is spelled is in `PythonText`.
-/

namespace Mavlink.Codegen

/-- What a format says about a field. -/
inductive FormatItem where
  | number (type : NumberType)
  | numbers (type : NumberType) (count : Nat)
  /-- A string of bytes, which is one value. -/
  | text (length : Nat)
  deriving DecidableEq

/-- What is packed for a field. -/
inductive PackArgument where
  | number (ident : String)
  /-- The bytes of a text of at most a length; `name` is for the error. -/
  | text (ident name : String) (length : Nat)
  /-- The elements of an array of a length. -/
  | each (ident name : String) (length : Nat)
  deriving DecidableEq

/-- Where the value of a field is among the unpacked values. -/
inductive UnpackSlot where
  | number (index : Nat)
  | text (index : Nat)
  /-- The values from `first` up to, but not with, `stop`. -/
  | range (first stop : Nat)
  deriving DecidableEq

/-- A field of a class. -/
structure PythonMember where
  ident : String
  field : Field
  deriving DecidableEq

/-- The class of a message. -/
structure PythonClass where
  ident : String
  message : Message
  /-- The fields as they are declared. -/
  members : List PythonMember
  /-- The format of the payload. -/
  format : List FormatItem
  /-- What is packed, in order. -/
  arguments : List PackArgument
  /-- The slots of each field, in order. -/
  slots : List (String × UnpackSlot)
  deriving DecidableEq

/-- A constant. -/
structure PythonConstant where
  ident : String
  entry : EnumEntry
  deriving DecidableEq

/-- The constants of an enumeration. -/
structure PythonEnum where
  enum : Enum
  constants : List PythonConstant
  deriving DecidableEq

/-- The module of a dialect. -/
structure PythonModule where
  dialect : Dialect
  enums : List PythonEnum
  classes : List PythonClass

namespace PythonModule

/-- The name of the language as a target. -/
def backend : String := "python"

/-- The words that cannot be identifiers of a class or a field. -/
def keywords : List String := [
  "False", "None", "True", "and", "as", "assert", "async", "await", "break", "class",
  "continue", "def", "del", "elif", "else", "except", "finally", "for", "from", "global", "if",
  "import", "in", "is", "lambda", "nonlocal", "not", "or", "pass", "raise", "return", "try",
  "while", "with", "yield", "self"]

/-- The identifiers that are in every module. -/
def reserved : List String := [
  "struct", "DIALECT_NAME", "EncodeError", "DecodeError", "CRC_EXTRA", "MESSAGES",
  "_truncate", "_finish", "_prepare", "_text", "_array"]

/-- The identifier of a field. -/
def identOf (name : String) : String := escaped keywords (snakeCase name)

/-- What the format says about a field of a type. -/
def formatItemOf : FieldType → FormatItem
  | .scalar p => .number p.number
  | .array .char n => .text n
  | .array p n => .numbers p.number n

/-- What is packed for a field. -/
def argumentOf (f : Field) : PackArgument :=
  match f.type with
  | .scalar _ => .number (identOf f.name)
  | .array .char n => .text (identOf f.name) f.name n
  | .array _ n => .each (identOf f.name) f.name n

/-- The slots of fields whose first value has an index. -/
def slotsFrom (index : Nat) : List Field → List (String × UnpackSlot)
  | [] => []
  | f :: fs =>
    match f.type with
    | .scalar _ => (identOf f.name, .number index) :: slotsFrom (index + 1) fs
    | .array .char _ => (identOf f.name, .text index) :: slotsFrom (index + 1) fs
    | .array _ n => (identOf f.name, .range index (index + n)) :: slotsFrom (index + n) fs

/-- The class of a message. -/
def classOf (m : Message) : PythonClass where
  ident := escaped keywords (pascalCase m.name)
  message := m
  members := m.fields.map fun f => ⟨identOf f.name, f⟩
  format := m.wireFields.map fun f => formatItemOf f.type
  arguments := m.wireFields.map argumentOf
  slots := slotsFrom 0 m.wireFields

/-- The constants of an enumeration. -/
def enumOf (e : Enum) : PythonEnum where
  enum := e
  constants := e.entries.map fun entry => ⟨upperSnakeCase entry.name, entry⟩

/-- What a module declares, in order.  The constants of all enumerations are in one scope. -/
def declarations (m : PythonModule) : List Declaration :=
  (m.enums.flatMap fun e => e.constants.map fun c => ⟨⟨c.ident, c.entry.name⟩, []⟩)
  ++ m.classes.map fun c =>
    ⟨⟨c.ident, c.message.name⟩,
      c.members.map fun f => ⟨f.ident, c.message.name ++ "." ++ f.field.name⟩⟩

/-- The module of a dialect, unless names clash. -/
def ofDialect (d : Dialect) : Except CodegenError PythonModule := do
  let module : PythonModule :=
    ⟨d, d.enums.values.map enumOf, d.messages.values.map classOf⟩
  Scope.check backend reserved module.declarations
  return module

end PythonModule
end Mavlink.Codegen
