import Mavlink.Codegen.Lines
import Mavlink.Codegen.PythonModule

/-!
# The text of Python modules

The code stands by itself: what the classes share is at the head of the file.
-/

namespace Mavlink.Codegen

namespace PythonModule

/-! ## The head of the file -/

/-- What the classes share. -/
def sharedLines : List String := [
  "import struct",
  "",
  "",
  "class EncodeError(ValueError):",
  "    \"\"\"Message can't be encoded.\"\"\"",
  "",
  "",
  "class DecodeError(ValueError):",
  "    \"\"\"Payload can't be decoded.\"\"\"",
  "",
  "",
  "def _truncate(payload):",
  "    end = len(payload)",
  "    while end > 1 and payload[end - 1] == 0:",
  "        end -= 1",
  "    return payload[:end]",
  "",
  "",
  "def _finish(message, payload, version):",
  "    if version == 1:",
  "        if message.ID > 255:",
  "            raise EncodeError(\"message ID %d can't be encoded as MAVLink 1\" % message.ID)",
  "        return payload[: message.BASE_LEN]",
  "    return _truncate(payload)",
  "",
  "",
  "def _prepare(message, payload, version):",
  "    if len(payload) > message.MAX_LEN:",
  "        raise DecodeError(",
  "            \"payload of %s is %d bytes, at most %d is allowed\"",
  "            % (message.NAME, len(payload), message.MAX_LEN)",
  "        )",
  "    if version == 1:",
  "        payload = payload[: message.BASE_LEN]",
  "    return payload + bytes(message.MAX_LEN - len(payload))",
  "",
  "",
  "def _text(value, length, message, field):",
  "    data = value.encode(\"utf-8\")",
  "    if len(data) > length:",
  "        raise EncodeError(",
  "            \"field `%s.%s` expects %d elements, got %d\" % (message, field, length, len(data))",
  "        )",
  "    return data",
  "",
  "",
  "def _array(value, length, message, field):",
  "    values = list(value)",
  "    if len(values) != length:",
  "        raise EncodeError(",
  "            \"field `%s.%s` expects %d elements, got %d\" % (message, field, length, len(values))",
  "        )",
  "    return values"]

/-- The lines before the first enumeration. -/
def headLines (d : Dialect) : List String :=
  let name := d.name
  [s!"\"\"\"MAVLink dialect `{name}`.", "", "Generated by mavkit. Do not edit.", "\"\"\"", ""]
  ++ sharedLines
  ++ ["", "", s!"DIALECT_NAME = \"{name}\""]

/-! ## Enumerations -/

/-- The lines of an enumeration. -/
def enumLines (e : PythonEnum) : List String :=
  let name := e.enum.name
  ["", "", s!"# {name}"]
  ++ (e.enum.description.map (comment "# ")).getD []
  ++ e.constants.map fun c =>
    let ident := c.ident
    let value := c.entry.value
    s!"{ident} = {value}"

/-! ## Classes -/

/-- A text inside a documentation string: no backslash escapes, and nothing ends it. -/
def documented : List Char → List Char
  | '\\' :: r => '\\' :: '\\' :: documented r
  | '"' :: '"' :: '"' :: r => '\\' :: '"' :: '\\' :: '"' :: '\\' :: '"' :: documented r
  | c :: r => c :: documented r
  | [] => []

/-- The letter of a number in a format. -/
def formatLetter : NumberType → String
  | .i8 => "b"
  | .u8 => "B"
  | .i16 => "h"
  | .u16 => "H"
  | .i32 => "i"
  | .u32 => "I"
  | .i64 => "q"
  | .u64 => "Q"
  | .f32 => "f"
  | .f64 => "d"

/-- The text of an item of a format. -/
def formatText : FormatItem → String
  | .number type => formatLetter type
  | .numbers type count => toString count ++ formatLetter type
  | .text length => toString length ++ "s"

/-- The literal for zero of a number. -/
def zeroLiteral (p : Primitive) : String := if p.isFloat then "0.0" else "0"

/-- The parameter of a field. -/
def parameterText (f : PythonMember) : String :=
  match f.field.type with
  | .scalar p => f.ident ++ "=" ++ zeroLiteral p
  | .array .char _ => f.ident ++ "=\"\""
  | .array _ _ => f.ident ++ "=None"

/-- The line that sets a field to its parameter.  A list is copied, and made if it is
not given. -/
def assignmentLine (f : PythonMember) : String :=
  let ident := f.ident
  match f.field.type with
  | .scalar _ | .array .char _ => s!"self.{ident} = {ident}"
  | .array p n =>
    let zero := zeroLiteral p
    s!"self.{ident} = [{zero}] * {n} if {ident} is None else list({ident})"

/-- The text of what is packed for a field. -/
def argumentText : PackArgument → String
  | .number ident => s!"self.{ident}"
  | .text ident name length => s!"_text(self.{ident}, {length}, self.NAME, \"{name}\")"
  | .each ident name length => s!"*_array(self.{ident}, {length}, self.NAME, \"{name}\")"

/-- The text of the value in a slot. -/
def slotText : UnpackSlot → String
  | .number index => s!"values[{index}]"
  | .text index =>
    s!"values[{index}].split(b\"\\0\", 1)[0].decode(\"utf-8\", \"replace\")"
  | .range first stop => s!"list(values[{first}:{stop}])"

/-- What is said about a message and what is known of it. -/
def constantLines (c : PythonClass) : List String :=
  let m := c.message
  let name := m.name
  let id := m.id
  let fingerprint := m.fingerprint.toNat
  let baseLength := m.baseLength
  let maxLength := m.maxLength
  let format := String.join (c.format.map formatText)
  [s!"\"\"\"MAVLink message `{name}` (ID {id})."]
  ++ (match m.description with
    | none => []
    | some description => "" :: comment "" (String.ofList (documented description.toList)))
  ++ ["\"\"\"",
    "",
    s!"ID = {id}",
    s!"NAME = \"{name}\"",
    s!"CRC_EXTRA = {fingerprint}",
    s!"BASE_LEN = {baseLength}",
    s!"MAX_LEN = {maxLength}",
    s!"_FORMAT = struct.Struct(\"<{format}\")"]

/-- The constructor. -/
def constructorLines (c : PythonClass) : List String :=
  let parameters := String.intercalate ", " (c.members.map parameterText)
  below s!"def __init__(self, {parameters}):" (c.members.map assignmentLine)

/-- The method that gives the payload. -/
def encodeLines (c : PythonClass) : List String :=
  below "def encode(self, version=2):"
    (below "try:"
      (enclosed "payload = self._FORMAT.pack(" (c.arguments.map (argumentText · ++ ",")) ")")
    ++ ["except (struct.error, OverflowError) as err:",
      "    raise EncodeError(\"%s: %s\" % (self.NAME, err))",
      "return _finish(self, payload, version)"])

/-- The method that reads a payload. -/
def decodeLines (c : PythonClass) : List String :=
  "@classmethod" :: below "def decode(cls, payload, version=2):"
    ("values = cls._FORMAT.unpack(_prepare(cls, bytes(payload), version))"
      :: enclosed "return cls("
        (c.slots.map fun slot => slot.1 ++ "=" ++ slotText slot.2 ++ ",") ")")

/-- The methods that compare and show. -/
def comparisonLines : List String := [
  "def __eq__(self, other):",
  "    return isinstance(other, self.__class__) and self.__dict__ == other.__dict__",
  "",
  "def __repr__(self):",
  "    fields = \", \".join(\"%s=%r\" % item for item in self.__dict__.items())",
  "    return \"%s(%s)\" % (self.__class__.__name__, fields)"]

/-- The lines of a class. -/
def classLines (c : PythonClass) : List String :=
  let ident := c.ident
  ["", ""] ++ below s!"class {ident}:"
    (List.intercalate [""] [constantLines c, constructorLines c, encodeLines c, decodeLines c,
      comparisonLines])

/-! ## The file -/

/-- The lines of a table from message numbers. -/
def tableLines (m : PythonModule) (name : String) (value : PythonClass → String) : List String :=
  enclosed (name ++ " = \x7b")
    (m.classes.map fun c =>
      let id := c.message.id
      let value := value c
      s!"{id}: {value},")
    "\x7d"

/-- The text of the module. -/
def text (m : PythonModule) : String :=
  unlines (headLines m.dialect
    ++ m.enums.flatMap enumLines
    ++ m.classes.flatMap classLines
    ++ ["", ""] ++ m.tableLines "CRC_EXTRA" (fun c => toString c.message.fingerprint.toNat)
    ++ [""] ++ m.tableLines "MESSAGES" fun c => c.ident)

end PythonModule
end Mavlink.Codegen
