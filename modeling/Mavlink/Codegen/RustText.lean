import Mavlink.Codegen.Lines
import Mavlink.Codegen.RustModule

/-!
# The text of Rust modules

The code uses a library that has a type of versions, a payload writer and a payload
reader like those of this one, and a trait for messages.
-/

namespace Mavlink.Codegen

namespace RustModule

/-! ## Types -/

/-- The literal for zero of a number. -/
def zeroLiteral (p : Primitive) : String := if p.isFloat then "0.0" else "0"

/-- The type of a field. -/
def typeText : FieldType → String
  | .scalar p => p.number.name
  | .array .char _ => "String"
  | .array p n => "[" ++ p.number.name ++ "; " ++ toString n ++ "]"

/-- The value of a field that nothing was said about. -/
def zeroText : FieldType → String
  | .scalar p => zeroLiteral p
  | .array .char _ => "String::new()"
  | .array p n => "[" ++ zeroLiteral p ++ "; " ++ toString n ++ "]"

/-! ## The head of the file -/

/-- What is said about the file. -/
def headLines (d : Dialect) : List String :=
  let name := d.name
  paragraphs "//!" ([
    [s!"//! MAVLink dialect `{name}`."],
    ["//! Generated by mavkit. Do not edit."]]
    ++ (d.version.map fun version => [s!"//! Definitions version: {version}."]).toList)

/-- What the code uses. -/
def useLines (m : RustModule) : List String :=
  if m.structs = [] then
    ["use mavkit::protocol::\x7bCrcExtra, CrcExtraLookup, MessageId\x7d;"]
  else [
    "use mavkit::errors::\x7bDecodeError, EncodeError\x7d;",
    "use mavkit::protocol::\x7b",
    "    CrcExtra, CrcExtraLookup, MavLinkVersion, MavMessage, MessageId, Payload,",
    "    PayloadReader, PayloadWriter,",
    "\x7d;"]

/-- The name of the dialect. -/
def nameLines (d : Dialect) : List String :=
  let name := d.name
  ["/// Dialect name.", s!"pub const DIALECT_NAME: &str = \"{name}\";"]

/-! ## Enumerations -/

/-- The lines of a constant. -/
def constantLines (c : RustConstant) : List String :=
  let ident := c.ident
  let value := c.entry.value
  (c.entry.description.map (comment "/// ")).getD []
    ++ [s!"pub const {ident}: u64 = {value};"]

/-- The lines of an enumeration. -/
def enumLines (e : RustEnum) : List String :=
  let name := e.enum.name
  let ident := e.ident
  paragraphs "///" ([[s!"/// Enum `{name}`."]]
    ++ (e.enum.description.map (comment "/// ")).toList
    ++ if e.enum.bitmask then [["/// Bitmask flags."]] else [])
  ++ enclosed s!"pub mod {ident} \x7b" (e.constants.flatMap constantLines) "\x7d"

/-! ## Messages -/

/-- What is said about a message. -/
def messageComment (m : Message) : List String :=
  let name := m.name
  let id := m.id
  paragraphs "///" ((m.description.map (comment "/// ")).toList
    ++ [[s!"/// MAVLink message `{name}` (`ID` {id})."]]
    ++ if m.deprecated then [["/// Deprecated."]] else [])

/-- What is said about a field. -/
def fieldComment (f : Field) : List String :=
  paragraphs "///" ((f.description.map (comment "/// ")).toList
    ++ (f.units.map fun units => [s!"/// Units: `{units}`."]).toList
    ++ (f.enum.map fun enum =>
      let ident := identOf enum
      [s!"/// Values: [`{ident}`]."]).toList
    ++ if f.isExtension then [["/// Extension field, `MAVLink 2` only."]] else [])

/-- The lines of a structure. -/
def structLines (s : RustStruct) : List String :=
  let ident := s.ident
  messageComment s.message ++ ["#[derive(Clone, Debug, PartialEq)]"]
  ++ enclosed s!"pub struct {ident} \x7b"
    (s.members.flatMap fun member =>
      let ident := member.ident
      let type := typeText member.field.type
      fieldComment member.field ++ [s!"pub {ident}: {type},"])
    "\x7d"

/-- The lines of the default value of a structure. -/
def defaultLines (s : RustStruct) : List String :=
  let ident := s.ident
  enclosed s!"impl Default for {ident} \x7b"
    (enclosed "fn default() -> Self \x7b"
      (enclosed "Self \x7b"
        (s.members.map fun member =>
          let ident := member.ident
          let zero := zeroText member.field.type
          s!"{ident}: {zero},")
        "\x7d")
      "\x7d")
    "\x7d"

/-- The lines of a statement that writes a field. -/
def putLines : RustPut → List String
  | .number type ident =>
    let type := type.name
    [s!"writer.put_{type}(self.{ident});"]
  | .each type ident =>
    let type := type.name
    enclosed s!"for value in &self.{ident} \x7b" [s!"writer.put_{type}(*value);"] "\x7d"
  | .text name ident length =>
    [s!"writer.put_str(Self::NAME, \"{name}\", &self.{ident}, {length})?;"]

/-- The text of an expression that reads a field. -/
def getText : RustGet → String
  | .number type =>
    let type := type.name
    s!"reader.get_{type}()"
  | .each type _ =>
    let type := type.name
    s!"std::array::from_fn(|_| reader.get_{type}())"
  | .text length => s!"reader.get_str({length})"

/-- The lines of what a structure does as a message. -/
def messageLines (s : RustStruct) : List String :=
  let ident := s.ident
  let id := s.message.id
  let name := s.message.name
  let fingerprint := s.message.fingerprint.toNat
  let baseLength := s.message.baseLength
  let maxLength := s.message.maxLength
  enclosed s!"impl MavMessage for {ident} \x7b"
    ([s!"const ID: MessageId = {id};",
      s!"const NAME: &'static str = \"{name}\";",
      s!"const CRC_EXTRA: CrcExtra = {fingerprint};",
      s!"const BASE_LEN: usize = {baseLength};",
      s!"const MAX_LEN: usize = {maxLength};",
      ""]
    ++ enclosed
      "fn encode_payload(&self, version: MavLinkVersion) -> Result<Payload, EncodeError> \x7b"
      (["let mut writer = PayloadWriter::for_message::<Self>();"]
        ++ s.puts.flatMap putLines ++ ["writer.finish(version)"])
      "\x7d"
    ++ [""]
    ++ enclosed "fn decode_payload(payload: &Payload) -> Result<Self, DecodeError> \x7b"
      (["let mut reader = PayloadReader::for_message::<Self>(payload)?;"]
        ++ enclosed "Ok(Self \x7b"
          (s.gets.map fun get =>
            let ident := get.1
            let value := getText get.2
            s!"{ident}: {value},")
          "\x7d)")
      "\x7d")
    "\x7d"

/-! ## Looking messages up -/

/-- The lines of a function that looks a message up by its number. -/
def lookupLines (m : RustModule) (said name type : String) (value : Message → String) :
    List String :=
  said :: enclosed s!"pub fn {name}(id: MessageId) -> Option<{type}> \x7b"
    (enclosed "match id \x7b"
      ((m.structs.map fun s =>
        let id := s.message.id
        let value := value s.message
        s!"{id} => Some({value}),") ++ ["_ => None,"])
      "\x7d")
    "\x7d"

/-- The lines of the type that looks messages up for whoever reads frames. -/
def lookupTypeLines : List String := [
  "/// Message lookup for frame decoding.",
  "#[derive(Copy, Clone, Debug, Default)]",
  "pub struct Lookup;",
  "",
  "impl CrcExtraLookup for Lookup \x7b",
  "    fn crc_extra(&self, id: MessageId) -> Option<CrcExtra> \x7b",
  "        crc_extra(id)",
  "    \x7d",
  "",
  "    fn max_payload_len(&self, id: MessageId) -> Option<usize> \x7b",
  "        max_len(id)",
  "    \x7d",
  "\x7d"]

/-! ## The file -/

/-- The parts of the file, which stand with an empty line between each two. -/
def parts (m : RustModule) : List (List String) :=
  [headLines m.dialect, m.useLines, nameLines m.dialect]
  ++ m.enums.map enumLines
  ++ (m.structs.flatMap fun s => [structLines s, defaultLines s, messageLines s])
  ++ [m.lookupLines "/// CRC-extra of a message or `None` if message is not in the dialect."
        "crc_extra" "CrcExtra" fun message => toString message.fingerprint.toNat,
      m.lookupLines "/// Untruncated payload length of a message." "max_len" "usize"
        fun message => toString message.maxLength,
      m.lookupLines "/// Message name by `ID`." "message_name" "&'static str"
        fun message => "\"" ++ message.name ++ "\"",
      lookupTypeLines]

/-- The text of the module. -/
def text (m : RustModule) : String := unlines (List.intercalate [""] m.parts)

end RustModule
end Mavlink.Codegen
