import Mavlink.Codegen.Naming
import Mavlink.Schema.Dialect

/-!
# Rust modules

What is in the Rust module of a dialect: a module of constants for each
enumeration, and for each message a structure with the statements that write its
payload and the expressions that read it.  How this is spelled is in `RustText`.
-/

namespace Mavlink.Codegen

/-- A statement that writes a field. -/
inductive RustPut where
  /-- Writes a number. -/
  | number (type : NumberType) (ident : String)
  /-- Writes every number of an array. -/
  | each (type : NumberType) (ident : String)
  /-- Writes a text of at most a length; `name` is for the error. -/
  | text (name ident : String) (length : Nat)
  deriving DecidableEq

/-- An expression that reads a field. -/
inductive RustGet where
  /-- Reads a number. -/
  | number (type : NumberType)
  /-- Reads the numbers of an array. -/
  | each (type : NumberType) (length : Nat)
  /-- Reads a text of at most a length. -/
  | text (length : Nat)
  deriving DecidableEq

/-- A field of a structure. -/
structure RustMember where
  ident : String
  field : Field
  deriving DecidableEq

/-- The structure of a message. -/
structure RustStruct where
  ident : String
  message : Message
  /-- The fields as they are declared. -/
  members : List RustMember
  /-- What writes the payload, in order. -/
  puts : List RustPut
  /-- What reads the payload, in order, each into a field. -/
  gets : List (String × RustGet)
  deriving DecidableEq

/-- A constant. -/
structure RustConstant where
  ident : String
  entry : EnumEntry
  deriving DecidableEq

/-- The module of an enumeration. -/
structure RustEnum where
  ident : String
  enum : Enum
  constants : List RustConstant
  deriving DecidableEq

/-- The module of a dialect. -/
structure RustModule where
  dialect : Dialect
  enums : List RustEnum
  structs : List RustStruct

namespace RustModule

/-- The name of the language as a target. -/
def backend : String := "rust"

/-- The words that cannot be identifiers. -/
def keywords : List String := [
  "as", "async", "await", "break", "const", "continue", "crate", "dyn", "else", "enum", "extern",
  "false", "fn", "for", "if", "impl", "in", "let", "loop", "match", "mod", "move", "mut", "pub",
  "ref", "return", "self", "static", "struct", "super", "trait", "true", "type", "unsafe", "use",
  "where", "while", "abstract", "become", "box", "do", "final", "macro", "override", "priv",
  "try", "typeof", "unsized", "virtual", "yield"]

/-- The identifiers that are in every module. -/
def reserved : List String := ["DIALECT_NAME", "Lookup", "crc_extra", "max_len", "message_name"]

/-- The identifier of a field or of the module of an enumeration. -/
def identOf (name : String) : String := escaped keywords (snakeCase name)

/-- The statement that writes a field. -/
def putOf (f : Field) : RustPut :=
  match f.type with
  | .scalar p => .number p.number (identOf f.name)
  | .array .char n => .text f.name (identOf f.name) n
  | .array p _ => .each p.number (identOf f.name)

/-- The expression that reads a field. -/
def getOf (f : Field) : String × RustGet :=
  (identOf f.name,
    match f.type with
    | .scalar p => .number p.number
    | .array .char n => .text n
    | .array p n => .each p.number n)

/-- The structure of a message. -/
def structOf (m : Message) : RustStruct where
  ident := pascalCase m.name
  message := m
  members := m.fields.map fun f => ⟨identOf f.name, f⟩
  puts := m.wireFields.map putOf
  gets := m.wireFields.map getOf

/-- The module of an enumeration. -/
def enumOf (e : Enum) : RustEnum where
  ident := identOf e.name
  enum := e
  constants := e.entries.map fun entry => ⟨upperSnakeCase entry.name, entry⟩

/-- What a module declares, in order. -/
def declarations (m : RustModule) : List Declaration :=
  (m.enums.map fun e =>
    ⟨⟨e.ident, e.enum.name⟩, e.constants.map fun c => ⟨c.ident, c.entry.name⟩⟩)
  ++ m.structs.map fun s =>
    ⟨⟨s.ident, s.message.name⟩,
      s.members.map fun f => ⟨f.ident, s.message.name ++ "." ++ f.field.name⟩⟩

/-- The module of a dialect, unless names clash. -/
def ofDialect (d : Dialect) : Except CodegenError RustModule := do
  let module : RustModule :=
    ⟨d, d.enums.values.map enumOf, d.messages.values.map structOf⟩
  Scope.check backend reserved module.declarations
  return module

end RustModule
end Mavlink.Codegen
