import Mavlink.Bytes
import Mavlink.Text.Numeral

/-!
# What can go wrong

Errors are split by what was being done: reading definitions, encoding a message,
decoding a frame or payload, writing source code, reading a mission file, or
moving bytes.  A constructor is a cause; its wording is in the `message` function
of its type and nowhere else.  `Error` is any of them, and says which.
-/

namespace Mavlink

/-- The number by which a message is known. -/
abbrev MessageId := Nat

/-- What is wrong with the markup of a definition file. -/
inductive MarkupFault where
  /-- The text is not well-formed markup. -/
  | malformed
  /-- The outermost element is not the one that holds a definition. -/
  | wrongRoot (element : String)
  /-- An element without a name was closed. -/
  | unexpectedClosing
  /-- The text ended inside these elements, outermost first. -/
  | unclosed (path : List String)
  deriving DecidableEq, Repr

/-- Why definitions do not make a dialect. -/
inductive SchemaError where
  /-- A definition file could not be had. -/
  | fetch (name reason : String)
  | markup (file : String) (position : Nat) (fault : MarkupFault)
  | missingAttribute (file element name : String)
  | invalidValue (file context value : String)
  | unknownType (message field type : String)
  | zeroLengthArray (message field : String)
  | duplicateField (message field : String)
  /-- A base field is declared after an extension field. -/
  | misplacedExtension (message field : String)
  | emptyMessage (name : String)
  | payloadTooLarge (name : String) (size : Nat)
  | messageIdOutOfRange (name : String) (id : Nat)
  /-- The chain of includes, ending with a name that occurs in it before. -/
  | includeCycle (chain : List String)
  /-- One number is bound to two names. -/
  | duplicateMessageId (id : MessageId) (name other : String)
  /-- One name is bound to two numbers. -/
  | duplicateMessageName (name : String) (id other : MessageId)
  /-- One message is defined with two layouts. -/
  | conflictingMessage (name : String) (id : MessageId)
  | conflictingEnumEntry (enum entry : String)
  | unknownEnum (message field enum : String)
  deriving DecidableEq, Repr

/-- Why a message cannot be encoded. -/
inductive EncodeError where
  | unknownMessage (id : MessageId)
  | missingField (message field : String)
  | unknownField (message field : String)
  | typeMismatch (message field expected : String)
  | outOfRange (message field expected value : String)
  /-- An array or a text does not have the declared length; for a text it is the greatest. -/
  | arrayLength (message field : String) (expected actual : Nat)
  /-- The header of the frame has no room for the number of the message. -/
  | messageIdTooLarge (id : MessageId)
  | payloadTooLarge (size limit : Nat)
  /-- The payload was made for another version of the protocol. -/
  | versionMismatch
  deriving DecidableEq, Repr

/-- Why bytes are not a frame, or a payload not a message. -/
inductive DecodeError where
  /-- The frame may be well formed, but its checksum cannot be verified. -/
  | unknownMessage (id : MessageId) (raw : Bytes)
  | crcMismatch (id : MessageId) (expected actual : UInt16)
  /-- The signature is missing, wrong or replayed. -/
  | badSignature (id : MessageId)
  /-- More bytes are needed. -/
  | truncated (expected actual : Nat)
  | invalidMarker (byte : UInt8)
  | incompatibleFlags (flags : UInt8)
  | invalidPayloadLength (id : MessageId) (size limit : Nat)
  deriving DecidableEq, Repr

/-- Why source code cannot be written. -/
inductive CodegenError where
  /-- Two entities would have one identifier. -/
  | nameClash (backend ident first second : String)
  | unknownTarget (name : String)
  deriving DecidableEq, Repr

/-- Why a text is not a mission, or an edit not possible. -/
inductive MissionError where
  | unsupportedFormat (header : String)
  | invalidLine (line columns : Nat)
  | invalidNumber (line : Nat) (value : String)
  | unknownAction (line action : Nat)
  | notEnoughFencePoints (count least : Nat)
  | indexOutOfRange (index size : Nat)
  deriving DecidableEq, Repr

/-- Why bytes did not move. -/
inductive TransferError where
  | endOfStream
  | readFailed
  | writeFailed
  | flushFailed
  /-- A file is not there or does not hold text. -/
  | unreadableFile
  deriving DecidableEq, Repr

/-- Any error. -/
inductive Error where
  | schema (error : SchemaError)
  | encode (error : EncodeError)
  | decode (error : DecodeError)
  | codegen (error : CodegenError)
  | mission (error : MissionError)
  | transfer (error : TransferError)
  deriving DecidableEq, Repr

/-- What is said after the place of a fault in the markup, if anything. -/
def MarkupFault.reason : MarkupFault → Option String
  | .malformed => none
  | .wrongRoot element => some s!"root element must be `mavlink`, got `{element}`"
  | .unexpectedClosing => some "unexpected closing tag"
  | .unclosed path =>
    let joined := String.intercalate "/" path
    some s!"unclosed element `{joined}`"

def SchemaError.message : SchemaError → String
  | .fetch name reason => s!"can't fetch definition `{name}`: {reason}"
  | .markup file position fault =>
    let place := s!"malformed XML in `{file}` at position {position}"
    match fault.reason with
    | none => place
    | some reason => s!"{place}: {reason}"
  | .missingAttribute file element name =>
    s!"`{element}` in `{file}` is missing attribute `{name}`"
  | .invalidValue file context value => s!"invalid value `{value}` for `{context}` in `{file}`"
  | .unknownType message field type => s!"unknown type `{type}` of field `{message}.{field}`"
  | .zeroLengthArray message field => s!"field `{message}.{field}` is a zero-length array"
  | .duplicateField message field => s!"field `{field}` is declared twice in `{message}`"
  | .misplacedExtension message field =>
    s!"field `{message}.{field}` follows extension fields but is not an extension"
  | .emptyMessage name => s!"message `{name}` has no fields"
  | .payloadTooLarge name size => s!"payload of `{name}` is {size} bytes, at most 255 is allowed"
  | .messageIdOutOfRange name id => s!"message `{name}` has ID {id} that exceeds 24 bits"
  | .includeCycle chain => "include cycle: " ++ String.intercalate " -> " chain
  | .duplicateMessageId id name other =>
    s!"message ID {id} is bound to both `{name}` and `{other}`"
  | .duplicateMessageName name id other =>
    s!"message `{name}` is bound to both ID {id} and ID {other}"
  | .conflictingMessage name id =>
    s!"message `{name}` (ID {id}) is defined twice with different fields"
  | .conflictingEnumEntry enum entry =>
    s!"enum `{enum}` entry `{entry}` conflicts with an existing entry"
  | .unknownEnum message field enum =>
    s!"field `{message}.{field}` refers to unknown enum `{enum}`"

def EncodeError.message : EncodeError → String
  | .unknownMessage id => s!"message {id} is not in dialect"
  | .missingField message field => s!"field `{message}.{field}` is missing"
  | .unknownField message field => s!"message `{message}` has no field `{field}`"
  | .typeMismatch message field expected => s!"field `{message}.{field}` expects {expected}"
  | .outOfRange message field expected value =>
    s!"value {value} does not fit field `{message}.{field}` of type {expected}"
  | .arrayLength message field expected actual =>
    s!"field `{message}.{field}` expects {expected} elements, got {actual}"
  | .messageIdTooLarge id => s!"message ID {id} does not fit the frame header"
  | .payloadTooLarge size limit => s!"payload of {size} bytes exceeds {limit} bytes"
  | .versionMismatch => "payload version does not match frame version"

def DecodeError.message : DecodeError → String
  | .unknownMessage id _ => s!"unknown message {id}"
  | .crcMismatch id expected actual =>
    let expected := Text.hex 4 expected.toNat
    let actual := Text.hex 4 actual.toNat
    s!"checksum mismatch for message {id}: expected 0x{expected}, got 0x{actual}"
  | .badSignature id => s!"bad signature for message {id}"
  | .truncated expected actual => s!"truncated frame: expected {expected} bytes, got {actual}"
  | .invalidMarker byte => "invalid magic byte 0x" ++ Text.hex 2 byte.toNat
  | .incompatibleFlags flags =>
    "unsupported incompatibility flags 0x" ++ Text.hex 2 flags.toNat
  | .invalidPayloadLength id size limit =>
    s!"payload of message {id} is {size} bytes, at most {limit} is allowed"

def CodegenError.message : CodegenError → String
  | .nameClash backend ident first second =>
    s!"[{backend}] `{first}` and `{second}` both render as `{ident}`"
  | .unknownTarget name => s!"unknown code generation target `{name}`"

def MissionError.message : MissionError → String
  | .unsupportedFormat header => s!"unsupported waypoint format `{header}`"
  | .invalidLine line columns => s!"invalid waypoint line {line} with {columns} values"
  | .invalidNumber line value => s!"invalid number `{value}` at line {line}"
  | .unknownAction line action => s!"unknown waypoint action {action} at line {line}"
  | .notEnoughFencePoints count least => s!"fence needs at least {least} points, got {count}"
  | .indexOutOfRange index size =>
    s!"waypoint index {index} is out of range for list of {size} items"

def TransferError.message : TransferError → String
  | .endOfStream => "end of stream"
  | .readFailed => "read failed"
  | .writeFailed => "write failed"
  | .flushFailed => "flush failed"
  | .unreadableFile => "unreadable file"

def Error.message : Error → String
  | .schema e => "schema error: " ++ e.message
  | .encode e => "encode error: " ++ e.message
  | .decode e => "decode error: " ++ e.message
  | .codegen e => "code generation error: " ++ e.message
  | .mission e => "mission error: " ++ e.message
  | .transfer e => "I/O error: " ++ e.message

/-! ## Steps that went well -/

theorem exists_of_bind_eq_ok {ε α β : Type} {x : Except ε α} {f : α → Except ε β} {b : β}
    (h : x >>= f = .ok b) : ∃ a, x = .ok a ∧ f a = .ok b := by
  cases x with
  | error e => cases h
  | ok a => exact ⟨a, rfl, h⟩

theorem bind_eq_ok_iff {ε α β : Type} {x : Except ε α} {f : α → Except ε β} {b : β} :
    x >>= f = .ok b ↔ ∃ a, x = .ok a ∧ f a = .ok b := by
  refine ⟨exists_of_bind_eq_ok, ?_⟩
  rintro ⟨a, rfl, h⟩
  exact h

theorem exists_of_map_eq_ok {ε α β : Type} {x : Except ε α} {f : α → β} {b : β}
    (h : x.map f = .ok b) : ∃ a, x = .ok a ∧ f a = b := by
  cases x with
  | error e => cases h
  | ok a => exact ⟨a, rfl, Except.ok.inj h⟩

end Mavlink
