import Mavlink.Text.Blank
import Mavlink.Text.Numeral
import Mavlink.Wire.Number

/-!
# Field types

A field is a number, a character, or an array of one of these.  A type is written
by its token, an array by the token of its element and its length in brackets.

One token is special: the version of the protocol that a heartbeat carries.  It is
an unsigned byte in everything but its name, so the fingerprint of a layout is
taken over `canonical` tokens, in which it is called what it is.
-/

namespace Mavlink

/-- The types of which fields are made. -/
inductive Primitive where
  | int8
  | uint8
  | int16
  | uint16
  | int32
  | uint32
  | int64
  | uint64
  | float
  | double
  | char
  /-- The byte that tells the version of the protocol. -/
  | versionByte
  deriving DecidableEq, Repr

namespace Primitive

/-- Every primitive type. -/
def all : List Primitive :=
  [int8, uint8, int16, uint16, int32, uint32, int64, uint64, float, double, char, versionByte]

/-- The number that stands for a primitive on the wire; a character is its byte. -/
def number : Primitive → NumberType
  | int8 => .i8
  | uint8 | char | versionByte => .u8
  | int16 => .i16
  | uint16 => .u16
  | int32 => .i32
  | uint32 => .u32
  | int64 => .i64
  | uint64 => .u64
  | float => .f32
  | double => .f64

/-- The bytes of a primitive. -/
def size (p : Primitive) : Nat := p.number.size

/-- How the type is written. -/
def token : Primitive → String
  | int8 => "int8_t"
  | uint8 => "uint8_t"
  | int16 => "int16_t"
  | uint16 => "uint16_t"
  | int32 => "int32_t"
  | uint32 => "uint32_t"
  | int64 => "int64_t"
  | uint64 => "uint64_t"
  | float => "float"
  | double => "double"
  | char => "char"
  | versionByte => "uint8_t_mavlink_version"

/-- How the type enters the fingerprint of a layout. -/
def canonical : Primitive → String
  | versionByte => uint8.token
  | p => p.token

def isSigned : Primitive → Bool
  | int8 | int16 | int32 | int64 => true
  | _ => false

def isUnsigned : Primitive → Bool
  | uint8 | uint16 | uint32 | uint64 | versionByte => true
  | _ => false

def isFloat : Primitive → Bool
  | float | double => true
  | _ => false

/-- The least and the greatest integer of an integer type. -/
def range? (p : Primitive) : Option (Int × Int) :=
  let top : Int := Nat.pow 256 p.size
  if p.isSigned then some (-(top / 2), top / 2 - 1)
  else if p.isUnsigned then some (0, top - 1)
  else none

/-- The type of a token. -/
def ofToken? (s : String) : Option Primitive := all.find? (·.token = s)

theorem size_pos (p : Primitive) : 0 < p.size := by cases p <;> decide

end Primitive

/-- The type of a field. -/
inductive FieldType where
  | scalar (element : Primitive)
  | array (element : Primitive) (length : Nat)
  deriving DecidableEq, Repr

namespace FieldType

/-- The type of the value or of each element. -/
def element : FieldType → Primitive
  | scalar p | array p _ => p

/-- The length of an array. -/
def length? : FieldType → Option Nat
  | scalar _ => none
  | array _ n => some n

/-- The bytes of a field. -/
def size : FieldType → Nat
  | scalar p => p.size
  | array p n => p.size * n

/-- How the type is written. -/
def text : FieldType → String
  | scalar p => p.token
  | array p n => p.token ++ "[" ++ toString n ++ "]"

/-- Reads a type.  Blanks may stand around it, before the bracket and inside the
brackets; a length is at most 255. -/
def read? (s : String) : Option FieldType :=
  let cs := Text.trim s.toList
  match cs.span (· != '[') with
  | (base, []) => (Primitive.ofToken? (String.ofList base)).map scalar
  | (base, _ :: rest) =>
    if rest.getLast? = some ']' then
      match Text.decimal? 255 (Text.trim rest.dropLast),
          Primitive.ofToken? (String.ofList (Text.trim base)) with
      | some n, some p => if p = .versionByte then none else some (array p n)
      | _, _ => none
    else none

end FieldType
end Mavlink
