import Mavlink.Bytes

/-!
# The numbers a payload holds

A payload is made of numbers of ten types.  On the wire each is a word, that is a
whole number of a fixed count of bytes: a negative integer is its complement to
the power of 256 above the width, and a number in floating point is its bits.
-/

namespace Mavlink

/-- The types of number that a payload holds. -/
inductive NumberType where
  | i8
  | u8
  | i16
  | u16
  | i32
  | u32
  | i64
  | u64
  | f32
  | f64
  deriving DecidableEq, Repr

namespace NumberType

/-- The bytes of a number. -/
def size : NumberType → Nat
  | i8 | u8 => 1
  | i16 | u16 => 2
  | i32 | u32 | f32 => 4
  | i64 | u64 | f64 => 8

/-- The short name: kind and count of bits. -/
def name : NumberType → String
  | i8 => "i8"
  | u8 => "u8"
  | i16 => "i16"
  | u16 => "u16"
  | i32 => "i32"
  | u32 => "u32"
  | i64 => "i64"
  | u64 => "u64"
  | f32 => "f32"
  | f64 => "f64"

/-- Every type. -/
def all : List NumberType := [i8, u8, i16, u16, i32, u32, i64, u64, f32, f64]

end NumberType

/-- The word of `size` bytes that stands for an integer. -/
def wordOfInt (size : Nat) (n : Int) : Nat := (n % Nat.pow 256 size).toNat

/-- The signed integer that a word of `size` bytes stands for. -/
def intOfWord (size : Nat) (word : Nat) : Int :=
  if 2 * word < Nat.pow 256 size then word else (word : Int) - Nat.pow 256 size

theorem wordOfInt_lt (size : Nat) (n : Int) : wordOfInt size n < Nat.pow 256 size := by
  have pos : (0 : Int) < Nat.pow 256 size := by
    exact_mod_cast Nat.pow_pos (by decide)
  have h0 := Int.emod_nonneg n (Int.ne_of_gt pos)
  have h1 := Int.emod_lt_of_pos n pos
  unfold wordOfInt
  omega

end Mavlink
