import Mavlink.Binary.Format
import Mavlink.Bytes

/-!
# Numbers of 32 and 64 bits

A number is its bits.  Two numbers are equal if their bits are, so that zero and
negative zero differ and a not-a-number equals itself: what is compared is what
would be sent.
-/

namespace Mavlink

open Binary

/-- A number of 32 bits. -/
structure Binary32 where
  bits : UInt32
  deriving DecidableEq, Inhabited

/-- A number of 64 bits. -/
structure Binary64 where
  bits : UInt64
  deriving DecidableEq, Inhabited

namespace Binary64

/-- What the number is. -/
def datum (x : Binary64) : Datum := Format.double.decode x.bits.toNat

/-- The number of these bits. -/
def ofNatBits (n : Nat) : Binary64 := ⟨UInt64.ofNat n⟩

/-- Zero. -/
def zero : Binary64 := ⟨0⟩

/-- The number nearest to an integer. -/
def ofInt (n : Int) : Binary64 :=
  ofNatBits (Format.double.signBit (n < 0) + Format.double.nearest n.natAbs 1)

/-- The number nearest to a ratio of the given sign. -/
def ofRatio (negative : Bool) (num den : Nat) : Binary64 :=
  ofNatBits (Format.double.signBit negative + Format.double.nearest num den)

/-- Not a number. -/
def nan : Binary64 := ofNatBits Format.double.quiet

/-- Infinity of either sign. -/
def infinity (negative : Bool) : Binary64 :=
  ofNatBits (Format.double.signBit negative + Format.double.infinity)

/-- Whether this is a not-a-number. -/
def isNaN (x : Binary64) : Bool :=
  match x.datum with
  | .nan .. => true
  | _ => false

/-- The nearest number of 32 bits. -/
def narrow (x : Binary64) : Binary32 :=
  ⟨UInt32.ofNat (Format.single.convert .double x.datum)⟩

/-- Whether the number is finite and its magnitude exceeds the largest finite
number of 32 bits. -/
def exceedsSingle (x : Binary64) : Bool :=
  match x.datum with
  | .finite _ m e => let (n, d) := scaled m 1 (-e); d * (0xFFFFFF * Nat.pow 2 104) < n
  | _ => false

end Binary64

namespace Binary32

/-- What the number is. -/
def datum (x : Binary32) : Datum := Format.single.decode x.bits.toNat

/-- Zero. -/
def zero : Binary32 := ⟨0⟩

/-- Whether this is a not-a-number. -/
def isNaN (x : Binary32) : Bool :=
  match x.datum with
  | .nan .. => true
  | _ => false

/-- The same number with 64 bits. -/
def widen (x : Binary32) : Binary64 := .ofNatBits (Format.double.convert .single x.datum)

end Binary32
end Mavlink
