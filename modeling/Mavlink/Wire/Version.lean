import Mavlink.Error

/-!
# The two versions of the protocol

A frame begins with a marker that tells its version.  The first version has room
for 256 messages and can neither carry extension fields nor be signed.
-/

namespace Mavlink

/-- A version of the protocol. -/
inductive Version where
  | v1
  | v2
  deriving DecidableEq, Inhabited, Repr

namespace Version

/-- The byte that starts a frame. -/
def marker : Version → UInt8
  | v1 => 0xFE
  | v2 => 0xFD

/-- The bytes of a header, the marker included. -/
def headerSize : Version → Nat
  | v1 => 6
  | v2 => 10

/-- The greatest message number that a header can hold. -/
def maxMessageId : Version → MessageId
  | v1 => 0xFF
  | v2 => 0xFFFFFF

/-- The version that a marker tells. -/
def ofMarker? (byte : UInt8) : Option Version :=
  if byte = v1.marker then some v1
  else if byte = v2.marker then some v2
  else none

/-- The name of a version. -/
def name : Version → String
  | v1 => "MAVLink 1"
  | v2 => "MAVLink 2"

/-- The version that is spoken if nothing else is asked for. -/
def standard : Version := v2

@[simp] theorem ofMarker?_marker (v : Version) : ofMarker? v.marker = some v := by
  cases v <;> rfl

theorem ofMarker?_eq_some_iff {b : UInt8} {v : Version} :
    ofMarker? b = some v ↔ b = v.marker := by
  constructor
  · intro h
    unfold ofMarker? at h
    split at h
    · cases h; assumption
    · split at h
      · cases h; assumption
      · cases h
  · rintro rfl; simp

end Version
end Mavlink
