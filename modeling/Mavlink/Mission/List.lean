import Mavlink.Mission.Item

/-!
# Editing missions

The number of an item is its position, modulo the range of the field that holds
it.  Whatever changes the positions renumbers the items.
-/

namespace Mavlink

/-- A list of items of one type. -/
structure Mission where
  items : List MissionItem
  type : MissionType
  deriving DecidableEq

namespace Mission

/-- A list without items. -/
def empty (type : MissionType) : Mission := ⟨[], type⟩

/-- The item as the one at a position. -/
def numbered (position : Nat) (i : MissionItem) : MissionItem :=
  { i with seq := UInt16.ofNat position }

/-- Numbers all items by their positions. -/
def reindex (m : Mission) : Mission := { m with items := m.items.mapIdx numbered }

/-- Appends an item. -/
def add (m : Mission) (i : MissionItem) : Mission :=
  { m with items := m.items ++ [numbered m.items.length i] }

/-- Appends items, the first of a list first. -/
def addAll (m : Mission) (new : List MissionItem) : Mission :=
  { m with items := m.items ++ new.mapIdx fun k i => numbered (m.items.length + k) i }

theorem addAll_eq_foldl (m : Mission) (new : List MissionItem) :
    m.addAll new = new.foldl add m := by
  induction new generalizing m with
  | nil => simp [addAll]
  | cons i new ih =>
    rw [List.foldl_cons, ← ih]
    have shift (k : Nat) : m.items.length + 1 + k = m.items.length + (k + 1) := by omega
    simp [addAll, add, List.mapIdx_cons, shift]

/-- Inserts an item before a position; past the end it is appended. -/
def insert (m : Mission) (position : Nat) (i : MissionItem) : Mission :=
  if m.items.length ≤ position then m.add i
  else reindex { m with items := m.items.take position ++ i :: m.items.drop position }

/-- Replaces the item at a position; right at the end it is appended. -/
def set (m : Mission) (position : Nat) (i : MissionItem) : Except MissionError Mission :=
  if position = m.items.length then .ok (m.add i)
  else if m.items.length < position then .error (.indexOutOfRange position m.items.length)
  else .ok { m with items := m.items.set position (numbered position i) }

/-- Removes the item at a position.  Answers it, or nothing past the end. -/
def remove (m : Mission) (position : Nat) : Option MissionItem × Mission :=
  match m.items[position]? with
  | none => (none, m)
  | some i => (some i, reindex { m with items := m.items.eraseIdx position })

/-- Removes all items. -/
def clear (m : Mission) : Mission := { m with items := [] }

/-- The messages that carry the items. -/
def toMessages (m : Mission) (target : Address) : List MessageValue :=
  m.items.map fun i => i.toMessage target m.type.code

end Mission
end Mavlink
