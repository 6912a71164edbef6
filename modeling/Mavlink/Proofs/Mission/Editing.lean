import Mathlib
import Mavlink.Mission.List

/-!
# Missions that are edited

A mission is begun empty and changed by its operations only.  Some of them number all items
again, others only the item they bring: whichever are made, and in whatever order, the number of
an item is its position.

* `Edit`, `Mission.edited` --- what can be done to a mission, and what comes of it;
* `Mission.Numbered.edited` --- every item has the number of its position.
-/

namespace Mavlink

/-- An operation on a mission. -/
inductive Edit where
  | add (i : MissionItem)
  | insert (position : Nat) (i : MissionItem)
  | set (position : Nat) (i : MissionItem)
  | remove (position : Nat)
  | clear
  | reindex
  deriving DecidableEq

namespace Mission

/-- The mission after an operation.  One that is refused changes nothing. -/
def edit (m : Mission) : Edit → Mission
  | .add i => m.add i
  | .insert position i => m.insert position i
  | .set position i =>
    match m.set position i with
    | .ok changed => changed
    | .error _ => m
  | .remove position => (m.remove position).2
  | .clear => m.clear
  | .reindex => m.reindex

/-- The mission after operations, the first of a list first. -/
def edited (m : Mission) (edits : List Edit) : Mission := edits.foldl edit m

/-! ## Numbers are positions -/

/-- Every item has the number of its position. -/
def Numbered (m : Mission) : Prop := m.items.mapIdx numbered = m.items

theorem numbered_numbered (k n : Nat) (i : MissionItem) :
    numbered k (numbered n i) = numbered k i := rfl

theorem numbered_reindex (m : Mission) : m.reindex.Numbered := by
  rw [Numbered, reindex, List.mapIdx_mapIdx]
  rfl

theorem Numbered.add {m : Mission} (h : m.Numbered) (i : MissionItem) : (m.add i).Numbered := by
  rw [Numbered, Mission.add, List.mapIdx_append, h, List.mapIdx_singleton, Nat.zero_add,
    numbered_numbered]

/-- Each operation leaves the items numbered. -/
theorem Numbered.edit {m : Mission} (h : m.Numbered) (e : Edit) : (m.edit e).Numbered := by
  cases e with
  | add i => exact h.add i
  | insert position i =>
    simp only [Mission.edit, Mission.insert]
    split
    · exact h.add i
    · exact numbered_reindex _
  | set position i =>
    simp only [Mission.edit, Mission.set]
    split_ifs
    · exact h.add i
    · exact h
    · show List.mapIdx numbered (m.items.set position (numbered position i)) = _
      rw [List.mapIdx_set, h, numbered_numbered]
  | remove position =>
    simp only [Mission.edit, Mission.remove]
    split
    · exact h
    · exact numbered_reindex _
  | clear => exact List.mapIdx_nil
  | reindex => exact numbered_reindex m

theorem type_edit (m : Mission) (e : Edit) : (m.edit e).type = m.type := by
  cases e with
  | add i => rfl
  | insert position i =>
    simp only [edit, insert]
    split <;> rfl
  | set position i =>
    simp only [edit, set]
    split_ifs <;> rfl
  | remove position =>
    simp only [edit, remove]
    split <;> rfl
  | clear => rfl
  | reindex => rfl

/-- **Every item has the number of its position**, whatever is done to a mission. -/
theorem Numbered.edited {m : Mission} (h : m.Numbered) (edits : List Edit) :
    (m.edited edits).Numbered := by
  induction edits generalizing m with
  | nil => exact h
  | cons e edits ih => exact ih (h.edit e)

theorem type_edited (m : Mission) (edits : List Edit) : (m.edited edits).type = m.type := by
  induction edits generalizing m with
  | nil => rfl
  | cons e edits ih => exact (ih (m.edit e)).trans (m.type_edit e)

theorem numbered_empty (type : MissionType) : (empty type).Numbered := List.mapIdx_nil

/-- A numbered mission is what comes of adding its items to an empty one. -/
theorem Numbered.addAll_empty {m : Mission} (h : m.Numbered) :
    (empty m.type).addAll m.items = m := by
  have numbers : m.items.mapIdx (fun k i => numbered (0 + k) i) = m.items := by
    simp only [Nat.zero_add]
    exact h
  exact congrArg (Mission.mk · m.type) numbers

end Mission
end Mavlink
