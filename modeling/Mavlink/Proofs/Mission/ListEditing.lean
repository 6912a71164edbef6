import Mathlib
import Mavlink.Mission.Text
import Mavlink.Proofs.Mission.Editing

/-!
# Missions as plain lists

But for the numbers, an operation on a mission is an operation on a list.  Here the list is
edited alone, by functions that know nothing of numbers (`Edit.onList`), and beside it the mission:
the items of the mission are always those of the list, each with the number of its place, and the
two answer the same.  Some operations number all items again and some only the item they bring, so
what is kept by a step is the relation between the two (`Mission.Mirrors`).

* `Mission.Mirrors.edit`, `Mission.answer_of_mirrors` --- what one operation keeps and answers;
* `Mission.Begun.numbered` --- missions that are begun empty or read from a file;
* `Mission.edited_as_list` --- whatever is done to these.
-/

namespace Mavlink

namespace Edit

/-- What an operation answers. -/
inductive Answer where
  | done
  | refused (e : MissionError)
  | removed (i : Option MissionItem)
  deriving DecidableEq

/-- The list after an operation.  Past its end an item is inserted at the end; nothing is replaced
or removed there. -/
def onList (l : List MissionItem) : Edit → List MissionItem
  | add i => l ++ [i]
  | insert position i => if position < l.length then l.insertIdx position i else l ++ [i]
  | set position i =>
    if position = l.length then l ++ [i]
    else if position < l.length then l.set position i
    else l
  | remove position => if position < l.length then l.eraseIdx position else l
  | clear => []
  | reindex => l

/-- What an operation on the list answers.  The item that is removed is the one at the position,
with the number of the position. -/
def answerOn (l : List MissionItem) : Edit → Answer
  | set position _ =>
    if l.length < position then .refused (.indexOutOfRange position l.length) else .done
  | remove position => .removed (l[position]?.map (Mission.numbered position))
  | _ => .done

/-- The answers of operations on the list, the first of a list first. -/
def answersOn (l : List MissionItem) : List Edit → List Answer
  | [] => []
  | e :: edits => answerOn l e :: answersOn (onList l e) edits

end Edit

namespace Mission

/-- What an operation answers. -/
def answer (m : Mission) : Edit → Edit.Answer
  | .set position i =>
    match m.set position i with
    | .ok _ => .done
    | .error e => .refused e
  | .remove position => .removed (m.remove position).1
  | _ => .done

/-- The answers of operations, the first of a list first. -/
def answers (m : Mission) : List Edit → List Edit.Answer
  | [] => []
  | e :: edits => m.answer e :: (m.edit e).answers edits

/-! ## Numbers apart -/

/-- The items are those of a list, each with the number of its place. -/
def Mirrors (m : Mission) (l : List MissionItem) : Prop := m.items = l.mapIdx numbered

section Mirrors

variable {m : Mission} {l : List MissionItem}

/-- Numbers that are there already make no difference. -/
theorem mapIdx_numbered_congr {a b : List MissionItem}
    (same : a.map (numbered 0) = b.map (numbered 0)) :
    a.mapIdx numbered = b.mapIdx numbered := by
  have forget (k : Nat) : numbered k = numbered k ∘ numbered 0 := rfl
  refine List.ext_getElem? fun k => ?_
  have there : a[k]?.map (numbered 0) = b[k]?.map (numbered 0) := by
    rw [← List.getElem?_map, same, List.getElem?_map]
  rw [List.getElem?_mapIdx, List.getElem?_mapIdx, forget k, ← Option.map_map, there, Option.map_map]

theorem Mirrors.length (h : m.Mirrors l) : m.items.length = l.length := by
  rw [h, List.length_mapIdx]

theorem Mirrors.getElem? (h : m.Mirrors l) (k : Nat) : m.items[k]? = l[k]?.map (numbered k) := by
  rw [h, List.getElem?_mapIdx]

/-- The items are those of the list but for their numbers. -/
theorem Mirrors.map_eq (h : m.Mirrors l) : m.items.map (numbered 0) = l.map (numbered 0) := by
  refine List.ext_getElem? fun k => ?_
  rw [List.getElem?_map, h.getElem?, List.getElem?_map, Option.map_map]
  rfl

theorem Mirrors.add (h : m.Mirrors l) (i : MissionItem) : (m.add i).Mirrors (l ++ [i]) := by
  rw [Mirrors, Mission.add, h.length, h, List.mapIdx_concat]

theorem insertIdx_eq {α : Type} {l : List α} {position : Nat} (within : position ≤ l.length)
    (a : α) : l.insertIdx position a = l.take position ++ a :: l.drop position := by
  induction position generalizing l with
  | zero => rfl
  | succ position ih =>
    cases l with
    | nil => cases within
    | cons b l =>
      rw [List.insertIdx_succ_cons, ih (Nat.le_of_succ_le_succ within)]
      rfl

/-- Each operation leaves the items of the mission those of the list. -/
theorem Mirrors.edit (h : m.Mirrors l) (e : Edit) : (m.edit e).Mirrors (e.onList l) := by
  cases e with
  | add i => exact h.add i
  | insert position i =>
    simp only [Mission.edit, insert, Edit.onList, h.length]
    by_cases past : l.length ≤ position
    · rw [if_pos past, if_neg (Nat.not_lt.2 past)]
      exact h.add i
    · rw [if_neg past, if_pos (Nat.lt_of_not_le past), insertIdx_eq (Nat.le_of_not_le past)]
      refine mapIdx_numbered_congr ?_
      simp only [List.map_append, List.map_cons, List.map_take, List.map_drop, h.map_eq]
  | set position i =>
    simp only [Mission.edit, set, Edit.onList, h.length]
    split_ifs with atEnd beyond within within
    · exact h.add i
    · exact absurd within (Nat.lt_asymm beyond)
    · exact h
    · show m.items.set position (numbered position i) = _
      rw [h, List.mapIdx_set]
    · exact absurd (Nat.lt_or_gt_of_ne atEnd) (not_or.2 ⟨within, beyond⟩)
  | remove position =>
    simp only [Mission.edit, remove, Edit.onList, h.getElem?]
    by_cases within : position < l.length
    · rw [if_pos within, List.getElem?_eq_getElem within]
      refine mapIdx_numbered_congr ?_
      show (m.items.eraseIdx position).map _ = _
      rw [← List.eraseIdx_map, h.map_eq, List.eraseIdx_map]
    · rw [if_neg within, List.getElem?_eq_none (Nat.le_of_not_lt within)]
      exact h
  | clear => exact List.mapIdx_nil.symm
  | reindex => exact mapIdx_numbered_congr h.map_eq

/-- The mission and the list answer the same. -/
theorem answer_of_mirrors (h : m.Mirrors l) (e : Edit) : m.answer e = e.answerOn l := by
  cases e with
  | set position i =>
    simp only [answer, set, Edit.answerOn, h.length]
    by_cases beyond : l.length < position
    · rw [if_neg (Nat.ne_of_gt beyond), if_pos beyond, if_pos beyond]
    · rw [if_neg beyond, if_neg beyond]
      split_ifs <;> rfl
  | remove position =>
    simp only [answer, remove, Edit.answerOn, h.getElem?]
    cases l[position]? <;> rfl
  | _ => rfl

/-- So do operations one after another. -/
theorem Mirrors.edited (h : m.Mirrors l) (edits : List Edit) :
    (m.edited edits).Mirrors (edits.foldl Edit.onList l) ∧
      m.answers edits = Edit.answersOn l edits := by
  induction edits generalizing m l with
  | nil => exact ⟨h, rfl⟩
  | cons e edits ih =>
    obtain ⟨items, others⟩ := ih (h.edit e)
    exact ⟨items, congrArg₂ List.cons (answer_of_mirrors h e) others⟩

theorem Numbered.mirrors (h : m.Numbered) : m.Mirrors m.items := h.symm

/-- An item has the number of its position, modulo what a number can be. -/
theorem Mirrors.seq (h : m.Mirrors l) {k : Nat} {i : MissionItem} (there : m.items[k]? = some i) :
    i.seq.toNat = k % 2 ^ 16 := by
  rw [h.getElem?] at there
  obtain ⟨j, -, rfl⟩ := Option.map_eq_some_iff.1 there
  exact UInt16.toNat_ofNat'

end Mirrors

/-! ## Missions that are begun -/

/-- A mission that is begun empty, or read from a file of whichever kind. -/
inductive Begun : Mission → Prop where
  | empty (type : MissionType) : Begun (empty type)
  | mission {text : String} {m : Mission} (read_as : read text = .ok m) : Begun m
  | fence {text : String} {m : Mission} (read_as : readFence text = .ok m) : Begun m
  | rally {text : String} {m : Mission} (read_as : readRally text = .ok m) : Begun m

theorem numbered_addAll_empty (type : MissionType) (items : List MissionItem) :
    ((empty type).addAll items).Numbered := by
  have added : (empty type).addAll items = (empty type).edited (items.map .add) := by
    rw [addAll_eq_foldl, Mission.edited, List.foldl_map]
    rfl
  rw [added]
  exact (numbered_empty type).edited _

theorem numbered_of_read {text : String} {m : Mission} (h : read text = .ok m) : m.Numbered := by
  rw [read] at h
  split at h
  · cases h
  · obtain ⟨items, -, made⟩ := bind_eq_ok_iff.1 h
    cases made
    exact numbered_addAll_empty _ _

/-- Whatever is read is numbered by the place in the file. -/
theorem Begun.numbered {m : Mission} (h : m.Begun) : m.Numbered := by
  cases h with
  | empty type => exact numbered_empty type
  | mission h => exact numbered_of_read h
  | fence h =>
    simp only [readFence] at h
    split at h
    · obtain ⟨points, -, h⟩ := bind_eq_ok_iff.1 h
      rw [ofPoints] at h
      split at h
      · cases h
      · cases h
        exact numbered_addAll_empty _ _
    · obtain ⟨mission, found, made⟩ := bind_eq_ok_iff.1 h
      cases made
      have numbered : mission.Numbered := numbered_of_read found
      exact numbered
  | rally h =>
    simp only [readRally] at h
    split at h
    · obtain ⟨points, -, made⟩ := bind_eq_ok_iff.1 h
      cases made
      exact numbered_addAll_empty _ _
    · obtain ⟨mission, found, made⟩ := bind_eq_ok_iff.1 h
      cases made
      have numbered : mission.Numbered := numbered_of_read found
      exact numbered

/-- **Missions are edited as lists.**  Whatever is done to a mission that was begun empty or read
from a file, its items are those of the list to which the same is done, each with the number of its
place, and what is answered is what the list answers: an operation that is refused says why and
changes nothing, and an item that is removed is the one that was there. -/
theorem edited_as_list {m : Mission} (begun : m.Begun) (edits : List Edit) :
    (m.edited edits).items = (edits.foldl Edit.onList m.items).mapIdx numbered ∧
      (m.edited edits).type = m.type ∧
      m.answers edits = Edit.answersOn m.items edits ∧
      ∀ k i, (m.edited edits).items[k]? = some i → i.seq.toNat = k % 2 ^ 16 := by
  obtain ⟨items, answers⟩ := begun.numbered.mirrors.edited edits
  exact ⟨items, type_edited m edits, answers, fun _ _ there => items.seq there⟩

/-- Two items that a file numbers nine, and operations of which one is refused and one finds
nothing to remove. -/
theorem file_edited_as_list :
    let text := "QGC WPL 110\n9 1 3 16 0 0 0 0 1 2 3 1\n9 0 3 21 0 0 0 0 1 2 3 1\n"
    let edits : List Edit := [.insert 7 { command := Command.takeoff }, .set 4 {}, .remove 3,
      .remove 0, .set 2 { seq := 5, command := Command.returnToLaunch }]
    ∃ m i, read text = .ok m ∧ m.Begun ∧ i.seq = 0 ∧ i.current = 1 ∧
      m.answers edits = [.done, .refused (.indexOutOfRange 4 3), .removed none, .removed (some i),
        .done] ∧
      (m.edited edits).items.map (fun i => (i.seq, i.command)) = [(0, 21), (1, 22), (2, 20)] ∧
      m.answers edits = Edit.answersOn m.items edits ∧
      (m.edited edits).items = (edits.foldl Edit.onList m.items).mapIdx numbered := by
  intro text edits
  let i : MissionItem := { MissionItem.waypoint 3 (.ofInt 1) (.ofInt 2) (.ofInt 3) with current := 1 }
  let m : Mission := ⟨[i, { i with seq := 1, current := 0, command := Command.land }], .mission⟩
  have found : read text = .ok m := by decide +kernel
  obtain ⟨items, -, answers, -⟩ := edited_as_list (.mission found) edits
  exact ⟨m, i, found, .mission found, rfl, rfl, by decide +kernel, by decide +kernel, answers, items⟩

end Mission
end Mavlink
