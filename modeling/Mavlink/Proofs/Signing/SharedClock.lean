import Mathlib.Logic.Function.Basic
import Mathlib.Logic.Relation
import Mavlink.Signing.Timestamp

/-!
# A clock that is shared

Signers that were copied from one another draw their timestamps from one clock, and nothing keeps
them from doing so at once.  To draw a timestamp is two steps: the time is read, and later the
clock is set forward in one go.  Between the two others read and draw, so the time may be old
when the clock is set, and what was read last need not be drawn last.  Besides, the time may stand
still or go back.  The timestamp is not what the clock was set to, but is calculated again from
the time that was read and from the number that the clock had before.

The draws are kept in the order in which the clock was set.  Every draw finds the number to which
the draw before it has set the clock, or a greater one, and the calculation comes to the number
to which it sets the clock itself.

* `SigningClock.val_next` --- the timestamps that the clock gives out;
* `Shared.Ordered.step`, `Shared.ordered_of_run` --- the order of the draws;
* `Shared.stamps_increase` --- so timestamps increase, whoever draws them.
-/

namespace Mavlink
namespace SigningClock

theorem last_le_next (c : SigningClock) (now : Timestamp) : c.last ≤ (c.next now).2.last :=
  Nat.le_trans (Nat.le_succ _) (Nat.le_max_right now.val _)

theorem now_le_next (c : SigningClock) (now : Timestamp) : now.val ≤ (c.next now).2.last :=
  Nat.le_max_left ..

/-- A timestamp that 48 bits hold is the time of the clock after it, and later than all
that the clock gave out before. -/
theorem val_next {c : SigningClock} {now : Timestamp}
    (inTime : (c.next now).2.last ≤ Timestamp.max) :
    (c.next now).1.val = (c.next now).2.last ∧ c.last < (c.next now).1.val := by
  have fits : (c.next now).1.val = (c.next now).2.last := by
    show Nat.max now.val (c.last + 1) % 0x1000000000000 = Nat.max now.val (c.last + 1)
    exact Nat.mod_eq_of_lt (Nat.lt_succ_of_le inTime)
  exact ⟨fits, fits ▸ Nat.le_max_right now.val (c.last + 1)⟩

end SigningClock

/-- A timestamp that has been drawn. -/
structure Draw (ι : Type) where
  caller : ι
  /-- The time that the caller has read. -/
  now : Timestamp
  /-- The clock before it was set forward. -/
  found : SigningClock

namespace Draw

variable {ι : Type}

/-- The timestamp, calculated from what was read and what was found. -/
def stamp (d : Draw ι) : Timestamp := (d.found.next d.now).1

/-- The clock after it was set forward. -/
def left (d : Draw ι) : SigningClock := (d.found.next d.now).2

/-- What is known of a timestamp that 48 bits hold. -/
theorem stamp_spec {d : Draw ι} (inTime : d.left.last ≤ Timestamp.max) :
    d.stamp.val = d.left.last ∧ d.found.last < d.stamp.val ∧ d.now ≤ d.stamp := by
  obtain ⟨fits, later⟩ := SigningClock.val_next inTime
  refine ⟨fits, later, ?_⟩
  show d.now.val ≤ (d.found.next d.now).1.val
  rw [fits]
  exact d.found.now_le_next d.now

end Draw

/-- A clock, and those who draw from it. -/
structure Shared (ι : Type) where
  clock : SigningClock
  /-- What was read by those who have not yet drawn. -/
  readings : ι → Option Timestamp
  /-- What was drawn, in the order in which the clock was set. -/
  draws : List (Draw ι)

namespace Shared

variable {ι : Type} [DecidableEq ι]

/-- Nobody has read or drawn. -/
def start (clock : SigningClock) : Shared ι := ⟨clock, fun _ => none, []⟩

/-- What may happen next. -/
inductive Step (s : Shared ι) : Shared ι → Prop
  /-- Somebody begins to draw and reads a time, whatever was read before. -/
  | read (caller : ι) (now : Timestamp) (idle : s.readings caller = none) :
      Step s { s with readings := Function.update s.readings caller (some now) }
  /-- Somebody who has read a time sets the clock forward. -/
  | draw (caller : ι) (now : Timestamp) (read : s.readings caller = some now) :
      Step s
        { clock := (s.clock.next now).2
          readings := Function.update s.readings caller none
          draws := s.draws ++ [⟨caller, now, s.clock⟩] }

/-- A course of reading and drawing. -/
abbrev Run (s s' : Shared ι) : Prop := Relation.ReflTransGen Step s s'

/-- The draws are in order: each found the clock no earlier than any before it had left it, and
none has left it later than it is. -/
structure Ordered (initial : SigningClock) (s : Shared ι) : Prop where
  first : ∀ d ∈ s.draws, initial.last ≤ d.found.last
  order : s.draws.Pairwise fun d e => d.left.last ≤ e.found.last
  last : ∀ d ∈ s.draws, d.left.last ≤ s.clock.last
  forward : initial.last ≤ s.clock.last

/-- Whatever happens, the draws stay in order. -/
theorem Ordered.step {initial : SigningClock} {s s' : Shared ι} (h : Ordered initial s)
    (step : Step s s') : Ordered initial s' := by
  cases step with
  | read caller now idle => exact ⟨h.first, h.order, h.last, h.forward⟩
  | draw caller now read =>
    have moved := s.clock.last_le_next now
    refine ⟨?_, ?_, ?_, Nat.le_trans h.forward moved⟩
    · intro d hd
      rcases List.mem_append.1 hd with earlier | new
      · exact h.first d earlier
      · cases List.mem_singleton.1 new
        exact h.forward
    · refine List.pairwise_append.2 ⟨h.order, List.pairwise_singleton .., ?_⟩
      intro d earlier e new
      cases List.mem_singleton.1 new
      exact h.last d earlier
    · intro d hd
      rcases List.mem_append.1 hd with earlier | new
      · exact Nat.le_trans (h.last d earlier) moved
      · cases List.mem_singleton.1 new
        exact Nat.le_refl _

theorem ordered_of_run {initial : SigningClock} {s : Shared ι} (run : Run (start initial) s) :
    Ordered initial s := by
  induction run with
  | refl => exact ⟨nofun, .nil, nofun, Nat.le_refl _⟩
  | tail _ step ih => exact ih.step step

/-- **Timestamps increase.**  However many draw from a clock at once, and whatever times they read,
the timestamps increase in the order in which the clock is set, so no two are the same.  Each
is later than all that were drawn before the run began, and no earlier than the time that was read
for it.  All this is as long as 48 bits hold the clock. -/
theorem stamps_increase (initial : SigningClock) (s : Shared ι) (run : Run (start initial) s)
    (inTime : s.clock.last ≤ Timestamp.max) :
    (s.draws.map Draw.stamp).Pairwise (· < ·) ∧ (s.draws.map Draw.stamp).Nodup ∧
      ∀ d ∈ s.draws, initial.last < d.stamp.val ∧ d.now ≤ d.stamp := by
  have ordered := ordered_of_run run
  have fits : ∀ d ∈ s.draws, d.left.last ≤ Timestamp.max := fun d hd =>
    Nat.le_trans (ordered.last d hd) inTime
  have increasing : (s.draws.map Draw.stamp).Pairwise (· < ·) := by
    refine List.pairwise_map.2 (ordered.order.imp_of_mem fun {d e} hd he found => ?_)
    calc d.stamp.val = d.left.last := (Draw.stamp_spec (fits d hd)).1
      _ ≤ e.found.last := found
      _ < e.stamp.val := (Draw.stamp_spec (fits e he)).2.1
  refine ⟨increasing, increasing.imp Fin.ne_of_lt, fun d hd => ?_⟩
  obtain ⟨-, later, read⟩ := Draw.stamp_spec (fits d hd)
  exact ⟨Nat.lt_of_le_of_lt (ordered.first d hd) later, read⟩

/-- Two draw from a clock.  The second reads an earlier time than the first and draws first, and
the first then reads a time before both. -/
theorem two_draw : ∃ s : Shared Bool, Run (start ⟨6⟩) s ∧
    s.draws.map Draw.stamp = [7, 9, 10] ∧ (s.draws.map Draw.stamp).Nodup := by
  have run := Relation.ReflTransGen.refl (r := Step) (a := (start ⟨6⟩ : Shared Bool))
    |>.tail (.read true 9 rfl) |>.tail (.read false 5 rfl)
    |>.tail (.draw false 5 rfl) |>.tail (.draw true 9 rfl)
    |>.tail (.read true 2 rfl) |>.tail (.draw true 2 rfl)
  exact ⟨_, run, by decide, (stamps_increase _ _ run (by decide)).2.1⟩

end Shared
end Mavlink
