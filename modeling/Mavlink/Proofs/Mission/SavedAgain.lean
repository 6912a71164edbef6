import Mathlib
import Mavlink.Proofs.Decimal.FixedPlaces
import Mavlink.Proofs.Mission.FileRoundTrip
import Mavlink.Proofs.Mission.ListEditing

/-!
# Missions that are saved again

A mission that has been read is written, and what is written is read and written again.  Reading
changes the decimals that had more places than are written, but not what is written of them; it
drops empty comments, which are not written; and the numbers are places already.

What is left is home.  Whether a first item without a command is home is decided by the number that
stands in the file, and a file that is written begins with zero whatever stood there.  So a first
item without a command and with another number is kept without one when it is read, but it is home
when it is read again.

* `Decimal.again` --- what a decimal is after it is written and read;
* `Mission.hasLineComment_of_read` --- comments that are read are lines;
* `Mission.exists_read_write` --- what is written is read, and what is written of that;
* `Mission.saved_again` --- for whatever file the mission is from.
-/

namespace Mavlink

namespace Decimal

/-- What a decimal is after it is written with six places and read. -/
def again (x : Binary64) : Binary64 := (read? (fixed 6 x).toList).getD x

theorem read?_fixed (x : Binary64) : read? (fixed 6 x).toList = some (again x) := by
  obtain ⟨y, read, -⟩ := exists_read?_fixed 6 (by decide) x
  rw [again, read, Option.getD_some]

/-- It is written as before. -/
theorem fixed_again (x : Binary64) : fixed 6 (again x) = fixed 6 x := by
  obtain ⟨y, read, same⟩ := exists_read?_fixed 6 (by decide) x
  rwa [again, read, Option.getD_some]

end Decimal

namespace MissionItem

theorem readsAs_again (i : MissionItem) : i.ReadsAs Decimal.again :=
  fun x _ => Decimal.read?_fixed x

end MissionItem

namespace Mission

/-! ## Comments that are read -/

/-- A comment that stands above a row is a line without blanks around it. -/
theorem lineComment_of_mem_rows {above below : List (List Char)} (before : ∀ l ∈ above, '\n' ∉ l)
    (after : ∀ l ∈ below, '\n' ∉ l) {row : Row} (h : row ∈ rows above below) :
    ∀ c ∈ row.comment, Text.trimmed c = c ∧ '\n' ∉ c.toList := by
  induction below generalizing above with
  | nil => cases h
  | cons line below ih =>
    obtain ⟨own, later⟩ := List.forall_mem_cons.1 after
    have others (h : row ∈ rows (line :: above) below) := ih (List.forall_mem_cons.2 ⟨own, before⟩)
      later h
    rw [rows] at h
    split at h
    · rcases List.mem_cons.1 h with rfl | h
      · intro c hc
        obtain ⟨l, found, rfl⟩ := Option.map_eq_some_iff.1 hc
        have there : l ∈ above := (List.takeWhile_sublist _).subset (List.mem_of_find?_eq_some found)
        rw [Text.trimmed, String.toList_ofList, Text.trim_trim]
        exact ⟨rfl, fun feed => before l there (List.mem_of_mem_tail (Text.mem_of_mem_trim feed))⟩
      · exact others h
    · exact others h

/-- **Comments that are read are lines**, with nothing around them. -/
theorem hasLineComment_of_read {text : String} {m : Mission} (loaded : read text = .ok m) :
    ∀ i ∈ m.items, i.HasLineComment := by
  obtain ⟨format, -, items, each, rfl⟩ := read_eq_ok_iff.1 loaded
  intro i hi
  obtain ⟨k, inside, rfl⟩ := List.mem_iff_getElem.1 hi
  rw [List.length_mapIdx] at inside
  have row_inside : k < (rows [] (Text.lines text.toList).tail).length :=
    each.length_eq.symm ▸ inside
  have gives := each.get row_inside inside
  rw [List.getElem_mapIdx]
  intro c hc
  have own : c ∈ ((rows [] (Text.lines text.toList).tail).get ⟨k, row_inside⟩).comment :=
    gives.2 ▸ hc
  exact lineComment_of_mem_rows (fun l hl => absurd hl List.not_mem_nil)
    (fun l hl => Text.feed_notMem_of_mem_lines (List.mem_of_mem_tail hl)) (List.get_mem _ _) c own

/-! ## Home -/

theorem withHome_map_reread (f : Binary64 → Binary64) (items : List MissionItem) :
    withHome (items.map (·.reread f)) = (withHome items).map (·.reread f) := by
  cases items with
  | nil => rfl
  | cons i items =>
    by_cases home : i.seq = 0 ∧ i.command = 0
    · have home' : (i.reread f).seq = 0 ∧ (i.reread f).command = 0 := home
      simp only [withHome, List.map_cons, if_pos home, if_pos home']
      rfl
    · have home' : ¬ ((i.reread f).seq = 0 ∧ (i.reread f).command = 0) := home
      simp only [withHome, List.map_cons, if_neg home, if_neg home']

/-- Home has the number that it had. -/
theorem mapIdx_numbered_withHome {items : List MissionItem}
    (numbers : items.mapIdx numbered = items) :
    (withHome items).mapIdx numbered = withHome items := by
  cases items with
  | nil => rfl
  | cons i items =>
    rw [List.mapIdx_cons, List.cons_eq_cons] at numbers
    obtain ⟨own, others⟩ := numbers
    rw [withHome, List.mapIdx_cons, others]
    split_ifs with home
    · exact congrArg (fun j : MissionItem => { j with command := Command.waypoint } :: items) own
    · rw [own]

/-- With home in it, a numbered mission begins with a command. -/
theorem command_head_withHome {items : List MissionItem}
    (numbers : items.mapIdx numbered = items) :
    ∀ i ∈ (withHome items).head?, i.command ≠ 0 := by
  cases items with
  | nil => nofun
  | cons i items =>
    rw [List.mapIdx_cons, List.cons_eq_cons] at numbers
    have zero : i.seq = 0 := (congrArg MissionItem.seq numbers.1).symm
    rw [withHome, List.head?_cons]
    rintro j ⟨⟩
    split_ifs with home
    · exact show Command.waypoint ≠ 0 by decide
    · exact fun bare => home ⟨zero, bare⟩

theorem mapIdx_numbered_map_reread (f : Binary64 → Binary64) {items : List MissionItem}
    (numbers : items.mapIdx numbered = items) :
    (items.map (·.reread f)).mapIdx numbered = items.map (·.reread f) := by
  have commute : (items.map (·.reread f)).mapIdx numbered
      = (items.mapIdx numbered).map (·.reread f) := by
    refine List.ext_getElem? fun k => ?_
    simp only [List.getElem?_mapIdx, List.getElem?_map, Option.map_map]
    rfl
  rw [commute, numbers]

/-! ## What is written of what is read -/

theorem itemLines_reread (i : MissionItem) : itemLines (i.reread Decimal.again) = itemLines i := by
  have line : itemLine (i.reread Decimal.again) = itemLine i := by
    simp only [itemLine, MissionItem.reread, MissionItem.mapDecimals, List.map_cons, List.map_nil,
      Decimal.fixed_again]
  rw [itemLines, itemLines, line]
  simp only [MissionItem.reread, Option.filter_filter, Bool.and_self]

theorem write_map_reread (items : List MissionItem) (type type' : MissionType) :
    write ⟨items.map (·.reread Decimal.again), type⟩ = write ⟨items, type'⟩ := by
  simp only [write, List.flatMap_map, itemLines_reread]

/-- **What is written is read**, with home in it, and decimals and comments as they are written. -/
theorem read_write_again {m : Mission} (numbers : m.Numbered)
    (comments : ∀ i ∈ m.items, i.HasLineComment) :
    read m.write = .ok ⟨(withHome m.items).map (·.reread Decimal.again), .mission⟩ := by
  let again : Mission := ⟨(withHome m.items).map (·.reread Decimal.again), .mission⟩
  have numbered : again.Numbered := mapIdx_numbered_map_reread _ (mapIdx_numbered_withHome numbers)
  rw [read_write (fun i _ => i.readsAs_again) comments, withHome_map_reread]
  exact congrArg Except.ok numbered.addAll_empty

/-- Missions that are written alike are read alike. -/
theorem map_reread_eq_of_write_eq {m m' : Mission} (comments : ∀ i ∈ m.items, i.HasLineComment)
    (comments' : ∀ i ∈ m'.items, i.HasLineComment) (same : m.write = m'.write) :
    m.items.map (·.reread Decimal.again) = m'.items.map (·.reread Decimal.again) := by
  have lines := lines_write comments
  rw [same, lines_write comments', List.cons.injEq] at lines
  have read := readItems_flatMap (fun i _ => i.readsAs_again) comments 2
  rw [← lines.2, readItems_flatMap (fun i _ => i.readsAs_again) comments' 2] at read
  exact (Except.ok.inj read).symm

/-! ## Files -/

/-- The first row of a file is of an item without a command, and not numbered zero. -/
def BareStart (text : String) : Prop :=
  let lines := Text.lines text.toList
  ∃ format : Format, format.header = String.ofList (Text.trim (lines.headD [])) ∧
    ∃ items, List.Forall₂ (Row.Gives format) (rows [] lines.tail) items ∧
      ∃ i ∈ items.head?, i.command = 0 ∧ i.seq ≠ 0

/-- The first item is kept without a command just if the file begins so. -/
theorem bareStart_iff {text : String} {m : Mission} (loaded : read text = .ok m) :
    BareStart text ↔ ∃ i ∈ m.items.head?, i.command = 0 := by
  obtain ⟨format, header, items, each, rfl⟩ := read_eq_ok_iff.1 loaded
  have first : (∃ i ∈ (items.mapIdx placed).head?, i.command = 0)
      ↔ ∃ i ∈ items.head?, i.command = 0 ∧ i.seq ≠ 0 := by
    cases items with
    | nil => simp
    | cons i items =>
      have command : (placed 0 i).command = 0 ↔ i.command = 0 ∧ i.seq ≠ 0 := by
        rw [placed]
        split_ifs with home
        · have sixteen : Command.waypoint ≠ 0 := by decide
          exact ⟨fun bare => absurd bare sixteen, fun bare => absurd home.2.1 bare.2⟩
        · exact ⟨fun bare => ⟨bare, fun zero => home ⟨rfl, zero, bare⟩⟩, And.left⟩
      simp [List.mapIdx_cons, command]
  rw [first]
  constructor
  · rintro ⟨format', header', items', each', bare⟩
    obtain rfl : format' = format := by
      rw [← Option.some.injEq, ← ofHeader?_eq_some_iff.2 header', ofHeader?_eq_some_iff.2 header]
    have same := readItems_eq_ok_iff.2 each
    rw [readItems_eq_ok_iff.2 each', Except.ok.injEq] at same
    rwa [← same]
  · exact fun bare => ⟨format, header, items, each, bare⟩

/-- **Saving again.**  What is written of a mission that was read is read, and written again it is
the same text, unless the first row of the file is of an item without a command and not numbered
zero.  Then it is the text of the mission with home for that item.  Either way it stays as it is
from then on. -/
theorem saved_again {text : String} {m : Mission} (loaded : read text = .ok m) :
    ∃ m', read m.write = .ok m' ∧ (m'.write = m.write ↔ ¬ BareStart text) ∧
      m'.write = write { m with items := withHome m.items } ∧
      ∃ m'', read m'.write = .ok m'' ∧ m''.write = m'.write := by
  have comments := hasLineComment_of_read loaded
  have numbers : m.Numbered := numbered_of_read loaded
  have again := read_write_again numbers comments
  have begins := command_head_withHome numbers
  refine ⟨_, again, ?_, write_map_reread _ _ _, _,
    read_write_again (numbered_of_read again) (hasLineComment_of_read again), ?_⟩
  · rw [bareStart_iff loaded]
    constructor
    · rintro same ⟨i, first, bare⟩
      have items := map_reread_eq_of_write_eq (hasLineComment_of_read again) comments same
      have heads := congrArg (fun items => items.head?.map MissionItem.command) items
      simp only [List.head?_map, Option.map_map] at heads
      rw [Option.mem_def.1 first] at heads
      obtain ⟨j, kept, command⟩ := Option.map_eq_some_iff.1 heads
      have same_command : j.command = i.command := command
      exact begins j kept (same_command.trans bare)
    · intro commanded
      rw [write_map_reread _ _ m.type, withHome_eq_self fun i first bare =>
        commanded ⟨i, first, bare⟩]
  · rw [write_map_reread _ _ .mission, withHome_eq_self]
    intro i first
    rw [List.head?_map] at first
    obtain ⟨j, kept, rfl⟩ := Option.map_eq_some_iff.1 first
    exact begins j kept

/-- A first row without a command and with the number one becomes home when it is read again. -/
theorem bare_start_saved_otherwise :
    let text := "QGC WPL 110\n1 0 0 0 0 0 0 0 0 0 0 1\n"
    ∃ m m', read text = .ok m ∧ read m.write = .ok m' ∧ m'.write ≠ m.write := by
  let i : MissionItem := { autocontinue := 1 }
  exact ⟨⟨[i], .mission⟩, ⟨[{ i with command := Command.waypoint }], .mission⟩, by decide +kernel,
    by decide +kernel, by decide +kernel⟩

/-- Home without a command below an empty comment, which is not written, and with a decimal that is
not what is written of it. -/
theorem home_saved_again :
    let text := "QGC WPL 110\r\n#\r\n0 1 0 0 0 0 0 0 7.5e-7 -inf 2 1"
    ∃ m m', read text = .ok m ∧ read m.write = .ok m' ∧ m' ≠ m ∧ ¬ BareStart text ∧
      m'.write = m.write := by
  intro text
  obtain ⟨m, found, begins, other⟩ : ∃ m, read text = .ok m ∧
      (∀ i ∈ m.items.head?, i.command ≠ 0) ∧ read m.write ≠ .ok m := by
    let home : MissionItem := {
      current := 1, command := Command.waypoint, x := .ofRatio false 75 100000000,
      y := .infinity true, z := .ofInt 2, autocontinue := 1, comment := some "" }
    exact ⟨⟨[home], .mission⟩, by decide +kernel, by decide +kernel, by decide +kernel⟩
  have commanded : ¬ BareStart text := by
    rw [bareStart_iff found]
    rintro ⟨i, first, bare⟩
    exact begins i first bare
  obtain ⟨m', found', same, -⟩ := saved_again found
  refine ⟨m, m', found, found', ?_, commanded, same.2 commanded⟩
  rintro rfl
  exact other found'

end Mission

end Mavlink
