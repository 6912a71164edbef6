import Mathlib
import Mavlink.Mission.Text
import Mavlink.Proofs.Text.Lines

/-!
# The grammar of mission files

A file is a header and rows, with blank lines and comments between them.  A row spells the values
of an item, in the order of the columns of its format (`Format.Spells`), and the item has the last
comment that stands between its row and the row before.  A file is read if each of its rows spells
an item, and then the items are those of its rows, at their places.  Otherwise the error tells the
number of the first row that spells none.

* `Mission.readItem_eq_ok_iff` --- a line is read as what its columns spell;
* `Mission.readItems_eq_ok_iff`, `Mission.fault_of_readItems` --- what becomes of all lines;
* `Mission.read_by_rows` --- and of the file.
-/

namespace Mavlink

/-- The number of the line that an error is about. -/
def MissionError.line? : MissionError → Option Nat
  | .invalidLine line _ | .invalidNumber line _ | .unknownAction line _ => some line
  | .unsupportedFormat _ | .notEnoughFencePoints .. | .indexOutOfRange .. => none

namespace Mission

/-! ## What columns spell -/

/-- The columns that hold the values of an item, but for the command. -/
structure ItemColumns where
  seq : List Char
  current : List Char
  frame : List Char
  param1 : List Char
  param2 : List Char
  param3 : List Char
  param4 : List Char
  x : List Char
  y : List Char
  z : List Char
  autocontinue : List Char

/-- Each column is read as the value of an item. -/
structure ItemColumns.Spell (c : ItemColumns) (i : MissionItem) : Prop where
  seq : Text.decimal? 0xFFFF c.seq = some i.seq.toNat
  current : Text.decimal? 0xFF c.current = some i.current.toNat
  frame : Text.decimal? 0xFF c.frame = some i.frame.toNat
  param1 : Decimal.read? c.param1 = some i.param1
  param2 : Decimal.read? c.param2 = some i.param2
  param3 : Decimal.read? c.param3 = some i.param3
  param4 : Decimal.read? c.param4 = some i.param4
  x : Decimal.read? c.x = some i.x
  y : Decimal.read? c.y = some i.y
  z : Decimal.read? c.z = some i.z
  autocontinue : Text.decimal? 0xFF c.autocontinue = some i.autocontinue.toNat

/-- The values that the columns of a line spell, in the order of a format. -/
inductive Format.Spells : Format → List (List Char) → MissionItem → Prop
  | qgc110 {c : ItemColumns} {command : List Char} {i : MissionItem} (values : c.Spell i)
      (command_read : Text.decimal? 0xFFFF command = some i.command.toNat) :
      Spells .qgc110 [c.seq, c.current, c.frame, command, c.param1, c.param2, c.param3, c.param4,
        c.x, c.y, c.z, c.autocontinue] i
  /-- The older format has actions for commands, and a column that is not read. -/
  | qgc100 {c : ItemColumns} {action unread : List Char} {number : Nat} {i : MissionItem}
      (values : c.Spell i) (action_read : Text.decimal? 0xFFFF action = some number)
      (known : ofAction? number = some i.command) :
      Spells .qgc100 [c.seq, c.frame, action, c.param3, c.param4, c.param1, c.param2, c.current,
        c.y, c.x, c.z, unread, c.autocontinue] i

/-- A comment is not among the columns. -/
theorem Format.Spells.comment {format : Format} {columns : List (List Char)} {i : MissionItem}
    (h : format.Spells columns i) (comment : Option String) :
    format.Spells columns { i with comment } := by
  cases h with
  | qgc110 values command => exact .qgc110 { values with } command
  | qgc100 values action known => exact .qgc100 { values with } action known

section Columns

variable {line limit k : Nat} {columns : List (List Char)}

theorem whole_eq_ok_iff {n : Nat} :
    whole line limit columns k = .ok n ↔ Text.decimal? limit (columns.getD k []) = some n := by
  rw [whole]
  split
  · next found => rw [found, Except.ok.injEq, Option.some.injEq]
  · next found =>
    rw [found]
    exact ⟨nofun, nofun⟩

theorem byte_eq_ok_iff {n : UInt8} :
    byte line columns k = .ok n ↔ Text.decimal? 0xFF (columns.getD k []) = some n.toNat := by
  suffices same : byte line columns k = .ok n ↔ whole line 0xFF columns k = .ok n.toNat from
    same.trans whole_eq_ok_iff
  rw [byte]
  refine ⟨fun h => ?_, fun h => ?_⟩
  · obtain ⟨m, read, rfl⟩ := exists_of_map_eq_ok h
    have small : m < UInt8.size := Nat.lt_succ_of_le (Text.le_of_decimal? (whole_eq_ok_iff.1 read))
    rw [read, UInt8.toNat_ofNat_of_lt' small]
  · rw [h]
    exact congrArg Except.ok UInt8.ofNat_toNat

theorem short_eq_ok_iff {n : UInt16} :
    short line columns k = .ok n ↔ Text.decimal? 0xFFFF (columns.getD k []) = some n.toNat := by
  suffices same : short line columns k = .ok n ↔ whole line 0xFFFF columns k = .ok n.toNat from
    same.trans whole_eq_ok_iff
  rw [short]
  refine ⟨fun h => ?_, fun h => ?_⟩
  · obtain ⟨m, read, rfl⟩ := exists_of_map_eq_ok h
    have small : m < UInt16.size := Nat.lt_succ_of_le (Text.le_of_decimal? (whole_eq_ok_iff.1 read))
    rw [read, UInt16.toNat_ofNat_of_lt' small]
  · rw [h]
    exact congrArg Except.ok UInt16.ofNat_toNat

theorem decimal_eq_ok_iff {x : Binary64} :
    decimal line columns k = .ok x ↔ Decimal.read? (columns.getD k []) = some x := by
  rw [decimal]
  split
  · next found => rw [found, Except.ok.injEq, Option.some.injEq]
  · next found =>
    rw [found]
    exact ⟨nofun, nofun⟩

theorem splitColumns_eq_ok_iff {text : List Char} {expected : Nat} :
    splitColumns line text expected = .ok columns
      ↔ Text.words text = columns ∧ columns.length = expected := by
  simp only [splitColumns]
  split_ifs with count
  · rw [Except.ok.injEq]
    exact ⟨fun same => ⟨same, same ▸ count⟩, And.left⟩
  · refine ⟨nofun, fun ⟨same, length⟩ => absurd (same ▸ length) count⟩

/-- So many columns are those at the places before. -/
theorem exists_of_length {n : Nat} (length : columns.length = n) :
    ∃ f : Nat → List Char, columns = (List.range n).map f := by
  refine ⟨(columns.getD · []), List.ext_getElem (by simp [length]) fun i inside _ => ?_⟩
  rw [List.getElem_map, List.getElem_range, List.getD_eq_getElem _ _ inside]

end Columns

theorem readItem110_eq_ok_iff {line : Nat} {text : List Char} {i : MissionItem} :
    readItem110 line text = .ok i
      ↔ Format.qgc110.Spells (Text.words text) i ∧ i.comment = none := by
  simp only [readItem110, bind_eq_ok_iff, splitColumns_eq_ok_iff, short_eq_ok_iff, byte_eq_ok_iff,
    decimal_eq_ok_iff]
  constructor
  · rintro ⟨columns, ⟨words, length⟩, seq, hseq, current, hcurrent, frame, hframe, command,
      hcommand, param1, hparam1, param2, hparam2, param3, hparam3, param4, hparam4, x, hx, y, hy, z,
      hz, autocontinue, hautocontinue, made⟩
    cases made
    obtain ⟨f, rfl⟩ := exists_of_length length
    rw [words]
    exact ⟨.qgc110 (c := ⟨f 0, f 1, f 2, f 4, f 5, f 6, f 7, f 8, f 9, f 10, f 11⟩)
      ⟨hseq, hcurrent, hframe, hparam1, hparam2, hparam3, hparam4, hx, hy, hz, hautocontinue⟩
      hcommand, rfl⟩
  · rintro ⟨spelled, bare⟩
    generalize Text.words text = columns at spelled
    cases spelled with
    | qgc110 v command =>
      refine ⟨_, ⟨rfl, rfl⟩, _, v.seq, _, v.current, _, v.frame, _, command, _, v.param1, _,
        v.param2, _, v.param3, _, v.param4, _, v.x, _, v.y, _, v.z, _, v.autocontinue, ?_⟩
      cases i
      cases bare
      rfl

theorem readItem100_eq_ok_iff {line : Nat} {text : List Char} {i : MissionItem} :
    readItem100 line text = .ok i
      ↔ Format.qgc100.Spells (Text.words text) i ∧ i.comment = none := by
  simp only [readItem100, bind_eq_ok_iff, splitColumns_eq_ok_iff, whole_eq_ok_iff]
  constructor
  · rintro ⟨columns, ⟨words, length⟩, action, haction, rest⟩
    cases known : ofAction? action with
    | none =>
      rw [known] at rest
      cases rest
    | some command =>
      simp only [known, bind_eq_ok_iff, short_eq_ok_iff, byte_eq_ok_iff, decimal_eq_ok_iff] at rest
      obtain ⟨seq, hseq, current, hcurrent, frame, hframe, param1, hparam1, param2, hparam2, param3,
        hparam3, param4, hparam4, x, hx, y, hy, z, hz, autocontinue, hautocontinue, made⟩ := rest
      cases made
      obtain ⟨f, rfl⟩ := exists_of_length length
      rw [words]
      exact ⟨.qgc100 (c := ⟨f 0, f 7, f 1, f 5, f 6, f 3, f 4, f 9, f 8, f 10, f 12⟩)
        ⟨hseq, hcurrent, hframe, hparam1, hparam2, hparam3, hparam4, hx, hy, hz, hautocontinue⟩
        haction known, rfl⟩
  · rintro ⟨spelled, bare⟩
    generalize Text.words text = columns at spelled
    cases spelled with
    | qgc100 v action known =>
      refine ⟨_, ⟨rfl, rfl⟩, _, action, ?_⟩
      simp only [known, bind_eq_ok_iff, short_eq_ok_iff, byte_eq_ok_iff, decimal_eq_ok_iff]
      refine ⟨_, v.seq, _, v.current, _, v.frame, _, v.param1, _, v.param2, _, v.param3, _,
        v.param4, _, v.x, _, v.y, _, v.z, _, v.autocontinue, ?_⟩
      cases i
      cases bare
      rfl

/-- A line is read as what its columns spell. -/
theorem readItem_eq_ok_iff {format : Format} {line : Nat} {text : List Char} {i : MissionItem} :
    format.readItem line text = .ok i ↔ format.Spells (Text.words text) i ∧ i.comment = none := by
  cases format with
  | qgc110 => exact readItem110_eq_ok_iff
  | qgc100 => exact readItem100_eq_ok_iff

/-! ## Errors tell the line -/

/-- If a step goes wrong then the error is about the line. -/
def FailsAt {α : Type} (line : Nat) (x : Except MissionError α) : Prop :=
  ∀ e, x = .error e → e.line? = some line

section FailsAt

variable {α β : Type} {line : Nat} {x : Except MissionError α}

theorem FailsAt.pure (a : α) : FailsAt line (.ok a) := nofun

theorem FailsAt.bind {f : α → Except MissionError β} (first : FailsAt line x)
    (others : ∀ a, FailsAt line (f a)) : FailsAt line (x >>= f) := by
  intro e failed
  cases x with
  | error e' =>
    cases failed
    exact first e rfl
  | ok a => exact others a e failed

theorem FailsAt.map {f : α → β} (h : FailsAt line x) : FailsAt line (x.map f) := by
  intro e failed
  cases x with
  | error e' =>
    cases failed
    exact h e rfl
  | ok a => cases failed

variable (line) (columns : List (List Char)) (k : Nat)

theorem failsAt_whole (limit : Nat) : FailsAt line (whole line limit columns k) := by
  intro e failed
  rw [whole] at failed
  split at failed <;> cases failed
  rfl

theorem failsAt_decimal : FailsAt line (decimal line columns k) := by
  intro e failed
  rw [decimal] at failed
  split at failed <;> cases failed
  rfl

theorem failsAt_splitColumns (text : List Char) (expected : Nat) :
    FailsAt line (splitColumns line text expected) := by
  intro e failed
  simp only [splitColumns] at failed
  split at failed <;> cases failed
  rfl

/-- A line that is not read fails at its own number. -/
theorem failsAt_readItem (format : Format) (text : List Char) :
    FailsAt line (format.readItem line text) := by
  have short (columns : List (List Char)) (k : Nat) : FailsAt line (short line columns k) :=
    (failsAt_whole line columns k 0xFFFF).map
  have byte (columns : List (List Char)) (k : Nat) : FailsAt line (byte line columns k) :=
    (failsAt_whole line columns k 0xFF).map
  have decimal := failsAt_decimal line
  cases format with
  | qgc110 =>
    refine .bind (failsAt_splitColumns line text _) fun c => ?_
    exact .bind (short c 0) fun _ => .bind (byte c 1) fun _ => .bind (byte c 2) fun _ =>
      .bind (short c 3) fun _ => .bind (decimal c 4) fun _ => .bind (decimal c 5) fun _ =>
      .bind (decimal c 6) fun _ => .bind (decimal c 7) fun _ => .bind (decimal c 8) fun _ =>
      .bind (decimal c 9) fun _ => .bind (decimal c 10) fun _ => .bind (byte c 11) fun _ =>
      .pure _
  | qgc100 =>
    refine .bind (failsAt_splitColumns line text _) fun c => ?_
    refine .bind (failsAt_whole line c 2 0xFFFF) fun action => ?_
    split
    · intro e failed
      cases failed
      rfl
    · exact .bind (short c 0) fun _ => .bind (byte c 7) fun _ => .bind (byte c 1) fun _ =>
        .bind (decimal c 5) fun _ => .bind (decimal c 6) fun _ => .bind (decimal c 3) fun _ =>
        .bind (decimal c 4) fun _ => .bind (decimal c 9) fun _ => .bind (decimal c 8) fun _ =>
        .bind (decimal c 10) fun _ => .bind (byte c 12) fun _ => .pure _

end FailsAt

/-! ## The rows of a file -/

/-- Whether a line is a comment: it begins with a number sign, with no blank before it. -/
def isComment (line : List Char) : Bool := line.head? == some '#'

/-- Whether a line is a row: it is no comment, and not blank. -/
def isRow (line : List Char) : Bool := !isComment line && !line.all Text.isBlank

/-- The last comment of the lines above, the nearest first, that does not stand above another
row. -/
def commentAbove (above : List (List Char)) : Option String :=
  ((above.takeWhile (!isRow ·)).find? isComment).map fun line =>
    String.ofList (Text.trim line.tail)

/-- A line of columns. -/
structure Row where
  /-- The number of the line, from one on. -/
  number : Nat
  columns : List (List Char)
  comment : Option String

/-- The rows of lines that stand below a header and other lines, the nearest first. -/
def rows (above : List (List Char)) : List (List Char) → List Row
  | [] => []
  | line :: below =>
    if isRow line then
      ⟨above.length + 2, Text.words line, commentAbove above⟩ :: rows (line :: above) below
    else rows (line :: above) below

/-- The item of a row, with the number that is written there. -/
def Row.Gives (format : Format) (row : Row) (i : MissionItem) : Prop :=
  format.Spells row.columns i ∧ i.comment = row.comment

/-- The first row that spells no item. -/
def Row.IsFirstFault (format : Format) (rows : List Row) (row : Row) : Prop :=
  ∃ before after, rows = before ++ row :: after ∧
    (∀ r ∈ before, ∃ i, format.Spells r.columns i) ∧ ∀ i, ¬ format.Spells row.columns i

theorem Row.IsFirstFault.head {format : Format} {row : Row} (rows : List Row)
    (faulty : ∀ i, ¬ format.Spells row.columns i) : IsFirstFault format (row :: rows) row :=
  ⟨[], rows, rfl, nofun, faulty⟩

theorem Row.IsFirstFault.cons {format : Format} {first row : Row} {rows : List Row}
    {i : MissionItem} (spelled : format.Spells first.columns i)
    (h : IsFirstFault format rows row) : IsFirstFault format (first :: rows) row := by
  obtain ⟨before, after, rfl, good, faulty⟩ := h
  exact ⟨first :: before, after, rfl, List.forall_mem_cons.2 ⟨⟨i, spelled⟩, good⟩, faulty⟩

section Rows

variable {format : Format} {line : List Char} {above below : List (List Char)}

/-- A line that is no row only matters to the comment of the next row. -/
theorem readItems_of_not_row (quiet : isRow line = false) :
    readItems format (above.length + 2) (commentAbove above) (line :: below)
      = readItems format ((line :: above).length + 2) (commentAbove (line :: above)) below := by
  have passed : (line :: above).takeWhile (!isRow ·) = line :: above.takeWhile (!isRow ·) :=
    List.takeWhile_cons_of_pos (by rw [quiet]; rfl)
  rw [commentAbove, commentAbove, passed]
  cases comment : isComment line with
  | true =>
    rcases line with _ | ⟨c, text⟩
    · cases comment
    · obtain rfl : c = '#' := by simpa [isComment] using comment
      rw [List.find?_cons_of_pos comment, readItems]
      rfl
  | false =>
    have blank : Text.trim line = [] := by
      simpa [isRow, comment, Text.trim_eq_nil_iff] using quiet
    rw [List.find?_cons_of_neg (by rw [comment]; nofun), readItems, if_pos blank]
    · rfl
    · rintro text rfl
      cases comment

/-- A row is read with the comment above it, which the next row does not have. -/
theorem readItems_of_row (row : isRow line = true) :
    readItems format (above.length + 2) (commentAbove above) (line :: below) = (do
      let item ← format.readItem (above.length + 2) (Text.trim line)
      let items ← readItems format ((line :: above).length + 2) (commentAbove (line :: above)) below
      return { item with comment := commentAbove above } :: items) := by
  have stopped : (line :: above).takeWhile (!isRow ·) = [] :=
    List.takeWhile_cons_of_neg (by rw [row]; nofun)
  have fresh : commentAbove (line :: above) = none := by rw [commentAbove, stopped]; rfl
  obtain ⟨comment, filled⟩ : isComment line = false ∧ ¬ Text.trim line = [] := by
    simpa [isRow, Text.trim_eq_nil_iff] using row
  rw [fresh, readItems, if_neg filled]
  · rfl
  · rintro text rfl
    cases comment

/-- All lines are read if each row spells an item, and then as what the rows spell. -/
theorem readItems_eq_ok_iff {items : List MissionItem} :
    readItems format (above.length + 2) (commentAbove above) below = .ok items
      ↔ List.Forall₂ (Row.Gives format) (rows above below) items := by
  induction below generalizing above items with
  | nil =>
    rw [readItems, rows, List.forall₂_nil_left_iff, Except.ok.injEq, eq_comm]
  | cons line below ih =>
    cases row : isRow line with
    | false => rw [readItems_of_not_row row, ih, rows, if_neg (by rw [row]; nofun)]
    | true =>
      simp only [readItems_of_row row, bind_eq_ok_iff, readItem_eq_ok_iff, ih, Text.words_trim]
      rw [rows, if_pos row, List.forall₂_cons_left_iff]
      constructor
      · rintro ⟨i, ⟨spelled, bare⟩, others, each, made⟩
        cases made
        exact ⟨_, _, ⟨spelled.comment _, rfl⟩, each, rfl⟩
      · rintro ⟨i, others, ⟨spelled, above_it⟩, each, rfl⟩
        have kept : commentAbove above = i.comment := above_it.symm
        refine ⟨{ i with comment := none }, ⟨spelled.comment _, rfl⟩, others, each, ?_⟩
        rw [kept]
        rfl

/-- Otherwise the error is about the first row that spells no item. -/
theorem fault_of_readItems {e : MissionError}
    (failed : readItems format (above.length + 2) (commentAbove above) below = .error e) :
    ∃ row, Row.IsFirstFault format (rows above below) row ∧ e.line? = some row.number := by
  induction below generalizing above with
  | nil => cases failed
  | cons line below ih =>
    cases row : isRow line with
    | false =>
      rw [readItems_of_not_row row] at failed
      rw [rows, if_neg (by rw [row]; nofun)]
      exact ih failed
    | true =>
      rw [readItems_of_row row] at failed
      rw [rows, if_pos row]
      have number := failsAt_readItem (above.length + 2) format (Text.trim line)
      cases own : format.readItem (above.length + 2) (Text.trim line) with
      | error e' =>
        rw [own] at failed number
        cases failed
        refine ⟨_, .head _ fun i spelled => ?_, number e rfl⟩
        have bare : format.Spells (Text.words (Text.trim line)) { i with comment := none } :=
          Text.words_trim line ▸ spelled.comment none
        cases own.symm.trans (readItem_eq_ok_iff.2 ⟨bare, rfl⟩)
      | ok i =>
        rw [own] at failed
        cases others : readItems format ((line :: above).length + 2) (commentAbove (line :: above))
            below with
        | ok items => rw [others] at failed; cases failed
        | error e' =>
          rw [others] at failed
          cases failed
          obtain ⟨row, fault, told⟩ := ih others
          have spelled := (readItem_eq_ok_iff.1 own).1
          rw [Text.words_trim] at spelled
          exact ⟨row, .cons spelled fault, told⟩

end Rows

/-! ## Files -/

theorem ofHeader?_eq_some_iff {header : String} {format : Format} :
    Format.ofHeader? header = some format ↔ format.header = header := by
  constructor
  · intro found
    rw [Format.ofHeader?] at found
    have same := List.find?_some found
    exact of_decide_eq_true same
  · rintro rfl
    cases format <;> decide

/-- The item at a place of a mission whose row gives `i`.  Home may be written without a
command. -/
def placed (k : Nat) (i : MissionItem) : MissionItem :=
  { i with
    seq := UInt16.ofNat k
    command := if k = 0 ∧ i.seq = 0 ∧ i.command = 0 then Command.waypoint else i.command }

theorem addAll_withHome (items : List MissionItem) :
    (empty .mission).addAll (withHome items) = ⟨items.mapIdx placed, .mission⟩ := by
  cases items with
  | nil => rfl
  | cons i items =>
    have later : (fun k => numbered (k + 1)) = fun k => placed (k + 1) := by
      funext k i
      rw [placed, if_neg fun first => Nat.succ_ne_zero k first.1, numbered]
    have first : numbered 0 (if i.seq = 0 ∧ i.command = 0 then
        { i with command := Command.waypoint } else i) = placed 0 i := by
      by_cases home : i.seq = 0 ∧ i.command = 0
      · rw [if_pos home, placed, if_pos ⟨rfl, home⟩]
        rfl
      · rw [if_neg home, placed, if_neg fun bare => home bare.2]
        rfl
    rw [List.mapIdx_cons, ← later, ← first]
    simp only [withHome, addAll, empty, List.nil_append, List.length_nil, List.mapIdx_cons,
      Nat.zero_add]

/-- Rows give items just if each spells one. -/
theorem exists_gives_iff {format : Format} {rows : List Row} :
    (∃ items, List.Forall₂ (Row.Gives format) rows items)
      ↔ ∀ row ∈ rows, ∃ i, format.Spells row.columns i := by
  induction rows with
  | nil => exact ⟨fun _ => nofun, fun _ => ⟨[], .nil⟩⟩
  | cons row rows ih =>
    rw [List.forall_mem_cons, ← ih]
    constructor
    · rintro ⟨_, _ | ⟨gives, each⟩⟩
      exact ⟨⟨_, gives.1⟩, _, each⟩
    · rintro ⟨⟨i, spelled⟩, items, each⟩
      exact ⟨_, .cons ⟨spelled.comment row.comment, rfl⟩ each⟩

section Files

variable {text : String}

theorem read_eq_ok_iff {m : Mission} :
    read text = .ok m ↔ ∃ format : Format,
      format.header = String.ofList (Text.trim ((Text.lines text.toList).headD [])) ∧
        ∃ items, List.Forall₂ (Row.Gives format) (rows [] (Text.lines text.toList).tail) items ∧
          m = ⟨items.mapIdx placed, .mission⟩ := by
  simp only [read, ← ofHeader?_eq_some_iff]
  split
  · next unknown =>
    rw [unknown]
    exact ⟨nofun, nofun⟩
  · next format known =>
    have below (items : List MissionItem) :
        readItems format 2 none (Text.lines text.toList).tail = .ok items
          ↔ List.Forall₂ (Row.Gives format) (rows [] (Text.lines text.toList).tail) items :=
      @readItems_eq_ok_iff format [] _ items
    simp only [known, Option.some.injEq, exists_eq_left', bind_eq_ok_iff, ← below, addAll_withHome]
    exact exists_congr fun items => and_congr_right fun _ =>
      ⟨fun made => (Except.ok.inj made).symm, fun made => congrArg Except.ok made.symm⟩

theorem fault_of_read {e : MissionError} (failed : read text = .error e) :
    let header := String.ofList (Text.trim ((Text.lines text.toList).headD []))
    (∀ format : Format, format.header ≠ header) ∧ e = .unsupportedFormat header ∨
      ∃ format : Format, format.header = header ∧
        ∃ row, Row.IsFirstFault format (rows [] (Text.lines text.toList).tail) row ∧
          e.line? = some row.number := by
  intro header
  rw [read] at failed
  split at failed
  · next unknown =>
    cases failed
    refine .inl ⟨fun format same => ?_, rfl⟩
    cases unknown.symm.trans (ofHeader?_eq_some_iff.2 same)
  · next format known =>
    refine .inr ⟨format, ofHeader?_eq_some_iff.1 known, ?_⟩
    cases outcome : readItems format 2 none (Text.lines text.toList).tail with
    | ok items => rw [outcome] at failed; cases failed
    | error e' =>
      rw [outcome] at failed
      cases failed
      exact fault_of_readItems outcome

end Files

/-- **What a mission file says.**  A file is read just if its first line, without the blanks around
it, is a header and each row below spells an item in that format.  Then the items are those of the
rows, one for each and in order, with their places for numbers and with the comments above them.
Otherwise the header is told, if it is none, or else the number of the first row that spells no
item. -/
theorem read_by_rows (text : String) :
    let lines := Text.lines text.toList
    let header := String.ofList (Text.trim (lines.headD []))
    let rows := rows [] lines.tail
    ((∃ m, read text = .ok m) ↔ ∃ format : Format, format.header = header ∧
        ∀ row ∈ rows, ∃ i, format.Spells row.columns i) ∧
      (∀ m, read text = .ok m ↔ ∃ format : Format, format.header = header ∧
        ∃ items, List.Forall₂ (Row.Gives format) rows items ∧
          m = ⟨items.mapIdx placed, .mission⟩) ∧
      ∀ e, read text = .error e →
        (∀ format : Format, format.header ≠ header) ∧ e = .unsupportedFormat header ∨
          ∃ format : Format, format.header = header ∧
            ∃ row, Row.IsFirstFault format rows row ∧ e.line? = some row.number := by
  intro lines header rows
  refine ⟨?_, fun m => read_eq_ok_iff, fun e => fault_of_read⟩
  simp only [read_eq_ok_iff, ← exists_gives_iff]
  constructor
  · rintro ⟨m, format, same, items, each, -⟩
    exact ⟨format, same, items, each⟩
  · rintro ⟨format, same, items, each⟩
    exact ⟨_, format, same, items, each, rfl⟩

/-- Home without a command below two comments, and a row with a word among its numbers. -/
theorem home_read_and_fault_told :
    let home := "QGC WPL 110 \r\n#first\n# home\r\n \n"
      ++ "0 1 0 0 0 0 0 0 47 8 488 1\n1 0 3 22 15 0 0 0 47 8 20 1"
    let faulty := home ++ "\n#\n2 0 3 16 0 0 0 0 47 8 low 1\n"
    (∃ format items, List.Forall₂ (Row.Gives format) (rows [] (Text.lines home.toList).tail) items ∧
      read home = .ok ⟨items.mapIdx placed, .mission⟩ ∧
        (items.mapIdx placed).map (·.command) = [16, 22] ∧
        (items.mapIdx placed).map (·.comment) = [some "home", none]) ∧
      read faulty = .error (.invalidNumber 8 "low") ∧
        ∃ format row, row.number = 8 ∧
          Row.IsFirstFault format (rows [] (Text.lines faulty.toList).tail) row := by
  intro home faulty
  have answer : ∃ m, read home = .ok m ∧ m.items.map (·.command) = [16, 22] ∧
      m.items.map (·.comment) = [some "home", none] := by
    let m : Mission := ⟨[
      { current := 1, command := Command.waypoint, x := .ofInt 47, y := .ofInt 8, z := .ofInt 488,
        autocontinue := 1, comment := some "home" },
      { seq := 1, frame := 3, command := Command.takeoff, param1 := .ofInt 15, x := .ofInt 47,
        y := .ofInt 8, z := .ofInt 20, autocontinue := 1 }], .mission⟩
    exact ⟨m, by decide +kernel, rfl, rfl⟩
  have fault : read faulty = .error (.invalidNumber 8 "low") := by decide +kernel
  have header : Format.qgc110.header
      = String.ofList (Text.trim ((Text.lines faulty.toList).headD [])) := by decide +kernel
  obtain ⟨m, found, commands, comments⟩ := answer
  obtain ⟨format, -, items, each, rfl⟩ := ((read_by_rows home).2.1 m).1 found
  refine ⟨⟨format, items, each, found, commands, comments⟩, fault, ?_⟩
  rcases (read_by_rows faulty).2.2 _ fault with ⟨unknown, -⟩ | ⟨format, -, row, first, told⟩
  · exact absurd header (unknown .qgc110)
  · exact ⟨format, row, (Option.some.inj told).symm, first⟩

end Mission
end Mavlink
