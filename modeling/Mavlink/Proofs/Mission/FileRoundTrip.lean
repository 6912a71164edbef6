import Mathlib
import Mavlink.Proofs.Mission.Editing
import Mavlink.Proofs.Mission.FileGrammar

/-!
# Mission files round trip

A mission is written with tabs between the columns and a line of its own for each comment.  It is
read with any blanks between the columns, and a comment is kept for the next item that comes.  A
comment can look like columns, like a header or like another comment, but the number sign that is
written before it settles what it is.

Decimals are the one thing that writing can change, since it cuts them to six places.  What is
read back is the mission with every decimal as it reads after that, and where writing has changed
none, the mission itself.

* `Decimal.isWord_fixed` --- a decimal is one column;
* `Mission.spells_columns` --- the columns of an item spell the item;
* `Mission.readItems_flatMap` --- all lines are read, with the comments where they were;
* `Mission.read_write_of_numbered` --- and so is the file;
* `Mission.read_write_edited` --- for whatever has been edited.
-/

namespace Mavlink

/-! ## Decimals -/

namespace Decimal

/-- A character of a magnitude. -/
theorem isBlank_of_mem_pointed {places units : Nat} {c : Char}
    (h : c ∈ (pointed places units).toList) : Text.isBlank c = false := by
  rw [pointed, String.toList_ofList] at h
  have digit : ∀ d ∈ List.replicate (places + 1 - (Nat.toDigits 10 units).length) '0'
      ++ Nat.toDigits 10 units, Text.isBlank d = false := by
    intro d hd
    rcases List.mem_append.1 hd with zero | digit
    · rw [List.eq_of_mem_replicate zero]
      decide
    · exact Text.isBlank_of_isDigit (Text.isDigit_of_mem_toDigits digit)
  rcases List.mem_append.1 h with whole | rest
  · exact digit c (List.mem_of_mem_take whole)
  · rcases List.mem_cons.1 rest with rfl | rest
    · decide
    · exact digit c (List.mem_of_mem_drop rest)

theorem isWord_pointed (places units : Nat) : Text.IsWord (pointed places units).toList :=
  ⟨by simp [pointed], fun _ => isBlank_of_mem_pointed⟩

/-- A decimal is not cut at blanks. -/
theorem isWord_fixed (places : Nat) (x : Binary64) : Text.IsWord (fixed places x).toList := by
  have named {s : String} (nonempty : s.toList ≠ []) (unbroken : s.toList.all (!Text.isBlank ·)) :
      Text.IsWord s.toList :=
    ⟨nonempty, fun c hc => by simpa using List.all_eq_true.1 unbroken c hc⟩
  unfold fixed
  split
  · exact named (by decide) (by decide)
  · split_ifs
    · exact named (by decide) (by decide)
    · exact named (by decide) (by decide)
  · rename_i negative m e _
    have magnitude := isWord_pointed places
      (Binary.roundEven (Binary.scaled (m * Nat.pow 10 places) 1 (-e)).1
        (Binary.scaled (m * Nat.pow 10 places) 1 (-e)).2)
    show Text.IsWord (String.toList (if negative then _ else _))
    split_ifs
    · refine ⟨by simp, fun c hc => ?_⟩
      rw [String.toList_append] at hc
      rcases List.mem_append.1 hc with sign | rest
      · exact (named (s := "-") (by decide) (by decide)).unbroken c sign
      · exact magnitude.unbroken c rest
    · exact magnitude

end Decimal

namespace MissionItem

/-- The decimals of an item, in the order of their columns. -/
def decimals (i : MissionItem) : List Binary64 :=
  [i.param1, i.param2, i.param3, i.param4, i.x, i.y, i.z]

/-- The item with other decimals. -/
def mapDecimals (f : Binary64 → Binary64) (i : MissionItem) : MissionItem :=
  { i with
    param1 := f i.param1
    param2 := f i.param2
    param3 := f i.param3
    param4 := f i.param4
    x := f i.x
    y := f i.y
    z := f i.z }

/-- The columns of an item. -/
def columns (i : MissionItem) : List (List Char) :=
  [(toString i.seq.toNat).toList, (toString i.current.toNat).toList,
    (toString i.frame.toNat).toList, (toString i.command.toNat).toList]
  ++ i.decimals.map (fun x => (Decimal.fixed 6 x).toList)
  ++ [(toString i.autocontinue.toNat).toList]

/-- Decimals are written as texts that read as `f` of them. -/
def ReadsAs (f : Binary64 → Binary64) (i : MissionItem) : Prop :=
  ∀ x ∈ i.decimals, Decimal.read? (Decimal.fixed 6 x).toList = some (f x)

/-- A comment that is a line of its own, with nothing around it. -/
def HasLineComment (i : MissionItem) : Prop :=
  ∀ c ∈ i.comment, Text.trimmed c = c ∧ '\n' ∉ c.toList

/-- The item as it is read after it is written. -/
def reread (f : Binary64 → Binary64) (i : MissionItem) : MissionItem :=
  { i.mapDecimals f with comment := i.comment.filter (· ≠ "") }

/-- Nothing is lost where decimals read as they are and the comment is not empty. -/
theorem reread_id {i : MissionItem} (comment : i.comment ≠ some "") : i.reread id = i := by
  have kept : i.comment.filter (· ≠ "") = i.comment := by
    cases given : i.comment with
    | none => rfl
    | some c => exact Option.filter_some_pos (by simpa [given] using comment)
  simp only [reread, kept, mapDecimals, id_eq]

theorem isWord_of_mem_columns {i : MissionItem} {w : List Char} (h : w ∈ i.columns) :
    Text.IsWord w := by
  rcases List.mem_append.1 h with h | h
  · rcases List.mem_append.1 h with h | h
    · simp only [List.mem_cons, List.not_mem_nil, or_false] at h
      rcases h with rfl | rfl | rfl | rfl <;> exact Text.isWord_toString _
    · obtain ⟨x, -, rfl⟩ := List.mem_map.1 h
      exact Decimal.isWord_fixed 6 x
  · rw [List.mem_singleton.1 h]
    exact Text.isWord_toString _

end MissionItem

namespace Mission

/-! ## The line of an item -/

theorem toList_itemLine (i : MissionItem) :
    (itemLine i).toList = List.intercalate ['\t'] i.columns := by
  rw [itemLine, String.toList_intercalate]
  simp only [MissionItem.columns, MissionItem.decimals, List.map_append, List.map_cons,
    List.map_nil]
  rfl

/-- The columns of an item spell the item, with each decimal as it reads. -/
theorem spells_columns {f : Binary64 → Binary64} {i : MissionItem} (reads : i.ReadsAs f) :
    Format.qgc110.Spells i.columns (i.mapDecimals f) := by
  have byte (n : UInt8) : Text.decimal? 0xFF (toString n.toNat).toList = some n.toNat :=
    Text.decimal?_toString (Nat.le_of_lt_succ n.toNat_lt)
  have short (n : UInt16) : Text.decimal? 0xFFFF (toString n.toNat).toList = some n.toNat :=
    Text.decimal?_toString (Nat.le_of_lt_succ n.toNat_lt)
  have decimal (k : Nat) (inside : k < 7) := reads i.decimals[k] (List.getElem_mem inside)
  exact .qgc110 (c := {
      seq := (toString i.seq.toNat).toList
      current := (toString i.current.toNat).toList
      frame := (toString i.frame.toNat).toList
      param1 := (Decimal.fixed 6 i.param1).toList
      param2 := (Decimal.fixed 6 i.param2).toList
      param3 := (Decimal.fixed 6 i.param3).toList
      param4 := (Decimal.fixed 6 i.param4).toList
      x := (Decimal.fixed 6 i.x).toList
      y := (Decimal.fixed 6 i.y).toList
      z := (Decimal.fixed 6 i.z).toList
      autocontinue := (toString i.autocontinue.toNat).toList })
    { seq := short i.seq
      current := byte i.current
      frame := byte i.frame
      param1 := decimal 0 (by decide)
      param2 := decimal 1 (by decide)
      param3 := decimal 2 (by decide)
      param4 := decimal 3 (by decide)
      x := decimal 4 (by decide)
      y := decimal 5 (by decide)
      z := decimal 6 (by decide)
      autocontinue := byte i.autocontinue }
    (short i.command)

/-- The columns of an item are read as they are written. -/
theorem readItem110_itemLine {f : Binary64 → Binary64} {i : MissionItem} (reads : i.ReadsAs f)
    (line : Nat) :
    readItem110 line (itemLine i).toList = .ok { i.mapDecimals f with comment := none } := by
  refine readItem110_eq_ok_iff.2 ⟨?_, rfl⟩
  have words : Text.words (itemLine i).toList = i.columns := by
    rw [toList_itemLine]
    exact Text.words_intercalate (fun _ => MissionItem.isWord_of_mem_columns) (by decide)
  rw [words]
  exact (spells_columns reads).comment none

/-! ## All lines -/

/-- The line of an item begins with the number of the item. -/
theorem exists_itemLine (i : MissionItem) :
    ∃ c cs, (itemLine i).toList = c :: cs ∧ c.isDigit = true := by
  have nonempty : Nat.toDigits 10 i.seq.toNat ≠ [] := Nat.toDigits_ne_nil
  obtain ⟨c, cs, digits⟩ := List.exists_cons_of_ne_nil nonempty
  refine ⟨c, cs ++ '\t' :: List.intercalate ['\t'] i.columns.tail, ?_, ?_⟩
  · rw [toList_itemLine, ← List.cons_append, ← digits, ← Text.toList_toString]
    show List.intercalate ['\t'] ((toString i.seq.toNat).toList :: _ :: _) = _
    rw [List.intercalate_cons_cons, List.append_assoc]
    rfl
  · exact Text.isDigit_of_mem_toDigits (digits ▸ List.mem_cons_self)

/-- The characters of the lines of an item. -/
def lineChars (i : MissionItem) : List (List Char) := (itemLines i).map String.toList

theorem lineChars_eq (i : MissionItem) :
    lineChars i = (i.comment.filter (· ≠ "")).toList.map ('#' :: ' ' :: String.toList ·)
      ++ [(itemLine i).toList] := by
  have comment : String.toList ∘ ("# " ++ ·) = ('#' :: ' ' :: String.toList ·) := by
    funext c
    rw [Function.comp_apply, String.toList_append]
    rfl
  rw [lineChars, itemLines, List.map_append, List.map_map, comment]
  rfl

theorem isLine_of_mem_lineChars {i : MissionItem} (comment : i.HasLineComment) {l : List Char}
    (h : l ∈ lineChars i) : Text.IsLine l := by
  rw [lineChars_eq] at h
  rcases List.mem_append.1 h with above | own
  · obtain ⟨c, hc, rfl⟩ := List.mem_map.1 above
    obtain ⟨given, something⟩ := Option.filter_eq_some_iff.1 (Option.mem_toList.1 hc)
    obtain ⟨trimmed, unbroken⟩ := comment c given
    have bare : Text.trim c.toList = c.toList := by
      rw [← String.toList_ofList (l := Text.trim c.toList)]
      exact congrArg String.toList trimmed
    have nonempty : c.toList ≠ [] := by simpa using something
    refine .of_not_blank (by simpa using unbroken) ?_
    show ∀ d ∈ (['#', ' '] ++ c.toList).getLast?, Text.isBlank d = false
    rw [List.getLast?_append_of_ne_nil _ nonempty, ← bare]
    exact Text.isBlank_getLast?_trim c.toList
  · rw [List.mem_singleton.1 own, toList_itemLine]
    exact Text.isLine_intercalate (fun _ => MissionItem.isWord_of_mem_columns) (by decide)

theorem readItems_comment {c : String} (trimmed : Text.trimmed c = c) (line : Nat)
    (before : Option String) (rest : List (List Char)) :
    readItems .qgc110 line before (('#' :: ' ' :: c.toList) :: rest)
      = readItems .qgc110 (line + 1) (some c) rest := by
  rw [readItems, Text.trim_blank (by decide)]
  exact congrArg (fun kept => readItems .qgc110 (line + 1) (some kept) rest) trimmed

/-- The line of an item is read, with the comment that is kept for it. -/
theorem readItems_itemLine {f : Binary64 → Binary64} {i : MissionItem} (reads : i.ReadsAs f)
    (line : Nat) (comment : Option String) (rest : List (List Char)) :
    readItems .qgc110 line comment ((itemLine i).toList :: rest)
      = ({ i.mapDecimals f with comment } :: ·) <$> readItems .qgc110 (line + 1) none rest := by
  have bare : Text.trim (itemLine i).toList = (itemLine i).toList := by
    rw [toList_itemLine, Text.trim_intercalate fun _ => MissionItem.isWord_of_mem_columns]
  obtain ⟨c, cs, begun, digit⟩ := exists_itemLine i
  have nonempty : (itemLine i).toList ≠ [] := begun ▸ List.cons_ne_nil c cs
  rw [readItems, bare, if_neg nonempty]
  · simp only [Format.readItem, readItem110_itemLine reads]
    cases readItems .qgc110 (line + 1) none rest <;> rfl
  · intro text sign
    obtain ⟨rfl, -⟩ := List.cons.inj (begun.symm.trans sign)
    exact absurd digit (by decide)

/-- The lines of an item are read. -/
theorem readItems_lineChars {f : Binary64 → Binary64} {i : MissionItem} (reads : i.ReadsAs f)
    (comment : i.HasLineComment) (line : Nat) (rest : List (List Char)) :
    readItems .qgc110 line none (lineChars i ++ rest)
      = (i.reread f :: ·) <$> readItems .qgc110 (line + (lineChars i).length) none rest := by
  rw [lineChars_eq, MissionItem.reread]
  cases kept : i.comment.filter (· ≠ "") with
  | none => exact readItems_itemLine reads line none rest
  | some c =>
    obtain ⟨given, -⟩ := Option.filter_eq_some_iff.1 kept
    exact (readItems_comment (comment c given).1 line none _).trans
      (readItems_itemLine reads (line + 1) (some c) rest)

/-- All lines of a mission are read, with the comments where they were. -/
theorem readItems_flatMap {f : Binary64 → Binary64} {items : List MissionItem}
    (reads : ∀ i ∈ items, i.ReadsAs f) (comments : ∀ i ∈ items, i.HasLineComment) (line : Nat) :
    readItems .qgc110 line none (items.flatMap lineChars) = .ok (items.map (·.reread f)) := by
  induction items generalizing line with
  | nil => rfl
  | cons i items ih =>
    obtain ⟨first, others⟩ := List.forall_mem_cons.1 reads
    obtain ⟨own, after⟩ := List.forall_mem_cons.1 comments
    rw [List.flatMap_cons, readItems_lineChars first own, ih others after]
    rfl

/-! ## Files -/

theorem toList_write (m : Mission) : m.write.toList
    = (Format.qgc110.header.toList :: m.items.flatMap lineChars).flatMap (· ++ ['\n']) := by
  have chars : Format.qgc110.header.toList :: m.items.flatMap lineChars
      = (Format.qgc110.header :: m.items.flatMap itemLines).map String.toList := by
    rw [List.map_cons, List.map_flatMap]
    rfl
  rw [chars, write, String.toList_join, List.flatMap_map, List.flatMap_map]
  simp only [String.toList_append]
  rfl

theorem lines_write {m : Mission} (comments : ∀ i ∈ m.items, i.HasLineComment) :
    Text.lines m.write.toList = Format.qgc110.header.toList :: m.items.flatMap lineChars := by
  have each : ∀ l ∈ Format.qgc110.header.toList :: m.items.flatMap lineChars, Text.IsLine l := by
    refine List.forall_mem_cons.2 ⟨⟨by decide, by decide⟩, fun l hl => ?_⟩
    obtain ⟨i, hi, own⟩ := List.mem_flatMap.1 hl
    exact isLine_of_mem_lineChars (comments i hi) own
  rw [toList_write, Text.lines_flatMap each]

/-- **A mission file is read as it is written**, but for the decimals, which are read as they
are written, and for empty comments, which are not written. -/
theorem read_write {f : Binary64 → Binary64} {m : Mission} (reads : ∀ i ∈ m.items, i.ReadsAs f)
    (comments : ∀ i ∈ m.items, i.HasLineComment) :
    read m.write = .ok ((empty .mission).addAll (withHome (m.items.map (·.reread f)))) := by
  have header : Format.ofHeader? (String.ofList (Text.trim Format.qgc110.header.toList))
      = some .qgc110 := by decide
  simp only [read, lines_write comments, List.headD_cons, header, List.tail_cons,
    readItems_flatMap reads comments]
  rfl

/-- A first item that has a command stays as it is. -/
theorem withHome_eq_self {items : List MissionItem}
    (home : ∀ i ∈ items.head?, i.command ≠ 0) : withHome items = items := by
  cases items with
  | nil => rfl
  | cons i items => rw [withHome, if_neg fun bare => home i rfl bare.2]

/-- The file of a numbered mission is read as the mission, if nothing that it holds is lost in
writing or changed in reading. -/
theorem read_write_of_numbered {m : Mission} (type : m.type = .mission) (numbers : m.Numbered)
    (home : ∀ i ∈ m.items.head?, i.command ≠ 0)
    (comments : ∀ i ∈ m.items, i.HasLineComment ∧ i.comment ≠ some "")
    (decimals : ∀ i ∈ m.items, i.ReadsAs id) : read m.write = .ok m := by
  have same : m.items.map (·.reread id) = m.items :=
    (List.map_congr_left fun i hi => MissionItem.reread_id (comments i hi).2).trans
      (List.map_id m.items)
  rw [read_write decimals fun i hi => (comments i hi).1, same, withHome_eq_self home, ← type,
    numbers.addAll_empty]

/-- **Mission files round trip.**  Whatever is done to a mission that begins empty, if its first
item has a command, each of its comments is a line of text with no blanks around it, and writing
changes none of its decimals, then the file that is written is read as the same mission: the same
items in the same order, with their numbers and with their comments where they were. -/
theorem read_write_edited (edits : List Edit)
    (home : ∀ i ∈ ((empty .mission).edited edits).items.head?, i.command ≠ 0)
    (comments : ∀ i ∈ ((empty .mission).edited edits).items, ∀ c ∈ i.comment,
      c ≠ "" ∧ Text.trimmed c = c ∧ '\n' ∉ c.toList)
    (decimals : ∀ i ∈ ((empty .mission).edited edits).items, ∀ x ∈ i.decimals,
      Decimal.read? (Decimal.fixed 6 x).toList = some x) :
    read ((empty .mission).edited edits).write = .ok ((empty .mission).edited edits) := by
  have written (i : MissionItem) (hi : i ∈ ((empty .mission).edited edits).items) :
      i.HasLineComment ∧ i.comment ≠ some "" :=
    ⟨fun c hc => (comments i hi c hc).2, fun nothing => (comments i hi "" nothing).1 rfl⟩
  exact read_write_of_numbered (type_edited _ edits) ((numbered_empty .mission).edited edits) home
    written decimals

/-- A mission with a comment that looks like a comment of a line of columns, and with an item that
was brought in and taken out again. -/
theorem read_write_inserted :
    let edits : List Edit := [
      .add { command := Command.takeoff, z := .ofInt 10, comment := some "# 1\t2" },
      .insert 0 { command := Command.land },
      .insert 0 { command := Command.waypoint, x := .ofInt (-1) },
      .remove 1]
    let m := (empty .mission).edited edits
    (∀ i ∈ m.items.head?, i.command ≠ 0) ∧ m.items.map (·.seq) = [0, 1] ∧
      m.items.map (·.comment) = [none, some "# 1\t2"] ∧ read m.write = .ok m := by
  intro edits m
  have home : ∀ i ∈ m.items.head?, i.command ≠ 0 := by decide +kernel
  have comments : ∀ i ∈ m.items, ∀ c ∈ i.comment,
      c ≠ "" ∧ Text.trimmed c = c ∧ '\n' ∉ c.toList := by decide +kernel
  have decimals : ∀ i ∈ m.items, ∀ x ∈ i.decimals,
      Decimal.read? (Decimal.fixed 6 x).toList = some x := by decide +kernel
  exact ⟨home, by decide +kernel, by decide +kernel, read_write_edited edits home comments decimals⟩

end Mission
end Mavlink
