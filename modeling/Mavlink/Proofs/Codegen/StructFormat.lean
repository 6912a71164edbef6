import Mathlib
import Mavlink.Codegen.PythonText
import Mavlink.Proofs.Codegen.RustProgram
import Mavlink.Proofs.Text.Lines

/-!
# Formats of packed bytes

Python packs values into bytes by a format.  The sign at the beginning of a format says how wide
numbers are and which of their bytes goes first; here it is the sign for standard sizes, the
lowest byte first and nothing between the values.  A letter stands for a number of a type, and a
count before it is how often it is repeated.  The letter for bytes is the exception: it stands
for one value, and the count before it is how long that is.

* `StructItem.readFormat?` --- what a format says;
* `StructItem.placesFrom` --- where each value is;
* `StructItem.pack?`, `StructItem.unpack?` --- values into bytes and back;
* `StructItem.readFormat?_join` --- a format says what it was written for.
-/

namespace Mavlink.Codegen

/-- What one value is packed as: a number of a type, or bytes of a length. -/
inductive StructItem where
  | number (type : NumberType)
  | bytes (length : Nat)
  deriving DecidableEq

/-- A value that is packed or unpacked. -/
inductive StructValue where
  | number (n : RustNumber)
  | bytes (bytes : Bytes)
  deriving DecidableEq

namespace StructItem

/-! ## Formats -/

/-- The numbers that letters stand for, in standard sizes. -/
def numberOf? : Char → Option NumberType
  | 'b' => some .i8
  | 'B' => some .u8
  | 'h' => some .i16
  | 'H' => some .u16
  | 'i' | 'l' => some .i32
  | 'I' | 'L' => some .u32
  | 'q' => some .i64
  | 'Q' => some .u64
  | 'f' => some .f32
  | 'd' => some .f64
  | _ => none

/-- What a letter stands for with a count before it. -/
def itemsOf? (count : Nat) (letter : Char) : Option (List StructItem) :=
  if letter = 's' then some [.bytes count]
  else (numberOf? letter).map fun t => List.replicate count (.number t)

/-- Reads letters, each with or without a count.  `count` is what the digits before spell. -/
def readItems? (count : Option Nat) : List Char → Option (List StructItem)
  | [] => if count.isNone then some [] else none
  | c :: cs =>
    match Text.digit? 10 c with
    | some d => readItems? (some (count.getD 0 * 10 + d)) cs
    | none => do
      let items ← itemsOf? (count.getD 1) c
      let others ← readItems? none cs
      return items ++ others

/-- Reads a format of standard sizes, the lowest byte first. -/
def readFormat? (format : String) : Option (List StructItem) :=
  match format.toList with
  | '<' :: cs => readItems? none cs
  | _ => none

/-! ## Places -/

/-- The bytes of a value. -/
def size : StructItem → Nat
  | number t => t.size
  | bytes n => n

/-- The bytes of values. -/
def totalSize (items : List StructItem) : Nat := (items.map size).sum

/-- Values with the count of bytes before each.  There is nothing between them. -/
def placesFrom (offset : Nat) : List StructItem → List (Nat × StructItem)
  | [] => []
  | item :: items => (offset, item) :: placesFrom (offset + item.size) items

/-- The value at a place. -/
def valueAt (r : PayloadReader) : Nat × StructItem → StructValue
  | (offset, number t) => .number (.get t (r.skip offset))
  | (offset, bytes n) => .bytes ((r.skip offset).rest.take n)

/-- The values in bytes, of which there have to be as many as the format says. -/
def unpack? (items : List StructItem) (bytes : Bytes) : Option (List StructValue) :=
  if bytes.length = totalSize items then some ((placesFrom 0 items).map (valueAt ⟨bytes⟩))
  else none

/-- The bytes of a value.  A number has to be of the type; bytes are cut to the length, or get
zeros after them. -/
def packOne? : StructItem → StructValue → Option Bytes
  | number t, .number n => if n.type = t then some (Bytes.little t.size n.word) else none
  | bytes n, .bytes b => some (Bytes.extend (b.take n) n)
  | _, _ => none

/-- The bytes of values, of which there have to be as many as the format says. -/
def pack? : List StructItem → List StructValue → Option Bytes
  | [], [] => some []
  | item :: items, v :: vs => do
    let first ← item.packOne? v
    let others ← pack? items vs
    return first ++ others
  | _, _ => none

theorem placesFrom_append (offset : Nat) (a b : List StructItem) :
    placesFrom offset (a ++ b) = placesFrom offset a ++ placesFrom (offset + totalSize a) b := by
  induction a generalizing offset with
  | nil => rfl
  | cons item a ih =>
    rw [List.cons_append, placesFrom, ih, placesFrom, List.cons_append, totalSize, totalSize,
      List.map_cons, List.sum_cons, Nat.add_assoc]

theorem length_placesFrom (offset : Nat) (items : List StructItem) :
    (placesFrom offset items).length = items.length := by
  induction items generalizing offset with
  | nil => rfl
  | cons item items ih => rw [placesFrom, List.length_cons, ih, List.length_cons]

theorem totalSize_append (a b : List StructItem) :
    totalSize (a ++ b) = totalSize a + totalSize b := by
  rw [totalSize, List.map_append, List.sum_append, totalSize, totalSize]

/-- Numbers of one type are at regular places. -/
theorem placesFrom_replicate (offset n : Nat) (item : StructItem) :
    placesFrom offset (List.replicate n item)
      = (List.range n).map fun i => (offset + i * item.size, item) := by
  induction n generalizing offset with
  | zero => rfl
  | succ n ih =>
    rw [List.replicate_succ, placesFrom, ih, List.range_succ_eq_map, List.map_cons, List.map_map,
      Nat.zero_mul, Nat.add_zero]
    refine congrArg _ (List.map_congr_left fun i _ => ?_)
    rw [Function.comp_apply, Nat.succ_mul, Nat.add_assoc, Nat.add_comm item.size]

/-- Values are packed one after another. -/
theorem pack?_append {a : List StructItem} {vs : List StructValue} (same : vs.length = a.length)
    (b : List StructItem) (ws : List StructValue) :
    pack? (a ++ b) (vs ++ ws) = do
      let first ← pack? a vs
      let second ← pack? b ws
      return first ++ second := by
  induction a generalizing vs with
  | nil =>
    obtain rfl := List.length_eq_zero_iff.1 same
    cases packed : pack? b ws <;> simp [pack?, packed]
  | cons item a ih =>
    cases vs with
    | nil => cases same
    | cons v vs =>
      have others := ih (Nat.succ.inj same)
      rw [List.cons_append, List.cons_append, pack?, pack?, others]
      cases item.packOne? v with
      | none => rfl
      | some first =>
        cases pack? a vs with
        | none => rfl
        | some second => cases pack? b ws <;> simp

/-! ## Reading formats -/

theorem readItems?_digits {cs : List Char} (digits : ∀ c ∈ cs, c.isDigit = true) (acc : Nat)
    (rest : List Char) :
    readItems? (some acc) (cs ++ rest) = readItems? (some (Nat.ofDigitChars 10 cs acc)) rest := by
  induction cs generalizing acc with
  | nil => rfl
  | cons c cs ih =>
    obtain ⟨first, others⟩ := List.forall_mem_cons.1 digits
    rw [List.cons_append, readItems?, Text.digit?_of_isDigit first]
    simp only [ih others, Option.getD_some, Nat.mul_comm acc 10]
    rfl

/-- A count is read as it is written. -/
theorem readItems?_toString (n : Nat) (rest : List Char) :
    readItems? none ((toString n).toList ++ rest) = readItems? (some n) rest := by
  have digits : ∀ c ∈ Nat.toDigits 10 n, c.isDigit = true := fun _ => Text.isDigit_of_mem_toDigits
  have value : Nat.ofDigitChars 10 (Nat.toDigits 10 n) 0 = n :=
    Nat.ofDigitChars_toDigits (by decide) (by decide)
  have start : readItems? none (Nat.toDigits 10 n ++ rest)
      = readItems? (some 0) (Nat.toDigits 10 n ++ rest) := by
    cases written : Nat.toDigits 10 n with
    | nil => exact absurd written Nat.toDigits_ne_nil
    | cons c cs =>
      have first : c.isDigit = true := digits c (written ▸ List.mem_cons_self)
      rw [List.cons_append, readItems?, readItems?, Text.digit?_of_isDigit first]
      rfl
  rw [Text.toList_toString, start, readItems?_digits digits, value]

end StructItem

/-- What an item of a format stands for. -/
def FormatItem.items : FormatItem → List StructItem
  | number t => [.number t]
  | numbers t n => List.replicate n (.number t)
  | text n => [.bytes n]

namespace StructItem

open PythonModule

theorem readItems?_letter (count : Option Nat) (t : NumberType) (rest : List Char) :
    readItems? count ((formatLetter t).toList ++ rest)
      = (readItems? none rest).map (List.replicate (count.getD 1) (.number t) ++ ·) := by
  cases t <;> exact Option.map_eq_bind.symm

/-- An item is read as it is written. -/
theorem readItems?_formatText (item : FormatItem) (rest : List Char) :
    readItems? none ((formatText item).toList ++ rest)
      = (readItems? none rest).map (item.items ++ ·) := by
  cases item with
  | number t => exact readItems?_letter none t rest
  | numbers t n =>
    rw [formatText, String.toList_append, List.append_assoc, readItems?_toString,
      readItems?_letter]
    rfl
  | text n =>
    rw [formatText, String.toList_append, List.append_assoc, readItems?_toString]
    exact Option.map_eq_bind.symm

/-- **A format says what it was written for.** -/
theorem readFormat?_join (format : List FormatItem) :
    readFormat? ("<" ++ String.join (format.map formatText)) = some (format.flatMap (·.items)) := by
  have each : readItems? none (String.join (format.map formatText)).toList
      = some (format.flatMap (·.items)) := by
    induction format with
    | nil => rfl
    | cons item format ih =>
      rw [List.map_cons, String.join_cons, String.toList_append, readItems?_formatText, ih]
      rfl
  rw [← each, readFormat?, String.toList_append]
  rfl

end StructItem

end Mavlink.Codegen
