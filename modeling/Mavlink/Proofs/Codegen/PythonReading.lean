import Mathlib
import Mavlink.Codegen.PythonText
import Mavlink.Proofs.Codegen.RustDeclarations

/-!
# Reading the text of a class

How deep a line of Python stands says what it belongs to, so lines are read here with the blanks at
their beginnings.  The reader takes a class apart: what is said about the message is passed over
up to the closing quotes and the constructor up to the empty line behind it; the constants, what
is packed and what is taken of the unpacked values are read, and everything around them has to be
as it stands in every class.

Names are not checked before they are printed, so a line is not cut at signs that a name may hold.
There is no capital letter in the identifier of a field, whatever its name is, and the first one in
an argument stands behind the identifier.

* `PythonCodec.readLines?`, `PythonCodec.read?` --- reads the lines, or the text, of a class;
* `packArgument?_argumentText`, `unpackSlot?_slotText` --- arguments and slots are read as they
  are written;
* `PythonModule.isSmall_identOf` --- identifiers of fields have no capital letters.
-/

namespace Mavlink.Codegen

/-- What the text of a class says about payloads: the constants, what is packed by the format and
what is taken of the values that are unpacked by it. -/
structure PythonCodec where
  ident : String
  id : Nat
  name : String
  fingerprint : Nat
  baseLength : Nat
  maxLength : Nat
  format : String
  arguments : List PackArgument
  slots : List (String × UnpackSlot)
  deriving DecidableEq

/-! ## The reader -/

/-- What stands in a line between two texts. -/
def inside? (before after : String) (line : List Char) : Option (List Char) := do
  let cs ← before.toList.isPrefixOf? line
  after.toList.isSuffixOf? cs

/-- Whether a character can stand in front of the first capital letter. -/
def isSmall (c : Char) : Bool := !c.isUpper

/-- An identifier, a name and a length, as they are given to what checks a length. -/
def checked? (cs : List Char) : Option (String × String × Nat) := do
  let front ← inside? "" ", self." (cs.takeWhile isSmall)
  let name ← inside? "NAME, \"" "\")," (cs.dropWhile isSmall)
  let ident ← inside? "" ", " (front.rdropWhile Char.isDigit)
  let length ← numberOf? (String.ofList (front.rtakeWhile Char.isDigit))
  return (String.ofList ident, String.ofList name, length)

/-- The argument of a line. -/
def packArgument? (line : List Char) : Option PackArgument :=
  match "_text(self.".toList.isPrefixOf? line with
  | some cs => (checked? cs).map fun (ident, name, length) => .text ident name length
  | none =>
    match "*_array(self.".toList.isPrefixOf? line with
    | some cs => (checked? cs).map fun (ident, name, length) => .each ident name length
    | none => (inside? "self." "," line).map fun ident => .number (String.ofList ident)

/-- The slot that an expression takes. -/
def slotOf? (cs : List Char) : Option UnpackSlot :=
  match wordsBetween? ["values[", "]"] cs with
  | some [index] => (numberOf? index).map .number
  | _ =>
    match wordsBetween?
      ["values[", "].split(b\"\\0\", 1)[0].decode(\"utf-8\", \"replace\")"] cs with
    | some [index] => (numberOf? index).map .text
    | _ =>
      match wordsBetween? ["list(values[", ":", "])"] cs with
      | some [first, stop] => do return .range (← numberOf? first) (← numberOf? stop)
      | _ => none

/-- The identifier and the slot of a line.  There is no other sign of equality behind the one that
separates them. -/
def unpackSlot? (line : List Char) : Option (String × UnpackSlot) := do
  let cs ← inside? "" "," line
  let ident ← inside? "" "=" (cs.rdropWhile (· ≠ '='))
  let slot ← slotOf? (cs.rtakeWhile (· ≠ '='))
  return (String.ofList ident, slot)

namespace LineReader

variable {α : Type}

/-- Reads a line with something between two texts. -/
def filled (before after : String) (read : List Char → Option α) : LineReader α := fun
  | [] => none
  | line :: lines => (inside? before after line >>= read).map (·, lines)

/-- Reads lines that are texts. -/
def exactly (texts : List String) : LineReader Unit := texts.forM fixed

/-- Passes over the lines up to the first that is a text, and over that. -/
def upTo (text : String) : LineReader Unit
  | [] => none
  | line :: lines => if line = text.toList then some ((), lines) else upTo text lines

/-- Reads the lines that begin with a margin. -/
def each (margin : String) (read : List Char → Option α) : LineReader (List α)
  | [] => some ([], [])
  | line :: lines =>
    match margin.toList.isPrefixOf? line with
    | none => some ([], line :: lines)
    | some cs => do
      let item ← read cs
      let (items, rest) ← each margin read lines
      return (item :: items, rest)

/-- Reads a line with a text between two others. -/
def text (before after : String) : LineReader String :=
  filled before after fun cs => some (String.ofList cs)

/-- Reads a line that is a number behind a text. -/
def decimal (before : String) : LineReader Nat := filled before "" (Text.digits? 10)

/-- Reads the method that packs. -/
def packing : LineReader (List PackArgument) := do
  exactly [
    "    def encode(self, version=2):",
    "        try:",
    "            payload = self._FORMAT.pack("]
  let arguments ← each "                " packArgument?
  exactly [
    "            )",
    "        except (struct.error, OverflowError) as err:",
    "            raise EncodeError(\"%s: %s\" % (self.NAME, err))",
    "        return _finish(self, payload, version)"]
  return arguments

/-- Reads the method that unpacks. -/
def unpacking : LineReader (List (String × UnpackSlot)) := do
  exactly [
    "    @classmethod",
    "    def decode(cls, payload, version=2):",
    "        values = cls._FORMAT.unpack(_prepare(cls, bytes(payload), version))",
    "        return cls("]
  let slots ← each "            " unpackSlot?
  exactly ["        )"]
  return slots

/-- Reads the methods that compare and show. -/
def comparison : LineReader Unit := exactly [
  "    def __eq__(self, other):",
  "        return isinstance(other, self.__class__) and self.__dict__ == other.__dict__",
  "",
  "    def __repr__(self):",
  "        fields = \", \".join(\"%s=%r\" % item for item in self.__dict__.items())",
  "        return \"%s(%s)\" % (self.__class__.__name__, fields)"]

/-- Reads a class and the empty lines in front of it. -/
def codec : LineReader PythonCodec := do
  exactly ["", ""]
  let ident ← text "class " ":"
  upTo "    \"\"\""
  fixed ""
  let id ← decimal "    ID = "
  let name ← text "    NAME = \"" "\""
  let fingerprint ← decimal "    CRC_EXTRA = "
  let baseLength ← decimal "    BASE_LEN = "
  let maxLength ← decimal "    MAX_LEN = "
  let format ← text "    _FORMAT = struct.Struct(\"" "\")"
  fixed ""
  upTo ""
  let arguments ← packing
  fixed ""
  let slots ← unpacking
  fixed ""
  comparison
  return { ident, id, name, fingerprint, baseLength, maxLength, format, arguments, slots }

end LineReader

/-- Reads lines that are a class and nothing else. -/
def PythonCodec.readLines? (lines : List String) : Option PythonCodec :=
  match LineReader.codec (lines.map (·.toList)) with
  | some (c, []) => some c
  | _ => none

/-- Reads a text that is a class and nothing else. -/
def PythonCodec.read? (text : String) : Option PythonCodec :=
  match LineReader.codec (text.toList.splitOn '\n') with
  | some (c, [[]]) => some c
  | _ => none

/-! ## Parts of a line -/

theorem inside?_append (before after : String) (cs : List Char) :
    inside? before after (before.toList ++ (cs ++ after.toList)) = some cs := by
  have front : before.toList.isPrefixOf? (before.toList ++ (cs ++ after.toList))
      = some (cs ++ after.toList) := List.isPrefixOf?_eq_some_iff_append_eq.2 rfl
  rw [inside?, front]
  exact List.isSuffixOf?_eq_some_iff_append_eq.2 rfl

theorem inside?_toList (before s after : String) :
    inside? before after (before ++ s ++ after).toList = some s.toList := by
  rw [← inside?_append before after, String.toList_append, String.toList_append, List.append_assoc]

/-- A list is cut in front of the last characters with a property. -/
theorem rtakeWhile_append {p : Char → Bool} (front : List Char) {back : List Char}
    (all : ∀ c ∈ back, p c = true) (stop : ∀ c ∈ front.getLast?, p c = false) :
    (front ++ back).rtakeWhile p = back ∧ (front ++ back).rdropWhile p = front := by
  obtain ⟨taken, dropped⟩ : (back.reverse ++ front.reverse).takeWhile p = back.reverse ∧
      (back.reverse ++ front.reverse).dropWhile p = front.reverse :=
    takeWhile_append (fun c hc => all c (List.mem_reverse.1 hc)) (by rwa [List.head?_reverse])
  rw [List.rtakeWhile, List.rdropWhile, List.reverse_append, taken, dropped]
  exact ⟨List.reverse_reverse back, List.reverse_reverse front⟩

theorem isSmall_of_isDigit {c : Char} (h : c.isDigit = true) : isSmall c = true := by
  obtain ⟨-, high⟩ : 0x30 ≤ c.toNat ∧ c.toNat ≤ 0x39 := by
    simpa [Char.isDigit, UInt32.le_iff_toNat_le] using h
  have below : ¬ c.isUpper = true := by
    intro capital
    have low : 0x41 ≤ c.toNat ∧ c.toNat ≤ 0x5A := by
      simpa [Char.isUpper, UInt32.le_iff_toNat_le] using capital
    omega
  rw [isSmall, Bool.eq_false_of_not_eq_true below, Bool.not_false]

/-- What is checked is read as it is written, if the identifier has no capital letter. -/
theorem checked?_toList {ident : String} (small : ∀ c ∈ ident.toList, isSmall c = true)
    (name : String) (n : Nat) :
    checked? (ident ++ ", " ++ toString n ++ ", self.NAME, \"" ++ name ++ "\"),").toList
      = some (ident, name, n) := by
  have digits : ∀ c ∈ (toString n).toList, c.isDigit = true := by
    rw [Text.toList_toString]
    exact fun _ => Text.isDigit_of_mem_toDigits
  have front : ∀ c ∈ (ident ++ ", " ++ toString n ++ ", self.").toList, isSmall c = true := by
    simp only [String.toList_append, List.forall_mem_append]
    exact ⟨⟨⟨small, List.all_eq_true.1 rfl⟩, fun c hc => isSmall_of_isDigit (digits c hc)⟩,
      List.all_eq_true.1 rfl⟩
  have shape : (ident ++ ", " ++ toString n ++ ", self.NAME, \"" ++ name ++ "\"),").toList
      = (ident ++ ", " ++ toString n ++ ", self.").toList
        ++ ("NAME, \"" ++ name ++ "\"),").toList := by simp
  have capital : ∀ c ∈ ("NAME, \"" ++ name ++ "\"),").toList.head?, isSmall c = false := by
    simp only [String.toList_append]
    exact fun c hc => by obtain rfl := Option.some.inj hc; rfl
  obtain ⟨taken, dropped⟩ := takeWhile_append front capital
  rw [← shape] at taken dropped
  have length : inside? "" ", self." (ident ++ ", " ++ toString n ++ ", self.").toList
      = some ((ident ++ ", ").toList ++ (toString n).toList) := by
    rw [← inside?_append "" ", self."]
    simp
  obtain ⟨number, rest⟩ := rtakeWhile_append (ident ++ ", ").toList digits (by simp)
  have alone : inside? "" ", " (ident ++ ", ").toList = some ident.toList := by
    rw [← inside?_append "" ", "]
    simp
  simp only [checked?, taken, dropped, length, inside?_toList, number, rest, alone,
    String.ofList_toList, numberOf?_toString, Option.bind_eq_bind, Option.bind_some,
    Option.pure_def]

/-! ## Arguments and slots -/

/-- The field of which an argument is a value. -/
def PackArgument.ident : PackArgument → String
  | number ident | text ident _ _ | each ident _ _ => ident

section ArgumentText

variable (ident name : String) (length : Nat)

theorem argumentText_number : PythonModule.argumentText (.number ident) = "self." ++ ident := rfl

theorem argumentText_text : PythonModule.argumentText (.text ident name length)
    = "_text(self." ++ ident ++ ", " ++ toString length ++ ", self.NAME, \"" ++ name ++ "\")" := rfl

theorem argumentText_each : PythonModule.argumentText (.each ident name length)
    = "*_array(self." ++ ident ++ ", " ++ toString length ++ ", self.NAME, \"" ++ name ++ "\")" :=
  rfl

end ArgumentText

theorem packArgument?_number (ident : String) :
    packArgument? ("self." ++ ident ++ ",").toList = some (.number ident) := by
  have text : "_text(self.".toList.isPrefixOf? ("self." ++ ident ++ ",").toList = none := by
    rw [String.toList_append, String.toList_append]
    rfl
  have array : "*_array(self.".toList.isPrefixOf? ("self." ++ ident ++ ",").toList = none := by
    rw [String.toList_append, String.toList_append]
    rfl
  rw [packArgument?, text]
  simp only [array, inside?_toList, Option.map_some, String.ofList_toList]

theorem packArgument?_text (cs : List Char) : packArgument? ("_text(self.".toList ++ cs)
    = (checked? cs).map fun (ident, name, length) => .text ident name length := by
  rw [packArgument?, List.isPrefixOf?_eq_some_iff_append_eq.2 rfl]

theorem packArgument?_array (cs : List Char) : packArgument? ("*_array(self.".toList ++ cs)
    = (checked? cs).map fun (ident, name, length) => .each ident name length := by
  have other : "_text(self.".toList.isPrefixOf? ("*_array(self.".toList ++ cs) = none := rfl
  rw [packArgument?, other]
  simp only [List.isPrefixOf?_eq_some_iff_append_eq.2 rfl]

/-- **An argument is read as it is written**, if its identifier has no capital letter. -/
theorem packArgument?_argumentText {a : PackArgument}
    (small : ∀ c ∈ a.ident.toList, isSmall c = true) :
    packArgument? (PythonModule.argumentText a ++ ",").toList = some a := by
  cases a with
  | number ident => rw [argumentText_number, packArgument?_number]
  | text ident name length =>
    have shape : (PythonModule.argumentText (.text ident name length) ++ ",").toList
        = "_text(self.".toList
          ++ (ident ++ ", " ++ toString length ++ ", self.NAME, \"" ++ name ++ "\"),").toList := by
      simp [argumentText_text]
    rw [shape, packArgument?_text, @checked?_toList ident small]
    rfl
  | each ident name length =>
    have shape : (PythonModule.argumentText (.each ident name length) ++ ",").toList
        = "*_array(self.".toList
          ++ (ident ++ ", " ++ toString length ++ ", self.NAME, \"" ++ name ++ "\"),").toList := by
      simp [argumentText_each]
    rw [shape, packArgument?_array, @checked?_toList ident small]
    rfl

section SlotText

variable (index first stop : Nat)

theorem slotText_number :
    PythonModule.slotText (.number index) = "values[" ++ toString index ++ "]" := rfl

theorem slotText_text : PythonModule.slotText (.text index) = "values[" ++ toString index
    ++ "].split(b\"\\0\", 1)[0].decode(\"utf-8\", \"replace\")" := rfl

theorem slotText_range : PythonModule.slotText (.range first stop)
    = "list(values[" ++ toString first ++ ":" ++ toString stop ++ "])" := rfl

end SlotText

theorem slotOf?_slotText (slot : UnpackSlot) :
    slotOf? (PythonModule.slotText slot).toList = some slot := by
  cases slot with
  | number index =>
    rw [slotText_number, slotOf?, wordsBetween?_one (isName_toString index) rfl]
    simp only [numberOf?_toString, Option.map_some]
  | text index =>
    -- Behind the bracket there is more.
    have other : wordsBetween? ["values[", "]"] ("values[" ++ toString index
        ++ "].split(b\"\\0\", 1)[0].decode(\"utf-8\", \"replace\")").toList = none := by
      rw [String.toList_append, String.toList_append, List.append_assoc,
        wordsBetween?_word _ _ _ (isName_toString index) rfl]
      rfl
    rw [slotText_text, slotOf?, other, wordsBetween?_one (isName_toString index) rfl]
    simp only [numberOf?_toString, Option.map_some]
  | range first stop =>
    have other (after : String) : wordsBetween? ["values[", after]
        ("list(values[" ++ toString first ++ ":" ++ toString stop ++ "])").toList = none := by
      simp only [String.toList_append]
      rfl
    rw [slotText_range, slotOf?, other, other,
      wordsBetween?_two (isName_toString first) (isName_toString stop) rfl rfl]
    simp only [numberOf?_toString]
    rfl

theorem equality_notMem_slotText (slot : UnpackSlot) :
    '=' ∉ (PythonModule.slotText slot).toList := by
  have digits (n : Nat) : '=' ∉ Nat.toDigits 10 n := by
    intro sign
    have digit := Text.isDigit_of_mem_toDigits sign
    cases digit
  cases slot with
  | number index => simp [slotText_number, digits]
  | text index => simp [slotText_text, digits]
  | range first stop => simp [slotText_range, digits]

/-- **A slot is read as it is written**, behind any identifier. -/
theorem unpackSlot?_slotText (ident : String) (slot : UnpackSlot) :
    unpackSlot? (ident ++ "=" ++ PythonModule.slotText slot ++ ",").toList
      = some (ident, slot) := by
  have expression : ∀ c ∈ (PythonModule.slotText slot).toList, decide (c ≠ '=') = true :=
    fun c hc => decide_eq_true fun same => equality_notMem_slotText slot (same ▸ hc)
  obtain ⟨behind, front⟩ := rtakeWhile_append (ident ++ "=").toList expression (by simp)
  have whole : inside? "" "," (ident ++ "=" ++ PythonModule.slotText slot ++ ",").toList
      = some ((ident ++ "=").toList ++ (PythonModule.slotText slot).toList) := by
    rw [← inside?_append "" ","]
    simp
  have alone : inside? "" "=" (ident ++ "=").toList = some ident.toList := by
    rw [← inside?_append "" "="]
    simp
  rw [unpackSlot?, whole]
  simp only [Option.bind_eq_bind, Option.bind_some, behind, front, alone, slotOf?_slotText,
    Option.pure_def, String.ofList_toList]

/-! ## Identifiers -/

theorem stays_small : Stays isSmall Text.CaseTable.lowerRuns := by decide +kernel

theorem isSmall_many : ∀ p ∈ Text.CaseTable.lowerMany, ∀ n ∈ p.2,
    isSmall (Char.ofNat n) = true := by decide +kernel

/-- Every capital letter has a small one. -/
theorem isSmall_of_unmoved {c : Char} (h : Text.moved? c.toNat Text.CaseTable.lowerRuns = none) :
    isSmall c = true := by
  have moved : ∀ n < 0x5B, 0x41 ≤ n → Text.moved? n Text.CaseTable.lowerRuns ≠ none := by
    decide +kernel
  by_contra capital
  have range : 0x41 ≤ c.toNat ∧ c.toNat ≤ 0x5A := by
    simpa [isSmall, Char.isUpper, UInt32.le_iff_toNat_le] using capital
  exact moved c.toNat (by omega) range.1 h

/-- There is no capital letter in an identifier of small letters. -/
theorem isSmall_snakeCase (name : String) : ∀ c ∈ (snakeCase name).toList, isSmall c = true := by
  have words : ∀ c ∈ List.intercalate ['_'] ((nameWords name).map Text.lower),
      isSmall c = true := by
    intro c hc
    rcases mem_of_mem_intercalate hc with underscore | ⟨l, hl, hc⟩
    · obtain rfl := List.mem_singleton.1 underscore
      rfl
    · obtain ⟨w, -, rfl⟩ := List.mem_map.1 hl
      exact stays_small.of_mem_lowerFrom isSmall_many (by decide)
        (fun _ _ => isSmall_of_unmoved) c hc
  unfold snakeCase identifier
  split
  · exact List.all_eq_true.1 rfl
  · split
    · rw [String.toList_ofList, List.forall_mem_cons]
      exact ⟨rfl, words⟩
    · rwa [String.toList_ofList]

theorem PythonModule.isSmall_identOf (name : String) :
    ∀ c ∈ (PythonModule.identOf name).toList, isSmall c = true := by
  have small := isSmall_snakeCase name
  unfold PythonModule.identOf escaped
  split
  · rw [String.toList_append, List.forall_mem_append]
    exact ⟨small, List.all_eq_true.1 rfl⟩
  · exact small

/-- An argument is known by the identifier of its field. -/
theorem PythonModule.ident_argumentOf (f : Field) :
    (PythonModule.argumentOf f).ident = PythonModule.identOf f.name := by
  unfold PythonModule.argumentOf
  split <;> rfl

/-! ## Lines -/

/-- Lines as they are read. -/
def charLines (lines : List String) : List (List Char) := lines.map (·.toList)

theorem charLines_append (a b : List String) : charLines (a ++ b) = charLines a ++ charLines b :=
  List.map_append

theorem charLines_cons (line : String) (lines : List String) :
    charLines (line :: lines) = line.toList :: charLines lines := rfl

namespace LineReader

theorem filled_toList {α : Type} {before s after : String} {read : List Char → Option α} {a : α}
    (h : read s.toList = some a) (rest : List (List Char)) :
    filled before after read ((before ++ s ++ after).toList :: rest) = some (a, rest) := by
  rw [filled, inside?_toList, Option.bind_eq_bind, Option.bind_some, h]
  rfl

theorem text_toList (before s after : String) (rest : List (List Char)) :
    text before after ((before ++ s ++ after).toList :: rest) = some (s, rest) :=
  filled_toList (by simp) rest

theorem decimal_toList (before : String) (n : Nat) (rest : List (List Char)) :
    decimal before ((before ++ toString n).toList :: rest) = some (n, rest) := by
  have line : before ++ toString n = before ++ toString n ++ "" := by simp
  rw [line]
  exact filled_toList (Text.digits?_toString n) rest

theorem fixed_toList (text : String) (rest : List (List Char)) :
    fixed text (text.toList :: rest) = some ((), rest) := if_pos rfl

theorem exactly_charLines (texts : List String) (rest : List (List Char)) :
    exactly texts (charLines texts ++ rest) = some ((), rest) := by
  induction texts with
  | nil => rfl
  | cons text texts ih => exact (bind_of_read (fixed_toList _ _)).trans ih

/-- Lines are passed over up to the first that is a text. -/
theorem upTo_append {text : String} {lines : List String} (none_of : text ∉ lines)
    (rest : List (List Char)) :
    upTo text (charLines lines ++ text.toList :: rest) = some ((), rest) := by
  induction lines with
  | nil => exact if_pos rfl
  | cons line lines ih =>
    have other : line.toList ≠ text.toList := fun same =>
      List.ne_of_not_mem_cons none_of (String.toList_inj.1 same).symm
    exact (if_neg other).trans (ih (List.not_mem_of_not_mem_cons none_of))

/-- The lines with a margin are read as they are written, up to a line without it. -/
theorem each_map {α : Type} {margin : String} {read : List Char → Option α} {write : α → String}
    {items : List α} (same : ∀ a ∈ items, read (write a).toList = some a) {rest : List (List Char)}
    (stop : ∀ line ∈ rest.head?, margin.toList.isPrefixOf? line = none) :
    each margin read (charLines (items.map (margin ++ write ·)) ++ rest) = some (items, rest) := by
  induction items with
  | nil =>
    cases rest with
    | nil => rfl
    | cons line rest =>
      show each margin read (line :: rest) = _
      rw [each, stop line rfl]
  | cons a items ih =>
    obtain ⟨first, others⟩ := List.forall_mem_cons.1 same
    have cut : margin.toList.isPrefixOf? (margin ++ write a).toList = some (write a).toList :=
      List.isPrefixOf?_eq_some_iff_append_eq.2 String.toList_append.symm
    rw [List.map_cons, charLines_cons, List.cons_append, each, cut]
    simp only [first, ih others, Option.bind_eq_bind, Option.bind_some, Option.pure_def]

end LineReader

end Mavlink.Codegen
