import Mathlib
import Mavlink.Proofs.Codegen.PythonProgram
import Mavlink.Proofs.Codegen.PythonReading

/-!
# The text of a class is read as it is written

The documentation of a class is the one part of it that is written by others.  A description is
printed with its quotes escaped, so no line of it is the one that closes the documentation, and
what follows is read where it stands.  This holds whatever is in a description and whatever the
names are; if the names can be spelled as identifiers, the lines of a class are those that its text
is cut into.

* `PythonModule.isGuarded_documented` --- a description does not end its documentation;
* `LineReader.codec_classLines` --- a class is read, with any lines behind it;
* `PythonCodec.readLines?_classLines`, `PythonCodec.read?_classLines` --- so are its lines alone,
  and its text.
-/

namespace Mavlink.Codegen

/-! ## Documentation -/

namespace PythonModule

/-- Whether there is a backslash, or one more quote, in front of any three quotes. -/
def IsGuarded (cs : List Char) : Prop := ∀ before after, cs = before ++ '"' :: '"' :: '"' :: after →
  ∃ c ∈ before.getLast?, c = '\\' ∨ c = '"'

namespace IsGuarded

variable {cs : List Char}

theorem cons (h : IsGuarded cs) {x : Char} (other : ∀ r, x = '"' → cs ≠ '"' :: '"' :: r) :
    IsGuarded (x :: cs) := by
  intro before after whole
  cases before with
  | nil =>
    obtain ⟨quote, more⟩ := List.cons.inj whole
    exact absurd more (other after quote)
  | cons y before =>
    obtain ⟨c, hc, sign⟩ := h before after (List.cons.inj whole).2
    exact ⟨c, by simp [List.getLast?_cons, Option.mem_def.1 hc], sign⟩

theorem escaped (h : IsGuarded cs) : IsGuarded ('\\' :: '"' :: cs) := by
  intro before after whole
  rcases before with _ | ⟨x, _ | ⟨y, before⟩⟩
  · cases whole
  · exact ⟨x, rfl, .inl (List.cons.inj whole).1.symm⟩
  · obtain ⟨c, hc, sign⟩ := h before after (List.cons.inj (List.cons.inj whole).2).2
    exact ⟨c, by simp [List.getLast?_cons, Option.mem_def.1 hc], sign⟩

end IsGuarded

/-- A quote at the beginning of what is printed was one. -/
theorem exists_of_documented_eq {cs after : List Char} (h : documented cs = '"' :: after) :
    ∃ r, cs = '"' :: r ∧ documented r = after := by
  fun_induction documented cs with
  | case1 r => cases h
  | case2 r => cases h
  | case3 c r =>
    obtain ⟨rfl, rest⟩ := List.cons.inj h
    exact ⟨r, rfl, rest⟩
  | case4 => cases h

/-- **A description does not end the documentation** in which it stands: three quotes are
escaped. -/
theorem isGuarded_documented (cs : List Char) : IsGuarded (documented cs) := by
  fun_induction documented cs with
  | case1 r ih =>
    have other : '\\' ≠ '"' := by decide
    exact (ih.cons fun _ same => absurd same other).cons fun _ same => absurd same other
  | case2 r ih => exact ih.escaped.escaped.escaped
  | case3 c r slash quotes ih =>
    refine ih.cons fun after quote two => ?_
    obtain ⟨r', rfl, one⟩ := exists_of_documented_eq two
    obtain ⟨r'', rfl, -⟩ := exists_of_documented_eq one
    exact quotes r'' quote rfl
  | case4 => exact fun before after whole => absurd whole (by simp)

/-- No line of a description is the end of the documentation. -/
theorem quotes_notMem_comment (description : String) :
    "\"\"\"" ∉ comment "" (String.ofList (documented description.toList)) := by
  intro mem
  obtain ⟨l, hl, printed⟩ := List.mem_map.1 mem
  rw [String.toList_ofList] at hl
  obtain ⟨before, after, whole, last⟩ := Text.exists_eq_of_trim hl
  have quotes : Text.trim l = ['"', '"', '"'] := by
    revert printed
    cases Text.trim l with
    | nil => intro printed; exact absurd printed (by decide)
    | cons c cs => simp [← String.toList_inj]
  rw [quotes, List.append_assoc] at whole
  obtain ⟨c, hc, sign⟩ := isGuarded_documented _ before after whole
  have blank := last c hc
  rcases sign with rfl | rfl <;> cases blank

/-! ## Classes -/

theorem indent_append (a b : List String) : indent (a ++ b) = indent a ++ indent b :=
  List.map_append

theorem empty_notMem_indent {lines : List String} (h : "" ∉ lines) : "" ∉ indent lines := by
  intro mem
  obtain ⟨line, hline, same⟩ := List.mem_map.1 mem
  split at same
  · next empty => exact h (empty ▸ hline)
  · simp at same

end PythonModule

/-- The format of a class as it is spelled. -/
def PythonClass.formatLiteral (c : PythonClass) : String :=
  "<" ++ String.join (c.format.map PythonModule.formatText)

/-- What is read of the text of a class. -/
def PythonClass.codec (c : PythonClass) : PythonCodec where
  ident := c.ident
  id := c.message.id
  name := c.message.name
  fingerprint := c.message.fingerprint.toNat
  baseLength := c.message.baseLength
  maxLength := c.message.maxLength
  format := c.formatLiteral
  arguments := c.arguments
  slots := c.slots

namespace LineReader

open PythonModule

variable {c : PythonClass}

theorem packing_encodeLines (small : ∀ a ∈ c.arguments, ∀ ch ∈ a.ident.toList, isSmall ch = true)
    (rest : List (List Char)) :
    packing (charLines (indent (encodeLines c)) ++ rest) = some (c.arguments, rest) := by
  have lines : indent (encodeLines c) = [
      "    def encode(self, version=2):",
      "        try:",
      "            payload = self._FORMAT.pack("]
      ++ c.arguments.map (fun a => "                " ++ (argumentText a ++ ","))
      ++ ["            )",
        "        except (struct.error, OverflowError) as err:",
        "            raise EncodeError(\"%s: %s\" % (self.NAME, err))",
        "        return _finish(self, payload, version)"] := by
    have deeper (s : String) :
        "    " ++ ("    " ++ ("    " ++ ("    " ++ s))) = "                " ++ s := by
      simp only [← String.append_assoc]
      rfl
    simp [encodeLines, below, enclosed, indent, deeper]
  have arguments : ∀ a ∈ c.arguments, packArgument? (argumentText a ++ ",").toList = some a :=
    fun a ha => packArgument?_argumentText (small a ha)
  rw [lines]
  simp only [charLines_append, List.append_assoc]
  refine (bind_of_read (exactly_charLines _ _)).trans ?_
  refine (bind_of_read (each_map arguments ?_)).trans ?_
  · exact fun line hl => by obtain rfl := Option.some.inj hl; rfl
  · exact bind_of_read (exactly_charLines _ _)

theorem unpacking_decodeLines (rest : List (List Char)) :
    unpacking (charLines (indent (decodeLines c)) ++ rest) = some (c.slots, rest) := by
  have lines : indent (decodeLines c) = [
      "    @classmethod",
      "    def decode(cls, payload, version=2):",
      "        values = cls._FORMAT.unpack(_prepare(cls, bytes(payload), version))",
      "        return cls("]
      ++ c.slots.map (fun slot => "            " ++ (slot.1 ++ "=" ++ slotText slot.2 ++ ","))
      ++ ["        )"] := by
    have deeper (s : String) : "    " ++ ("    " ++ ("    " ++ s)) = "            " ++ s := by
      simp only [← String.append_assoc]
      rfl
    simp [decodeLines, below, enclosed, indent, deeper]
  have slots : ∀ slot ∈ c.slots,
      unpackSlot? (slot.1 ++ "=" ++ slotText slot.2 ++ ",").toList = some slot :=
    fun slot _ => unpackSlot?_slotText slot.1 slot.2
  rw [lines]
  simp only [charLines_append, List.append_assoc]
  refine (bind_of_read (exactly_charLines _ _)).trans ?_
  refine (bind_of_read (each_map slots ?_)).trans ?_
  · exact fun line hl => by obtain rfl := Option.some.inj hl; rfl
  · exact bind_of_read (exactly_charLines _ _)

theorem comparison_lines (rest : List (List Char)) :
    comparison (charLines (indent comparisonLines) ++ rest) = some ((), rest) := by
  have lines : indent comparisonLines = [
      "    def __eq__(self, other):",
      "        return isinstance(other, self.__class__) and self.__dict__ == other.__dict__",
      "",
      "    def __repr__(self):",
      "        fields = \", \".join(\"%s=%r\" % item for item in self.__dict__.items())",
      "        return \"%s(%s)\" % (self.__class__.__name__, fields)"] := by
    simp [comparisonLines, indent]
  rw [lines]
  exact exactly_charLines _ rest

/-- What is said about the message, up to the closing quotes. -/
def documentationLines (c : PythonClass) : List String :=
  s!"\"\"\"MAVLink message `{c.message.name}` (ID {c.message.id})." ::
    match c.message.description with
    | none => []
    | some description => "" :: comment "" (String.ofList (documented description.toList))

/-- The constants stand behind the documentation. -/
theorem constantLines_eq : indent (constantLines c) = indent (documentationLines c) ++ [
    "    \"\"\"",
    "",
    "    ID = " ++ toString c.message.id,
    "    NAME = \"" ++ c.message.name ++ "\"",
    "    CRC_EXTRA = " ++ toString c.message.fingerprint.toNat,
    "    BASE_LEN = " ++ toString c.message.baseLength,
    "    MAX_LEN = " ++ toString c.message.maxLength,
    "    _FORMAT = struct.Struct(\"" ++ c.formatLiteral ++ "\")"] := by
  have shape : constantLines c = documentationLines c ++ [
      "\"\"\"",
      "",
      s!"ID = {c.message.id}",
      s!"NAME = \"{c.message.name}\"",
      s!"CRC_EXTRA = {c.message.fingerprint.toNat}",
      s!"BASE_LEN = {c.message.baseLength}",
      s!"MAX_LEN = {c.message.maxLength}",
      s!"_FORMAT = struct.Struct(\"<{String.join (c.format.map formatText)}\")"] := rfl
  rw [shape, indent_append]
  simp [indent, toString_string, PythonClass.formatLiteral, ← String.append_assoc]

/-- The documentation ends with its closing quotes and not before. -/
theorem quotes_notMem_documentationLines : "    \"\"\"" ∉ indent (documentationLines c) := by
  intro mem
  obtain ⟨line, hline, same⟩ := List.mem_map.1 mem
  obtain rfl : line = "\"\"\"" := by
    split at same
    · simp at same
    · exact (String.append_right_inj "    ").1 same
  rcases List.mem_cons.1 hline with first | later
  · have signs := congrArg String.toList first
    simp [toString_string] at signs
  · split at later
    · cases later
    · next description given =>
      rcases List.mem_cons.1 later with empty | described
      · simp at empty
      · exact quotes_notMem_comment description described

/-- There is no empty line in the constructor. -/
theorem empty_notMem_constructorLines : "" ∉ indent (constructorLines c) := by
  refine empty_notMem_indent fun mem => ?_
  rcases List.mem_cons.1 mem with first | later
  · simp [toString_string] at first
  · refine empty_notMem_indent (fun mem => ?_) later
    obtain ⟨member, -, same⟩ := List.mem_map.1 mem
    unfold assignmentLine at same
    split at same <;> simp [toString_string] at same

/-- **A class is read as it is written**, whatever lines follow it. -/
theorem codec_classLines (small : ∀ a ∈ c.arguments, ∀ ch ∈ a.ident.toList, isSmall ch = true)
    (rest : List (List Char)) :
    codec (charLines (classLines c) ++ rest) = some (c.codec, rest) := by
  have header : s!"class {c.ident}:" = "class " ++ c.ident ++ ":" := by simp [toString_string]
  have lines : classLines c = ["", ""] ++ ("class " ++ c.ident ++ ":") ::
      (indent (constantLines c) ++ "" :: (indent (constructorLines c) ++ "" ::
        (indent (encodeLines c) ++ "" :: (indent (decodeLines c) ++ "" ::
          indent comparisonLines)))) := by
    have parts : List.intercalate [""] [constantLines c, constructorLines c, encodeLines c,
        decodeLines c, comparisonLines]
        = constantLines c ++ ([""] ++ (constructorLines c ++ ([""] ++ (encodeLines c ++ ([""]
          ++ (decodeLines c ++ ([""] ++ comparisonLines))))))) := by
      simp [List.intercalate_cons_cons, List.intercalate_singleton]
    rw [← header]
    unfold classLines below
    simp only [parts, indent_append]
    rfl
  rw [lines, constantLines_eq]
  simp only [charLines_append, charLines_cons, List.append_assoc, List.cons_append]
  refine (bind_of_read (exactly_charLines _ _)).trans ?_
  refine (bind_of_read (text_toList ..)).trans ?_
  refine (bind_of_read (upTo_append quotes_notMem_documentationLines _)).trans ?_
  refine (bind_of_read (fixed_toList _ _)).trans ?_
  refine (bind_of_read (decimal_toList ..)).trans ?_
  refine (bind_of_read (text_toList ..)).trans ?_
  refine (bind_of_read (decimal_toList ..)).trans ?_
  refine (bind_of_read (decimal_toList ..)).trans ?_
  refine (bind_of_read (decimal_toList ..)).trans ?_
  refine (bind_of_read (text_toList ..)).trans ?_
  refine (bind_of_read (fixed_toList _ _)).trans ?_
  refine (bind_of_read (upTo_append empty_notMem_constructorLines _)).trans ?_
  refine (bind_of_read (packing_encodeLines small _)).trans ?_
  refine (bind_of_read (fixed_toList _ _)).trans ?_
  refine (bind_of_read (unpacking_decodeLines _)).trans ?_
  refine (bind_of_read (fixed_toList _ _)).trans ?_
  exact bind_of_read (comparison_lines rest)

end LineReader

/-! ## Texts -/

/-- A text is cut into its lines again, with nothing behind the last. -/
theorem splitOn_unlines {lines : List String} (unbroken : Unbroken lines) :
    (unlines lines).toList.splitOn '\n' = charLines lines ++ [[]] := by
  induction lines with
  | nil => rfl
  | cons line lines ih =>
    obtain ⟨first, others⟩ := List.forall_mem_cons.1 unbroken
    rw [toList_unlines_cons, List.splitOn_append_cons_self, List.splitOn_eq_singleton first,
      ih others]
    rfl

namespace PythonModule

theorem unbroken_formatText (item : FormatItem) : '\n' ∉ (formatText item).toList := by
  have letter (t : NumberType) : '\n' ∉ (formatLetter t).toList := by cases t <;> decide
  cases item with
  | number t => exact letter t
  | numbers t n => simp [formatText, letter, unbroken_toDigits]
  | text n => simp [formatText, unbroken_toDigits]

variable {m : Message}

theorem unbroken_identOf {f : Field} (name : IsName f.name) : '\n' ∉ (identOf f.name).toList :=
  (isIdentifier_escaped (isIdentifier_snakeCase name)).isName.unbroken

theorem unbroken_constantLines {c : PythonClass} (name : IsName c.message.name) :
    Unbroken (constantLines c) := by
  have title := name.unbroken
  unfold constantLines
  refine .append (.append (List.forall_mem_singleton.2 ?_) ?_) ?_
  · simp [title, unbroken_toDigits, toString_string]
  · split
    · exact fun _ h => absurd h List.not_mem_nil
    · exact List.forall_mem_cons.2 ⟨by simp, Unbroken.comment (by simp) _⟩
  · simp [Unbroken, title, unbroken_formatText, unbroken_toDigits, toString_string]

theorem unbroken_constructorLines (names : m.HasNames) :
    Unbroken (constructorLines (classOf m)) := by
  have zero (p : Primitive) : '\n' ∉ (zeroLiteral p).toList := by
    unfold zeroLiteral
    split <;> simp
  have parameters : ∀ f ∈ m.fields, '\n' ∉ (parameterText ⟨identOf f.name, f⟩).toList := by
    intro f hf
    have ident := unbroken_identOf (names.fields f hf)
    unfold parameterText
    split <;> simp [ident, zero]
  refine .below ?_ ?_
  · simp only [toString_string, String.toList_append, String.toList_intercalate, List.mem_append,
      not_or]
    refine ⟨⟨by simp, fun feed => ?_⟩, by simp⟩
    rcases mem_of_mem_intercalate feed with separator | ⟨l, hl, feed⟩
    · simp at separator
    · obtain ⟨_, hp, rfl⟩ := List.mem_map.1 hl
      obtain ⟨member, hmember, rfl⟩ := List.mem_map.1 hp
      obtain ⟨f, hf, rfl⟩ := List.mem_map.1 hmember
      exact parameters f hf feed
  · intro line hline
    obtain ⟨member, hmember, rfl⟩ := List.mem_map.1 hline
    obtain ⟨f, hf, rfl⟩ := List.mem_map.1 hmember
    have ident := unbroken_identOf (names.fields f hf)
    unfold assignmentLine
    split <;> simp [ident, zero, unbroken_toDigits, toString_string]

theorem unbroken_encodeLines (names : m.HasNames) : Unbroken (encodeLines (classOf m)) := by
  have arguments : Unbroken ((classOf m).arguments.map (argumentText · ++ ",")) := by
    intro line hline
    obtain ⟨a, ha, rfl⟩ := List.mem_map.1 hline
    obtain ⟨f, hf, rfl⟩ := List.mem_map.1 ha
    have name := names.fields f (m.mem_wireFields.1 hf)
    have title := name.unbroken
    have ident := unbroken_identOf name
    rcases f.type_cases with ⟨p, type⟩ | ⟨n, type⟩ | ⟨p, n, type, kind⟩
    · simp [argumentOf, type, argumentText_number, ident]
    · simp [argumentOf, type, argumentText_text, ident, title, unbroken_toDigits]
    · simp [argumentOf_array type kind, argumentText_each, ident, title, unbroken_toDigits]
  have call : Unbroken (enclosed "payload = self._FORMAT.pack("
      ((classOf m).arguments.map (argumentText · ++ ",")) ")") :=
    .enclosed (feed_notMem_toList (by decide)) arguments (feed_notMem_toList (by decide))
  have after : Unbroken ["except (struct.error, OverflowError) as err:",
      "    raise EncodeError(\"%s: %s\" % (self.NAME, err))",
      "return _finish(self, payload, version)"] := by
    refine .of_chars ?_
    simp only [List.map_cons, List.map_nil]
    repeat rw [String.toList_ofList]
    decide
  exact .below (feed_notMem_toList (by decide))
    (.append (.below (feed_notMem_toList (by decide)) call) after)

theorem unbroken_decodeLines (names : m.HasNames) : Unbroken (decodeLines (classOf m)) := by
  have slots : Unbroken ((classOf m).slots.map fun slot =>
      slot.1 ++ "=" ++ slotText slot.2 ++ ",") := by
    intro line hline
    obtain ⟨⟨_, slot⟩, hslot, rfl⟩ := List.mem_map.1 hline
    obtain ⟨f, hf, rfl⟩ := exists_of_mem_slotsFrom hslot
    have ident := unbroken_identOf (names.fields f (m.mem_wireFields.1 hf))
    cases slot with
    | number index => simp [slotText_number, ident, unbroken_toDigits]
    | text index => simp [slotText_text, ident, unbroken_toDigits]
    | range first stop => simp [slotText_range, ident, unbroken_toDigits]
  have call : Unbroken (enclosed "return cls(" ((classOf m).slots.map fun slot =>
      slot.1 ++ "=" ++ slotText slot.2 ++ ",") ")") :=
    .enclosed (feed_notMem_toList (by decide)) slots (feed_notMem_toList (by decide))
  refine List.forall_mem_cons.2 ⟨feed_notMem_toList (by decide), ?_⟩
  refine Unbroken.below (feed_notMem_toList (by decide)) (List.forall_mem_cons.2 ⟨?_, call⟩)
  exact feed_notMem_toList (by decide)

theorem unbroken_classLines (names : m.HasNames) : Unbroken (classLines (classOf m)) := by
  have ident : '\n' ∉ (classOf m).ident.toList :=
    (isIdentifier_escaped (isIdentifier_pascalCase names.name)).isName.unbroken
  have header : '\n' ∉ (s!"class {(classOf m).ident}:").toList := by
    simp [ident, toString_string]
  have comparison : Unbroken comparisonLines := by
    refine .of_chars ?_
    simp only [comparisonLines, List.map_cons, List.map_nil]
    repeat rw [String.toList_ofList]
    decide
  refine .append (by simp [Unbroken]) (.below header fun line hline => ?_)
  rcases mem_of_mem_intercalate hline with empty | ⟨part, hpart, hline⟩
  · simp [List.mem_singleton.1 empty]
  · simp only [List.mem_cons, List.not_mem_nil, or_false] at hpart
    rcases hpart with rfl | rfl | rfl | rfl | rfl
    · exact unbroken_constantLines names.name line hline
    · exact unbroken_constructorLines names line hline
    · exact unbroken_encodeLines names line hline
    · exact unbroken_decodeLines names line hline
    · exact comparison line hline

end PythonModule

namespace PythonCodec

open PythonModule

variable (m : Message)

theorem isSmall_arguments :
    ∀ a ∈ (classOf m).arguments, ∀ c ∈ a.ident.toList, isSmall c = true := by
  intro a ha
  obtain ⟨f, -, rfl⟩ := List.mem_map.1 ha
  rw [ident_argumentOf]
  exact isSmall_identOf f.name

/-- **The lines of a class are read**, whatever the names in them are. -/
theorem readLines?_classLines : readLines? (classLines (classOf m)) = some (classOf m).codec := by
  have read := LineReader.codec_classLines (isSmall_arguments m) []
  rw [List.append_nil] at read
  rw [readLines?, ← charLines, read]

/-- **The text of a class is read**, if no name breaks a line. -/
theorem read?_classLines {m : Message} (names : m.HasNames) :
    read? (unlines (classLines (classOf m))) = some (classOf m).codec := by
  rw [read?, splitOn_unlines (unbroken_classLines names),
    LineReader.codec_classLines (isSmall_arguments m)]

end PythonCodec

end Mavlink.Codegen
