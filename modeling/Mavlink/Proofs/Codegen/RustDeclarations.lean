import Mathlib
import Mavlink.Proofs.Codegen.RustReading

/-!
# Reading the declaration of a structure

The statements and expressions of an implementation move the values of a structure, and what these
can be is said where the structure is declared: each field has a type there, and an array its
length.  Here is a reader of that part of the text.  It passes over what only describes the
structure, takes its identifier, and of the lines up to the closing bracket those that declare a
field.

What is said of a field stands in comments.  A description is printed line by line, but the units
are printed as they are, so a line feed in them ends the comment and what follows may look like a
field.  The fields of the message are read in any case, in their order.

* `RustDeclaration.read?` --- reads a text that is the declaration of a structure;
* `memberOf?_memberLine` --- a field is read as it is written;
* `exists_read?_structLines` --- and so are structures.
-/

namespace Mavlink

/-- Whether the names of a message and of its fields can be spelled as identifiers. -/
structure Message.HasNames (m : Message) : Prop where
  name : Codegen.IsName m.name
  fields : ∀ f ∈ m.fields, Codegen.IsName f.name

/-- Whether what is said of a field besides its description cannot end a comment: its units are on
one line, and its enumeration has a name. -/
structure Field.IsPlain (f : Field) : Prop where
  units : ∀ units ∈ f.units, '\n' ∉ units.toList
  enum : ∀ enum ∈ f.enum, Codegen.IsName enum

/-- A field of which neither units nor an enumeration are said. -/
theorem Field.IsPlain.of_none {f : Field} (units : f.units = none) (enum : f.enum = none) :
    f.IsPlain where
  units _ h := by
    rw [units] at h
    cases h
  enum _ h := by
    rw [enum] at h
    cases h

namespace Codegen

open RustModule

/-! ## The reader -/

/-- What the text of a structure declares: its identifier, and its fields with their types. -/
structure RustDeclaration where
  ident : String
  members : List (String × RustType)
  deriving DecidableEq

/-- The type that a word stands for. -/
def typeNamed? (s : String) : Option RustType :=
  if s = "String" then some .text else (typeOf? s).map .number

/-- The field that a line declares. -/
def memberOf? (line : List Char) : Option (String × RustType) :=
  match wordsBetween? ["pub ", ": ", ","] line with
  | some [ident, type] => do return (← identifierOf? ident, ← typeNamed? type)
  | _ =>
    match wordsBetween? ["pub ", ": [", "; ", "],"] line with
    | some [ident, type, length] => do
      return (← identifierOf? ident, .array (← typeOf? type) (← numberOf? length))
    | _ => none

/-- Whether a line only describes what follows it: a comment or an attribute. -/
def isRemark (line : List Char) : Bool :=
  "///".toList.isPrefixOf line || "#[".toList.isPrefixOf line

/-- Reads the line with which a structure begins, behind the lines that describe it. -/
def LineReader.heading : LineReader String
  | [] => none
  | line :: lines =>
    if isRemark line then heading lines
    else between "pub struct " " \x7b" identifierOf? (line :: lines)

/-- Reads a text that is the declaration of a structure. -/
def RustDeclaration.read? (text : String) : Option RustDeclaration :=
  match LineReader.heading ((text.toList.splitOn '\n').map bare) with
  | some (ident, lines) =>
    if ["\x7d".toList, []] <:+ lines then some ⟨ident, lines.filterMap memberOf?⟩ else none
  | none => none

/-! ## Fields -/

/-- The line that declares a field. -/
def memberLine (ident : String) (t : FieldType) : String := s!"pub {ident}: {typeText t},"

theorem memberOf?_number {ident : String} (h : IsIdentifier ident) (t : NumberType) :
    memberOf? ("pub " ++ ident ++ ": " ++ t.name ++ ",").toList = some (ident, .number t) := by
  have words : wordsBetween? ["pub ", ": ", ","] ("pub " ++ ident ++ ": " ++ t.name ++ ",").toList
      = some [ident, t.name] := wordsBetween?_two h.isName (isName_typeName t) rfl rfl
  have type : typeNamed? t.name = some (.number t) := by
    have other : t.name ≠ "String" := by cases t <;> decide
    rw [typeNamed?, if_neg other, typeOf?_name]
    rfl
  rw [memberOf?, words]
  simp only [type, identifierOf?_of_isIdentifier h]
  rfl

theorem memberOf?_text {ident : String} (h : IsIdentifier ident) :
    memberOf? ("pub " ++ ident ++ ": " ++ "String" ++ ",").toList = some (ident, .text) := by
  have string : IsName "String" := ⟨by decide, List.all_eq_true.1 rfl⟩
  have words : wordsBetween? ["pub ", ": ", ","]
      ("pub " ++ ident ++ ": " ++ "String" ++ ",").toList = some [ident, "String"] :=
    wordsBetween?_two h.isName string rfl rfl
  rw [memberOf?, words]
  simp only [identifierOf?_of_isIdentifier h]
  rfl

theorem memberOf?_array {ident : String} (h : IsIdentifier ident) (t : NumberType) (n : Nat) :
    memberOf? ("pub " ++ ident ++ ": [" ++ t.name ++ "; " ++ toString n ++ "],").toList
      = some (ident, .array t n) := by
  -- Behind the colon stands a bracket, where a word would have to begin.
  have other : wordsBetween? ["pub ", ": ", ","]
      ("pub " ++ ident ++ ": [" ++ t.name ++ "; " ++ toString n ++ "],").toList = none := by
    have cut : ("pub " ++ ident ++ ": [" ++ t.name ++ "; " ++ toString n ++ "],").toList
        = "pub ".toList ++ (ident.toList ++ (": [".toList ++
          (t.name ++ "; " ++ toString n ++ "],").toList)) := by
      simp only [String.toList_append, List.append_assoc]
    rw [cut, wordsBetween?_word _ _ _ h.isName rfl]
    rfl
  have words : wordsBetween? ["pub ", ": [", "; ", "],"]
      ("pub " ++ ident ++ ": [" ++ t.name ++ "; " ++ toString n ++ "],").toList
        = some [ident, t.name, toString n] :=
    wordsBetween?_three h.isName (isName_typeName t) (isName_toString n) rfl rfl rfl
  rw [memberOf?, other, words]
  simp only [typeOf?_name, numberOf?_toString, identifierOf?_of_isIdentifier h]
  rfl

theorem typeText_array {p : Primitive} (kind : p ≠ .char) (n : Nat) :
    typeText (.array p n) = "[" ++ p.number.name ++ "; " ++ toString n ++ "]" := by
  cases p <;> first | rfl | exact absurd rfl kind

/-- The line of a field is a word, another one, and what stands around them. -/
theorem memberLine_eq (ident : String) (t : FieldType) :
    memberLine ident t = "pub " ++ ident ++ ": " ++ typeText t ++ "," := by
  simp [memberLine, toString_string]

/-- **A field is read as it is written**, with the type that it has in the message. -/
theorem memberOf?_memberLine {ident : String} (h : IsIdentifier ident) (t : FieldType) :
    memberOf? (memberLine ident t).toList = some (ident, .ofField t) := by
  rw [memberLine_eq]
  cases t with
  | scalar p =>
    rw [typeText, RustType.ofField, memberOf?_number h]
  | array p n =>
    by_cases kind : p = .char
    · subst kind
      rw [typeText, RustType.ofField, memberOf?_text h]
    · have shape : "pub " ++ ident ++ ": " ++ ("[" ++ p.number.name ++ "; " ++ toString n ++ "]")
          ++ "," = "pub " ++ ident ++ ": [" ++ p.number.name ++ "; " ++ toString n ++ "]," := by
        simp [← String.toList_inj]
      rw [typeText_array kind, shape, memberOf?_array h, RustType.ofField_array kind]

/-- Only lines that begin like it declare a field. -/
theorem memberOf?_eq_none {line : List Char} (h : line.head? ≠ some 'p') :
    memberOf? line = none := by
  have cut : "pub ".toList.isPrefixOf? line = none := by
    cases line with
    | nil => rfl
    | cons c line =>
      have other : 'p' ≠ c := fun same => h (same ▸ rfl)
      show List.isPrefixOf? ['p', 'u', 'b', ' '] (c :: line) = none
      rw [List.isPrefixOf?, if_neg (by simpa using other)]
  simp only [memberOf?, wordsBetween?, cut]

/-! ## Comments -/

/-- A line of a comment. -/
structure IsComment (line : String) : Prop where
  marked : "///".toList <+: line.toList
  unbroken : '\n' ∉ line.toList

theorem IsComment.bare {line : String} (h : IsComment line) : bare line.toList = line.toList := by
  obtain ⟨rest, spelled⟩ := h.marked
  rw [← spelled]
  exact bare_of_head (by simp)

/-- A description is printed line by line. -/
theorem Unbroken.comment {mark : String} (h : '\n' ∉ mark.toList) (text : String) :
    Unbroken (comment mark text) := by
  intro line hline
  obtain ⟨l, hl, rfl⟩ := List.mem_map.1 hline
  have inside : '\n' ∉ Text.trim l := fun feed =>
    Text.feed_notMem_of_mem_lines hl (Text.mem_of_mem_trim feed)
  split
  · rw [String.toList_ofList]
    exact fun feed => h ((Text.trimEnd_isPrefix _).subset feed)
  · simpa [h] using inside

/-- A description becomes a comment, whatever is in it. -/
theorem isComment_of_mem_comment {text line : String} (h : line ∈ comment "/// " text) :
    IsComment line := by
  refine ⟨?_, Unbroken.comment (by decide) text line h⟩
  obtain ⟨l, -, rfl⟩ := List.mem_map.1 h
  split
  · decide
  · exact ⟨' ' :: Text.trim l, by simp⟩

/-- The paragraphs of a comment are a comment. -/
theorem isComment_of_mem_paragraphs {groups : List (List String)} {line : String}
    (each : ∀ group ∈ groups, ∀ line ∈ group, IsComment line)
    (h : line ∈ paragraphs "///" groups) : IsComment line := by
  rcases mem_of_mem_intercalate h with separator | ⟨group, hgroup, hline⟩
  · rw [List.mem_singleton.1 separator]
    exact ⟨by decide, by decide⟩
  · exact each group hgroup line hline

/-- What is printed of a description, if there is one. -/
theorem isComment_of_mem_description {description : Option String} :
    ∀ group ∈ (description.map (comment "/// ")).toList, ∀ line ∈ group, IsComment line := by
  intro group hgroup line hline
  obtain ⟨text, -, rfl⟩ := Option.map_eq_some_iff.1 (Option.mem_toList.1 hgroup)
  exact isComment_of_mem_comment hline

theorem isComment_of_mem_messageComment {m : Message} (name : IsName m.name) {line : String}
    (h : line ∈ messageComment m) : IsComment line := by
  refine isComment_of_mem_paragraphs (List.forall_mem_append.2
    ⟨List.forall_mem_append.2 ⟨isComment_of_mem_description, ?_⟩, ?_⟩) h
  · simp only [List.forall_mem_singleton]
    exact ⟨⟨_, by simp; rfl⟩, by simp [name.unbroken, unbroken_toDigits, toString_string]⟩
  · split
    · simp only [List.forall_mem_singleton]
      exact ⟨by decide, by decide⟩
    · exact fun _ h => absurd h List.not_mem_nil

theorem isComment_of_mem_fieldComment {f : Field} (plain : f.IsPlain) {line : String}
    (h : line ∈ fieldComment f) : IsComment line := by
  refine isComment_of_mem_paragraphs (List.forall_mem_append.2 ⟨List.forall_mem_append.2
    ⟨List.forall_mem_append.2 ⟨isComment_of_mem_description, ?_⟩, ?_⟩, ?_⟩) h
  · intro group hgroup
    obtain ⟨units, given, rfl⟩ := Option.map_eq_some_iff.1 (Option.mem_toList.1 hgroup)
    simp only [List.forall_mem_singleton]
    exact ⟨⟨_, by simp; rfl⟩, by simp [plain.units units given, toString_string]⟩
  · intro group hgroup
    obtain ⟨enum, given, rfl⟩ := Option.map_eq_some_iff.1 (Option.mem_toList.1 hgroup)
    have ident := (isIdentifier_identOf (plain.enum enum given)).isName.unbroken
    simp only [List.forall_mem_singleton]
    exact ⟨⟨_, by simp; rfl⟩, by simp [ident, toString_string]⟩
  · split
    · simp only [List.forall_mem_singleton]
      exact ⟨by decide, by decide⟩
    · exact fun _ h => absurd h List.not_mem_nil

/-- Comments declare nothing. -/
theorem filterMap_memberOf?_comment {lines : List String} (each : ∀ line ∈ lines, IsComment line) :
    (barePieces lines).filterMap memberOf? = [] := by
  rw [barePieces_of_unbroken fun line h => (each line h).unbroken, List.filterMap_eq_nil_iff]
  intro _ hl
  obtain ⟨line, hline, rfl⟩ := List.mem_map.1 hl
  have comment := each line hline
  obtain ⟨rest, spelled⟩ := comment.marked
  rw [comment.bare, ← spelled]
  exact memberOf?_eq_none (by simp)

/-! ## Structures -/

theorem map_bare_splitOn_blank (l : List Char) :
    ((' ' :: l).splitOn '\n').map bare = (l.splitOn '\n').map bare := by
  rw [List.splitOn_cons_eq_if_modifyHead, if_neg (by decide)]
  cases l.splitOn '\n' with
  | nil => rfl
  | cons first rest => rfl

theorem barePieces_indent (lines : List String) : barePieces (indent lines) = barePieces lines := by
  unfold barePieces indent
  rw [List.flatMap_map]
  refine List.flatMap_congr fun line _ => ?_
  split
  · next empty => rw [empty]
  · rw [String.toList_append]
    exact (map_bare_splitOn_blank _).trans ((map_bare_splitOn_blank _).trans
      ((map_bare_splitOn_blank _).trans (map_bare_splitOn_blank _)))

theorem barePieces_enclosed (first last : String) (lines : List String) :
    barePieces (enclosed first lines last)
      = barePieces [first] ++ barePieces lines ++ barePieces [last] := by
  rw [enclosed, barePieces_append, ← List.singleton_append, barePieces_append, barePieces_indent]

/-- The types that the fields of a structure are declared with. -/
def declaredTypes (m : Message) : List (String × RustType) :=
  m.fields.map fun f => (RustModule.identOf f.name, .ofField f.type)

/-- The lines of a field. -/
def fieldLines (f : Field) : List String :=
  fieldComment f ++ [memberLine (RustModule.identOf f.name) f.type]

theorem filterMap_memberOf?_fieldLines {f : Field} (name : IsName f.name) :
    (barePieces (fieldLines f)).filterMap memberOf?
      = (barePieces (fieldComment f)).filterMap memberOf?
        ++ [(RustModule.identOf f.name, .ofField f.type)] := by
  have ident := isIdentifier_identOf name
  have unbroken : Unbroken [memberLine (RustModule.identOf f.name) f.type] := by
    have type : '\n' ∉ (typeText f.type).toList := by
      rcases f.type_cases with ⟨p, type⟩ | ⟨n, type⟩ | ⟨p, n, type, kind⟩
      · simp [type, typeText, (isName_typeName _).unbroken]
      · simp [type, typeText]
      · simp [type, typeText_array kind, (isName_typeName _).unbroken, unbroken_toDigits]
    exact List.forall_mem_singleton.2 (by simp [memberLine_eq, ident.isName.unbroken, type])
  have head : bare (memberLine (RustModule.identOf f.name) f.type).toList
      = (memberLine (RustModule.identOf f.name) f.type).toList :=
    bare_of_head (by simp [memberLine_eq])
  rw [fieldLines, barePieces_append, List.filterMap_append, barePieces_of_unbroken unbroken,
    bareLines, List.map_singleton, head]
  exact congrArg _ (List.filterMap_cons_some (memberOf?_memberLine ident f.type))

/-- **The fields are found in their order** among the lines of a structure, and no others are, if
what is said of them cannot end a comment. -/
theorem filterMap_memberOf?_fields {fields : List Field} (names : ∀ f ∈ fields, IsName f.name) :
    (fields.map fun f => (RustModule.identOf f.name, RustType.ofField f.type)).Sublist
        ((barePieces (fields.flatMap fieldLines)).filterMap memberOf?) ∧
      ((∀ f ∈ fields, f.IsPlain) → (barePieces (fields.flatMap fieldLines)).filterMap memberOf?
        = fields.map fun f => (RustModule.identOf f.name, RustType.ofField f.type)) := by
  induction fields with
  | nil => exact ⟨.slnil, fun _ => rfl⟩
  | cons f fields ih =>
    obtain ⟨name, names⟩ := List.forall_mem_cons.1 names
    obtain ⟨found, only⟩ := ih names
    rw [List.flatMap_cons, barePieces_append, List.filterMap_append,
      filterMap_memberOf?_fieldLines name, List.append_assoc, List.map_cons]
    refine ⟨(found.cons_cons _).trans (List.sublist_append_right _ _), fun plain => ?_⟩
    obtain ⟨first, others⟩ := List.forall_mem_cons.1 plain
    rw [filterMap_memberOf?_comment fun _ => isComment_of_mem_fieldComment first, only others]
    rfl

theorem heading_remarks {remarks : List (List Char)} (only : ∀ line ∈ remarks, isRemark line = true)
    (lines : List (List Char)) :
    LineReader.heading (remarks ++ lines) = LineReader.heading lines := by
  induction remarks with
  | nil => rfl
  | cons line remarks ih =>
    obtain ⟨first, others⟩ := List.forall_mem_cons.1 only
    rw [List.cons_append, LineReader.heading, if_pos first, ih others]

/-- The lines of a structure of a message. -/
theorem structLines_structOf (m : Message) : structLines (structOf m)
    = messageComment m ++ ["#[derive(Clone, Debug, PartialEq)]"]
      ++ enclosed ("pub struct " ++ pascalCase m.name ++ " \x7b") (m.fields.flatMap fieldLines)
        "\x7d" := by
  have header : s!"pub struct {pascalCase m.name} \x7b"
      = "pub struct " ++ pascalCase m.name ++ " \x7b" := by
    simp [toString_string]
  rw [← header]
  simp only [structLines, structOf, List.flatMap_map]
  rfl

/-- **A structure is read as it is written**: its identifier, and its fields with their types. -/
theorem exists_read?_structLines {m : Message} (names : m.HasNames) :
    ∃ declaration, RustDeclaration.read? (unlines (structLines (structOf m))) = some declaration ∧
      declaration.ident = pascalCase m.name ∧
      (declaredTypes m).Sublist declaration.members ∧
      ((∀ f ∈ m.fields, f.IsPlain) → declaration.members = declaredTypes m) := by
  have ident := isIdentifier_pascalCase names.name
  have comments : Unbroken (messageComment m) :=
    fun line h => (isComment_of_mem_messageComment names.name h).unbroken
  have derive : Unbroken ["#[derive(Clone, Debug, PartialEq)]"] := by simp [Unbroken]
  have first : Unbroken ["pub struct " ++ pascalCase m.name ++ " \x7b"] :=
    List.forall_mem_singleton.2 (by simp [ident.isName.unbroken])
  have last : Unbroken ["\x7d"] := by simp [Unbroken]
  have remarks : ∀ line ∈ bareLines (messageComment m)
      ++ bareLines ["#[derive(Clone, Debug, PartialEq)]"], isRemark line = true := by
    refine List.forall_mem_append.2 ⟨fun _ hl => ?_, List.forall_mem_singleton.2 (by decide)⟩
    obtain ⟨line, hline, rfl⟩ := List.mem_map.1 hl
    have comment := isComment_of_mem_messageComment names.name hline
    rw [comment.bare, isRemark, List.isPrefixOf_iff_prefix.2 comment.marked, Bool.true_or]
  -- behind the remarks the structure begins
  have begun (rest : List (List Char)) : LineReader.heading
      (bareLines ["pub struct " ++ pascalCase m.name ++ " \x7b"] ++ rest)
        = some (pascalCase m.name, rest) := by
    have line : bare ("pub struct " ++ pascalCase m.name ++ " \x7b").toList
        = 'p' :: ("ub struct " ++ pascalCase m.name ++ " \x7b").toList := by
      rw [bare_of_head (by simp)]
      simp
    have other : ¬ isRemark (bare ("pub struct " ++ pascalCase m.name ++ " \x7b").toList) := by
      rw [line]
      exact Bool.false_ne_true
    exact (if_neg other).trans (LineReader.between_bare (by simp) ident.isName rfl
      (identifierOf?_of_isIdentifier ident) rest)
  obtain ⟨found, only⟩ := filterMap_memberOf?_fields names.fields
  have nothing : ["\x7d".toList, []].filterMap memberOf? = [] := rfl
  refine ⟨⟨pascalCase m.name, (barePieces (m.fields.flatMap fieldLines)).filterMap memberOf?⟩, ?_,
    rfl, found, only⟩
  rw [RustDeclaration.read?, map_bare_splitOn_unlines, structLines_structOf, barePieces_append,
    barePieces_append, barePieces_enclosed, barePieces_of_unbroken comments,
    barePieces_of_unbroken derive, barePieces_of_unbroken first, barePieces_of_unbroken last,
    List.append_assoc, heading_remarks remarks, List.append_assoc, List.append_assoc, begun]
  have ended : bareLines ["\x7d"] ++ [[]] = ["\x7d".toList, []] := rfl
  simp only [ended]
  rw [if_pos (List.suffix_append _ _), List.filterMap_append, nothing, List.append_nil]

end Codegen
end Mavlink
