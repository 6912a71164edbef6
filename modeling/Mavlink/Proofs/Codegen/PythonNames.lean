import Mathlib
import Mavlink.Codegen.Target
import Mavlink.Proofs.Codegen.RustNames
import Mavlink.Proofs.Codegen.RustReading

/-!
# The names of a Python module

A Python module binds all its names at one level: what is in every module, a constant for each
entry of every enumeration, and a class for each message.  A name that is bound again stands for
the later thing, without a word.  The check of names is to prevent that, and it knows a thing by
its name in the definition.  So it does not see a name that is bound again when two things have
one name in the definition as well: two entries, or an entry and a message.

* `PythonModule.filterMap_boundBy` --- the names of a module are those that its text binds;
* `PythonModule.render_eq_ok_iff`, `PythonModule.render_outcome` --- a module is rendered just if
  no identifier of a scope stands for things with two names;
* `PythonModule.nodup_namings_iff` --- the things of a module that are told apart;
* `PythonModule.bound_once_iff` --- the names of a rendered module are bound once just if no
  entry is called like another entry, or like a message that is also spelled like it.
-/

namespace Mavlink.Codegen

open Naming

namespace PythonModule

/-! ## The names that a module binds -/

/-- The module of a dialect, whether or not names clash. -/
def drafted (d : Dialect) : PythonModule :=
  ⟨d, d.enums.values.map enumOf, d.messages.values.map classOf⟩

/-- The constants of all enumerations, in order. -/
def constants (m : PythonModule) : List PythonConstant := m.enums.flatMap (·.constants)

/-- The names that a module binds: those of every module, those of the constants of all
enumerations together, and those of the classes. -/
def names (m : PythonModule) : List String :=
  reserved ++ m.constants.map (·.ident) ++ m.classes.map (·.ident)

/-- The lines of a module. -/
def lines (m : PythonModule) : List String :=
  headLines m.dialect ++ m.enums.flatMap enumLines ++ m.classes.flatMap classLines
    ++ ["", ""] ++ m.tableLines "CRC_EXTRA" (fun c => toString c.message.fingerprint.toNat)
    ++ [""] ++ m.tableLines "MESSAGES" fun c => c.ident

theorem text_eq (m : PythonModule) : m.text = unlines m.lines := rfl

/-- The name at the beginning of a text, if there is one. -/
def nameAt (cs : List Char) : Option String :=
  match cs.takeWhile isNameChar with
  | [] => none
  | name => some (String.ofList name)

/-- The words that bind the name behind them. -/
def bindsNext (word : List Char) : Bool :=
  word == "import".toList || word == "class".toList || word == "def".toList

/-- The name that a line binds in its module: what it assigns, imports or defines.  A comment
binds nothing, nor does a line that is indented. -/
def boundBy (line : String) : Option String :=
  let word := line.toList.takeWhile (· ≠ ' ')
  let rest := line.toList.dropWhile (· ≠ ' ')
  if " = ".toList.isPrefixOf rest then nameAt word
  else if bindsNext word then nameAt (rest.drop 1)
  else none

/-! ## The names in the text -/

theorem nameAt_eq_none {cs : List Char} (h : ∀ c ∈ cs.head?, isNameChar c = false) :
    nameAt cs = none := by
  unfold nameAt
  cases cs with
  | nil => rfl
  | cons c cs =>
    have other : isNameChar c = false := h c rfl
    rw [List.takeWhile_cons, other]
    rfl

theorem nameAt_append {ident : String} (h : IsIdentifier ident) {rest : List Char}
    (stop : ∀ c ∈ rest.head?, isNameChar c = false) :
    nameAt (ident.toList ++ rest) = some ident := by
  have nothing : rest.takeWhile isNameChar = [] := by
    rw [← List.head?_eq_none_iff, List.head?_takeWhile, Option.filter_eq_none_iff]
    exact fun c first => by simp [stop c first]
  have word : (ident.toList ++ rest).takeWhile isNameChar = ident.toList := by
    rw [List.takeWhile_append_of_pos h.chars, nothing, List.append_nil]
  unfold nameAt
  rw [word]
  split
  · next empty => exact absurd empty h.isName.nonempty
  · rw [String.ofList_toList]

theorem any_isNameChar_of_bindsNext {word : List Char} (h : bindsNext word = true) :
    word.head?.any isNameChar = true := by
  simp only [bindsNext, Bool.or_eq_true, beq_iff_eq] at h
  obtain (rfl | rfl) | rfl := h <;> rfl

/-- A line binds nothing if it does not begin with a name. -/
theorem boundBy_eq_none {line : String} (h : ∀ c ∈ line.toList.head?, isNameChar c = false) :
    boundBy line = none := by
  unfold boundBy
  have first : ∀ c ∈ (line.toList.takeWhile (· ≠ ' ')).head?, isNameChar c = false := by
    intro c hc
    rw [List.head?_takeWhile] at hc
    exact h c (Option.eq_some_of_filter_eq_some hc)
  have other : ¬ bindsNext (line.toList.takeWhile (· ≠ ' ')) = true := by
    intro keyword
    obtain ⟨c, hc, name⟩ := (Option.any_eq_true ..).1 (any_isNameChar_of_bindsNext keyword)
    rw [first c hc] at name
    cases name
  simp only [nameAt_eq_none first, if_neg other, ite_self]

theorem boundBy_of_stops {line : String} (h : stops line.toList = true) : boundBy line = none := by
  refine boundBy_eq_none fun c first => ?_
  rw [stops, Option.mem_def.1 first] at h
  simpa using h

/-- Lines that are indented bind nothing. -/
theorem filterMap_boundBy_indent (lines : List String) : (indent lines).filterMap boundBy = [] := by
  refine List.filterMap_eq_nil_iff.2 fun line deeper => ?_
  obtain ⟨inner, -, rfl⟩ := List.mem_map.1 deeper
  split
  · exact boundBy_eq_none nofun
  · exact boundBy_of_stops (by rw [String.toList_append]; rfl)

/-- A line is cut behind its first word. -/
theorem boundBy_word {line : String} {word rest : List Char} (h : ∀ c ∈ word, c ≠ ' ')
    (cut : line.toList = word ++ ' ' :: rest) : boundBy line =
      if "= ".toList.isPrefixOf rest then nameAt word
      else if bindsNext word then nameAt rest
      else none := by
  have inside : ∀ c ∈ word, decide (c ≠ ' ') = true := fun c hc => decide_eq_true (h c hc)
  have first : (word ++ ' ' :: rest).takeWhile (· ≠ ' ') = word := by
    rw [List.takeWhile_append_of_pos inside]
    exact List.append_nil word
  have behind : (word ++ ' ' :: rest).dropWhile (· ≠ ' ') = ' ' :: rest := by
    rw [List.dropWhile_append_of_pos inside]
    rfl
  unfold boundBy
  rw [cut, first, behind]
  rfl

/-- An assignment binds what stands before the sign. -/
theorem boundBy_assignment {ident : String} (h : IsIdentifier ident) (value : String) :
    boundBy (ident ++ " = " ++ value) = some ident := by
  have plain : ∀ c ∈ ident.toList, c ≠ ' ' := by
    rintro c hc rfl
    exact absurd (h.chars _ hc) (by decide)
  have cut : (ident ++ " = " ++ value).toList
      = ident.toList ++ ' ' :: ("= ".toList ++ value.toList) := by simp
  have sign : "= ".toList.isPrefixOf ("= ".toList ++ value.toList) = true :=
    List.isPrefixOf_iff_prefix.2 (List.prefix_append _ _)
  have name : nameAt (ident.toList ++ []) = some ident := nameAt_append h nofun
  rw [boundBy_word plain cut, if_pos sign, ← name, List.append_nil]

/-- The first line of a class binds the name of the class. -/
theorem boundBy_class {ident : String} (h : IsIdentifier ident) :
    boundBy ("class " ++ ident ++ ":") = some ident := by
  have plain : ∀ c ∈ "class".toList, c ≠ ' ' := by simp
  have cut : ("class " ++ ident ++ ":").toList
      = "class".toList ++ ' ' :: (ident.toList ++ [':']) := by simp
  have name : nameAt (ident.toList ++ [':']) = some ident := nameAt_append h (by simp; rfl)
  have no_sign : ¬ "= ".toList.isPrefixOf (ident.toList ++ [':']) = true := by
    obtain ⟨⟨c, cs, spelled, -⟩, chars⟩ := h
    have name : isNameChar c = true := chars c (spelled ▸ List.mem_cons_self)
    have other : c ≠ '=' := by
      rintro rfl
      cases name
    simp [spelled, other.symm]
  rw [boundBy_word plain cut, if_neg no_sign, if_pos (by decide), name]

/-- The constants of an enumeration are bound under its comments. -/
theorem filterMap_boundBy_enumLines {e : PythonEnum}
    (named : ∀ c ∈ e.constants, IsIdentifier c.ident) :
    (enumLines e).filterMap boundBy = e.constants.map (·.ident) := by
  have marked (text : String) : boundBy ("# " ++ text) = none :=
    boundBy_of_stops (by rw [String.toList_append]; rfl)
  have blank : boundBy "" = none := boundBy_eq_none nofun
  have title : boundBy s!"# {e.enum.name}" = none := marked e.enum.name
  have heading : ["", "", s!"# {e.enum.name}"].filterMap boundBy = [] := by
    rw [List.filterMap_cons_none blank, List.filterMap_cons_none blank,
      List.filterMap_cons_none title, List.filterMap_nil]
  have description : ((e.enum.description.map (comment "# ")).getD []).filterMap boundBy = [] := by
    cases e.enum.description with
    | none => rfl
    | some text =>
      refine List.filterMap_eq_nil_iff.2 fun line hline => ?_
      obtain ⟨l, -, rfl⟩ := List.mem_map.1 hline
      split
      · exact boundBy_of_stops rfl
      · exact marked _
  have assignments : (e.constants.map fun c => s!"{c.ident} = {c.entry.value}").filterMap boundBy
      = e.constants.map (·.ident) := by
    rw [List.filterMap_map, ← List.filterMap_eq_map]
    exact List.filterMap_congr fun c hc => boundBy_assignment (named c hc) _
  rw [enumLines, List.filterMap_append, List.filterMap_append, heading, description]
  exact assignments

/-- A class binds its name, and nothing in it binds another. -/
theorem filterMap_boundBy_classLines {c : PythonClass} (named : IsIdentifier c.ident) :
    (classLines c).filterMap boundBy = [c.ident] := by
  have first : boundBy s!"class {c.ident}:" = some c.ident := boundBy_class named
  have blank : boundBy "" = none := boundBy_eq_none nofun
  rw [classLines, List.filterMap_append, below, List.filterMap_cons_some first,
    filterMap_boundBy_indent, List.filterMap_cons_none blank, List.filterMap_cons_none blank]
  rfl

/-- A table binds its name. -/
theorem filterMap_boundBy_tableLines (m : PythonModule) {name : String}
    (named : IsIdentifier name) (value : PythonClass → String) :
    (m.tableLines name value).filterMap boundBy = [name] := by
  have first : boundBy (name ++ " = \x7b") = some name := by
    have spelled : name ++ " = \x7b" = name ++ " = " ++ "\x7b" := by rw [String.append_assoc]; rfl
    rw [spelled, boundBy_assignment named]
  have last : boundBy "\x7d" = none := boundBy_of_stops rfl
  rw [tableLines, enclosed, List.filterMap_append, List.filterMap_cons_some first,
    filterMap_boundBy_indent, List.filterMap_cons_none last]
  rfl

/-- The name that the characters of a line bind. -/
def boundIn (cs : List Char) : Option String :=
  let word := cs.takeWhile (· ≠ ' ')
  let rest := cs.dropWhile (· ≠ ' ')
  if " = ".toList.isPrefixOf rest then nameAt word
  else if bindsNext word then nameAt (rest.drop 1)
  else none

/-- What the classes share binds a name for each thing that it defines. -/
theorem filterMap_boundBy_sharedLines :
    (["", "Generated by mavkit. Do not edit.", "\"\"\"", ""] ++ sharedLines ++ ["", ""]).filterMap
      boundBy = ["struct", "EncodeError", "DecodeError", "_truncate", "_finish", "_prepare",
        "_text", "_array"] := by
  have chars : boundBy = boundIn ∘ String.toList := rfl
  rw [chars, ← List.filterMap_map]
  simp only [sharedLines, List.cons_append, List.nil_append, List.map_cons, List.map_nil]
  -- the characters of a line are named before anything is evaluated: a string is made of bytes
  repeat rw [String.toList_ofList]
  decide +kernel

/-- The names that are bound before the first enumeration. -/
theorem filterMap_boundBy_headLines (d : Dialect) : (headLines d).filterMap boundBy =
    ["struct", "EncodeError", "DecodeError", "_truncate", "_finish", "_prepare", "_text",
      "_array", "DIALECT_NAME"] := by
  have title : boundBy s!"\"\"\"MAVLink dialect `{d.name}`." = none :=
    boundBy_of_stops (by rw [String.append_assoc, String.toList_append]; rfl)
  have dialect : boundBy s!"DIALECT_NAME = \"{d.name}\"" = some "DIALECT_NAME" := by
    have spelled : s!"DIALECT_NAME = \"{d.name}\"" = "DIALECT_NAME" ++ " = "
        ++ ("\"" ++ d.name ++ "\"") := by
      rw [← String.toList_inj]
      simp [toString_string]
    rw [spelled, boundBy_assignment ⟨⟨'D', _, rfl, rfl⟩, List.all_eq_true.1 rfl⟩]
  have cut : headLines d = s!"\"\"\"MAVLink dialect `{d.name}`."
      :: (["", "Generated by mavkit. Do not edit.", "\"\"\"", ""] ++ sharedLines ++ ["", ""]
        ++ [s!"DIALECT_NAME = \"{d.name}\""]) := by
    rw [List.append_assoc (_ ++ sharedLines)]
    rfl
  rw [cut, List.filterMap_cons_none title, List.filterMap_append, filterMap_boundBy_sharedLines,
    List.filterMap_cons_some dialect]
  rfl

/-- **The names of a module are those that its text binds**, each as often. -/
theorem filterMap_boundBy {m : PythonModule} (constants : ∀ c ∈ m.constants, IsIdentifier c.ident)
    (classes : ∀ c ∈ m.classes, IsIdentifier c.ident) :
    (m.lines.filterMap boundBy).Perm m.names := by
  have blank : boundBy "" = none := boundBy_eq_none nofun
  have enums : (m.enums.flatMap enumLines).filterMap boundBy = m.constants.map (·.ident) := by
    rw [PythonModule.constants, List.map_flatMap, List.filterMap_flatMap]
    exact List.flatMap_congr fun e he => filterMap_boundBy_enumLines fun c hc =>
      constants c (List.mem_flatMap.2 ⟨e, he, hc⟩)
  have own : (m.classes.flatMap classLines).filterMap boundBy = m.classes.map (·.ident) := by
    rw [List.filterMap_flatMap, List.map_eq_flatMap]
    exact List.flatMap_congr fun c hc => filterMap_boundBy_classLines (classes c hc)
  have table {name : String} (value : PythonClass → String) (named : IsIdentifier name) :=
    filterMap_boundBy_tableLines m named value
  have order : ["struct", "EncodeError", "DecodeError", "_truncate", "_finish", "_prepare",
      "_text", "_array", "DIALECT_NAME", "CRC_EXTRA", "MESSAGES"].Perm reserved := by decide
  have fingerprints : IsIdentifier "CRC_EXTRA" :=
    ⟨⟨'C', _, rfl, rfl⟩, List.all_eq_true.1 rfl⟩
  have messages : IsIdentifier "MESSAGES" := ⟨⟨'M', _, rfl, rfl⟩, List.all_eq_true.1 rfl⟩
  simp only [lines, List.filterMap_append, filterMap_boundBy_headLines, enums, own,
    table _ fingerprints, table _ messages, List.filterMap_cons_none blank, List.filterMap_nil]
  rw [names, List.append_assoc reserved]
  refine .trans ?_ (order.append_right _)
  simp only [List.append_nil, List.append_assoc, List.cons_append, List.nil_append,
    List.perm_cons]
  rw [← List.append_assoc]
  exact List.perm_append_comm

/-! ## The scopes of a module -/

section Dialect

variable {name : String} {definitions : List (String × Definition)} {d : Dialect}

/-- The names at the outermost level and what they stand for. -/
def namings (d : Dialect) : List Naming :=
  reserved.map (fun ident => ⟨ident, reservedSource⟩)
    ++ (((d.enums.values.flatMap (·.entries)).map fun e => ⟨upperSnakeCase e.name, e.name⟩)
      ++ d.messages.values.map fun m => ⟨escaped keywords (pascalCase m.name), m.name⟩)

theorem scopesOf_drafted (d : Dialect) : scopesOf reserved (drafted d).declarations =
    namings d :: (drafted d).declarations.map (·.members) := by
  have outside : (drafted d).declarations.map (·.naming)
      = ((d.enums.values.flatMap (·.entries)).map fun e => ⟨upperSnakeCase e.name, e.name⟩)
        ++ d.messages.values.map fun m => ⟨escaped keywords (pascalCase m.name), m.name⟩ := by
    simp [declarations, drafted, enumOf, classOf, Function.comp_def, List.flatMap_map,
      List.map_flatMap]
  rw [scopesOf, outside, namings]

theorem map_ident_namings (d : Dialect) : (namings d).map (·.ident) = (drafted d).names := by
  simp [namings, names, constants, drafted, enumOf, classOf, Function.comp_def, List.flatMap_map,
    List.map_flatMap]

/-- No entry of an enumeration is called like another entry of any enumeration, or like a message
that is also spelled like it. -/
structure EntriesApart (d : Dialect) : Prop where
  entries : ((d.enums.values.flatMap (·.entries)).map (·.name)).Nodup
  messages : ∀ e ∈ d.enums.values, ∀ entry ∈ e.entries, ∀ m ∈ d.messages.values,
    entry.name = m.name → upperSnakeCase entry.name ≠ escaped keywords (pascalCase m.name)

instance (d : Dialect) : Decidable (EntriesApart d) :=
  decidable_of_iff (((d.enums.values.flatMap (·.entries)).map (·.name)).Nodup ∧
      ∀ e ∈ d.enums.values, ∀ entry ∈ e.entries, ∀ m ∈ d.messages.values, entry.name = m.name →
        upperSnakeCase entry.name ≠ escaped keywords (pascalCase m.name))
    ⟨fun h => ⟨h.1, h.2⟩, fun h => ⟨h.1, h.2⟩⟩

/-- **What is told apart.**  The things of a module are told apart just if its entries are: a
message is told apart from another by its name, and what is in every module by how it is
spelled. -/
theorem nodup_namings_iff (made : Dialect.ofDefinitions name definitions = .ok d) :
    (namings d).Nodup ↔ EntriesApart d := by
  have classes : (d.messages.values.map fun m =>
      (⟨escaped keywords (pascalCase m.name), m.name⟩ : Naming)).Nodup :=
    nodup_map_of_sources (Dialect.pairwise_message_names made)
  have library : upperSnakeCase reservedSource ∉ reserved ∧
      escaped keywords (pascalCase reservedSource) ∉ reserved := by decide +kernel
  have fixed : (reserved.map fun ident => (⟨ident, reservedSource⟩ : Naming)).Nodup := by decide
  unfold namings
  rw [List.nodup_append, List.nodup_append, and_iff_right fixed, and_iff_right classes]
  constructor
  · rintro ⟨⟨entries, apart⟩, -⟩
    refine ⟨List.pairwise_map.2 (List.pairwise_map.1 entries |>.imp fun other same => ?_), ?_⟩
    · exact other (by rw [same])
    · intro e he entry hentry m hm same spelled
      exact apart _ (List.mem_map_of_mem (List.mem_flatMap.2 ⟨e, he, hentry⟩)) _
        (List.mem_map_of_mem hm) (by rw [spelled, same])
  · intro h
    refine ⟨⟨nodup_map_of_sources (List.pairwise_map.1 h.entries), ?_⟩, ?_⟩
    · intro a ha b hb same
      obtain ⟨entry, listed, rfl⟩ := List.mem_map.1 ha
      obtain ⟨e, he, hentry⟩ := List.mem_flatMap.1 listed
      obtain ⟨m, hm, rfl⟩ := List.mem_map.1 hb
      obtain ⟨spelled, source⟩ := Naming.mk.inj same
      exact h.messages e he entry hentry m hm source spelled
    · intro a ha b hb same
      obtain ⟨ident, always, rfl⟩ := List.mem_map.1 ha
      rcases List.mem_append.1 hb with hb | hb
      · obtain ⟨entry, -, rfl⟩ := List.mem_map.1 hb
        obtain ⟨rfl, source⟩ := Naming.mk.inj same
        exact library.1 (source ▸ always)
      · obtain ⟨m, -, rfl⟩ := List.mem_map.1 hb
        obtain ⟨rfl, source⟩ := Naming.mk.inj same
        exact library.2 (source ▸ always)

/-- What becomes of a dialect is what becomes of its names. -/
theorem render_eq (d : Dialect) : Target.python.render d =
    (Scope.check backend reserved (drafted d).declarations).map fun _ =>
      ⟨d.name ++ Target.python.suffix, (drafted d).text⟩ := by
  unfold Target.render ofDialect
  show (Except.map text (Scope.check backend reserved (drafted d).declarations >>= fun _ =>
    pure (drafted d)) >>= fun text => pure _) = _
  cases Scope.check backend reserved (drafted d).declarations <;> rfl

/-- **What becomes of a dialect.**  It is rendered, and no identifier of any scope stands for
things with two names; or two names of one scope clash, and the error is about them. -/
theorem render_outcome (d : Dialect) :
    (Target.python.render d = .ok ⟨d.name ++ Target.python.suffix, (drafted d).text⟩ ∧
      ∀ ns ∈ scopesOf reserved (drafted d).declarations, Unambiguous ns) ∨
    ∃ ns ∈ scopesOf reserved (drafted d).declarations, ∃ a b, Clash ns a b ∧
      Target.python.render d = .error (clashOf backend a b) := by
  rw [render_eq]
  exact Scope.map_check_outcome (by decide) _ _

/-- A dialect is rendered just if in no scope an identifier stands for things with two names. -/
theorem render_eq_ok_iff (d : Dialect) :
    Target.python.render d = .ok ⟨d.name ++ Target.python.suffix, (drafted d).text⟩ ↔
      ∀ ns ∈ scopesOf reserved (drafted d).declarations, Unambiguous ns := by
  rw [render_eq]
  exact Scope.map_check_eq_ok_iff (by decide)

/-- **The names of a module are bound once** just if no identifier stands for things with two
names, and entries are told apart by their names, also from the messages that are spelled like
them. -/
theorem nodup_names_iff (made : Dialect.ofDefinitions name definitions = .ok d) :
    (drafted d).names.Nodup ↔ Unambiguous (namings d) ∧ EntriesApart d := by
  rw [← map_ident_namings, ← nodup_namings_iff made]
  constructor
  · intro distinct
    have different : (namings d).Nodup := List.Nodup.of_map _ distinct
    exact ⟨(nodup_ident_iff different).1 distinct, different⟩
  · rintro ⟨unambiguous, different⟩
    exact (nodup_ident_iff different).2 unambiguous

/-- **What a rendered module binds.**  A dialect is rendered just if in no scope of its module an
identifier stands for things with two names; any error is about two such things of one scope.
The names of a rendered module are bound once just if, besides, no entry of an enumeration is
called like another entry of any enumeration, or like a message that is also spelled like it.
These are the names that the text binds. -/
theorem bound_once_iff (made : Dialect.ofDefinitions name definitions = .ok d) :
    let module := drafted d
    let rendered := Target.python.render d = .ok ⟨d.name ++ Target.python.suffix, module.text⟩
    (rendered → (module.names.Nodup ↔ EntriesApart d)) ∧
    (rendered ↔ ∀ ns ∈ scopesOf reserved module.declarations, Unambiguous ns) ∧
    (rendered ∨ ∃ ns ∈ scopesOf reserved module.declarations, ∃ a b, Clash ns a b ∧
      Target.python.render d = .error (clashOf backend a b)) ∧
    ((∀ c ∈ module.constants, IsIdentifier c.ident) →
      (∀ c ∈ module.classes, IsIdentifier c.ident) →
      module.text = unlines module.lines ∧ (module.lines.filterMap boundBy).Perm module.names) := by
  intro module rendered
  refine ⟨fun accepted => ?_, render_eq_ok_iff d, (render_outcome d).imp_left And.left,
    fun constants classes => ⟨text_eq module, filterMap_boundBy constants classes⟩⟩
  have outermost : namings d ∈ scopesOf reserved module.declarations :=
    scopesOf_drafted d ▸ List.mem_cons_self
  rw [nodup_names_iff made]
  exact and_iff_right ((render_eq_ok_iff d).1 accepted _ outermost)

end Dialect

/-- A definition with entries in two enumerations, one of them called like a message. -/
def modes : Definition where
  enums := [{ name := "KIND", entries := [{ value := 1, name := "AUTO" }] },
    { name := "MODE", entries := [{ value := 0, name := "IDLE" }, { value := 1, name := "KIND" }] }]
  messages := [RustModule.kind]

/-- Behind the eleven names of every module stand the entries of both enumerations and the
message, which is not spelled like the entry of its name. -/
theorem modes_bound_once : ∃ d, Dialect.ofDefinitions "m" [("m.xml", modes)] = .ok d ∧
    Target.python.render d = .ok ⟨d.name ++ Target.python.suffix, (drafted d).text⟩ ∧
    (drafted d).names.Nodup ∧
    (drafted d).names.drop 11 = ["AUTO", "IDLE", "KIND", "Kind"] := by
  have computed : (Dialect.ofDefinitions "m" [("m.xml", modes)]).map (fun d => decide
      (EntriesApart d ∧ Scope.check backend reserved (drafted d).declarations = .ok () ∧
        (drafted d).names.drop 11 = ["AUTO", "IDLE", "KIND", "Kind"])) = .ok true := by
    decide +kernel
  obtain ⟨d, made, seen⟩ := exists_of_map_eq_ok computed
  obtain ⟨apart, checked, spelled⟩ := of_decide_eq_true seen
  obtain ⟨once, rendered, -⟩ := bound_once_iff made
  have accepted := rendered.2 ((Scope.check_eq_ok_iff (by decide)).1 checked)
  exact ⟨d, made, accepted, (once accepted).2 apart, spelled⟩

/-! ## Names that are bound again -/

/-- Two enumerations with an entry of one name. -/
def levels : Definition where
  enums := [{ name := "A", entries := [{ value := 0, name := "X" }] },
    { name := "B", entries := [{ value := 1, name := "X" }] }]

/-- An enumeration with an entry that is called like a message. -/
def marks : Definition where
  enums := [{ name := "A", entries := [{ value := 0, name := "X" }] }]
  messages := [RustModule.titled "X"]

/-- A dialect that is rendered, with a property that can be seen. -/
theorem exists_rendered (definition : Definition) (p : Dialect → Prop) [DecidablePred p]
    (computed : (Dialect.ofDefinitions "p" [("p.xml", definition)]).map (fun d => decide
      (Scope.check backend reserved (drafted d).declarations = .ok () ∧ p d)) = .ok true) :
    ∃ d, Dialect.ofDefinitions "p" [("p.xml", definition)] = .ok d ∧
      Target.python.render d = .ok ⟨d.name ++ Target.python.suffix, (drafted d).text⟩ ∧ p d := by
  obtain ⟨d, made, seen⟩ := exists_of_map_eq_ok computed
  obtain ⟨checked, seen⟩ := of_decide_eq_true seen
  exact ⟨d, made, (render_eq_ok_iff d).2 ((Scope.check_eq_ok_iff (by decide)).1 checked), seen⟩

/-- A module is rendered in which a constant is bound again with another value, and so is one in
which a class takes the name of a constant. -/
theorem rendered_bound_again :
    (∃ d, Dialect.ofDefinitions "p" [("p.xml", levels)] = .ok d ∧
      Target.python.render d = .ok ⟨d.name ++ Target.python.suffix, (drafted d).text⟩ ∧
      (drafted d).constants.map (fun c => (c.ident, c.entry.value)) = [("X", 0), ("X", 1)] ∧
      ¬ (drafted d).names.Nodup) ∧
    ∃ d, Dialect.ofDefinitions "p" [("p.xml", marks)] = .ok d ∧
      Target.python.render d = .ok ⟨d.name ++ Target.python.suffix, (drafted d).text⟩ ∧
      (drafted d).constants.map (·.ident) = ["X"] ∧ (drafted d).classes.map (·.ident) = ["X"] ∧
      ¬ (drafted d).names.Nodup :=
  ⟨exists_rendered levels _ (by decide +kernel), exists_rendered marks _ (by decide +kernel)⟩

end PythonModule

end Mavlink.Codegen
