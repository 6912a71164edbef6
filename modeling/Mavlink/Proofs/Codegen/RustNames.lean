import Mathlib
import Mavlink.Codegen.Target
import Mavlink.Proofs.Codegen.AsciiNames
import Mavlink.Proofs.Codegen.Scopes
import Mavlink.Proofs.Schema.EnumMerging
import Mavlink.Proofs.Schema.MessageMerging

/-!
# The names of a Rust module

A module names an imported item, an enumeration, a message, a constant or a field, and no name
may stand for two of these in one scope or be a word of the language.  The names that are
declared are checked.  The names that are imported are not, and of the words of the language one
is forgotten that begins with a capital letter.  Only structures are spelled like that, so it
comes down to how messages are named.

* `RustModule.Sound` --- what the names of a module have to be;
* `RustModule.render_eq_ok_iff` --- a module is rendered just if its declared names are distinct
  in every scope;
* `RustModule.imports_spec`, `RustModule.identOf_notMem`, `RustModule.upperSnakeCase_notMem` ---
  what cannot collide because of how names are spelled;
* `RustModule.sound_iff` --- the names of a module are sound just if it is rendered and no
  message is called like an imported item or like the forgotten word.
-/

namespace Mavlink

/-- Every name in a dialect is an ASCII identifier that begins with a letter. -/
structure Dialect.HasAsciiNames (d : Dialect) : Prop where
  enums : ∀ e ∈ d.enums.values, Codegen.IsAsciiName e.name
  entries : ∀ e ∈ d.enums.values, ∀ entry ∈ e.entries, Codegen.IsAsciiName entry.name
  messages : ∀ m ∈ d.messages.values, Codegen.IsAsciiName m.name
  fields : ∀ m ∈ d.messages.values, ∀ f ∈ m.fields, Codegen.IsAsciiName f.name

namespace Dialect

instance (d : Dialect) : Decidable d.HasAsciiNames :=
  decidable_of_iff (((∀ e ∈ d.enums.values, Codegen.IsAsciiName e.name) ∧
      ∀ e ∈ d.enums.values, ∀ entry ∈ e.entries, Codegen.IsAsciiName entry.name) ∧
    (∀ m ∈ d.messages.values, Codegen.IsAsciiName m.name) ∧
      ∀ m ∈ d.messages.values, ∀ f ∈ m.fields, Codegen.IsAsciiName f.name)
    ⟨fun h => ⟨h.1.1, h.1.2, h.2.1, h.2.2⟩, fun h => ⟨⟨h.1, h.2⟩, h.3, h.4⟩⟩

variable {name : String} {definitions : List (String × Definition)} {d : Dialect}

/-- No two messages of a dialect have one name. -/
theorem pairwise_message_names (made : ofDefinitions name definitions = .ok d) :
    d.messages.values.Pairwise fun a b => a.name ≠ b.name := by
  obtain ⟨t, merged, own⟩ := exists_mergeMessages_of_ofDefinitions made
  have holds := holds_of_mergeMessages merged
  rw [own]
  refine Dictionary.pairwise_values fun i j a b ha hb same => ?_
  obtain ⟨mem_a, rfl⟩ := holds.mem ha
  obtain ⟨mem_b, rfl⟩ := holds.mem hb
  exact (holds.consistent a mem_a b mem_b).2 same

/-- No two enumerations of a dialect have one name. -/
theorem pairwise_enum_names (made : ofDefinitions name definitions = .ok d) :
    d.enums.values.Pairwise fun a b => a.name ≠ b.name := by
  have collected := mergeEnums_of_ofDefinitions made
  rcases mergeEnums_outcome (enumElements definitions) with
    ⟨enums, same, holds⟩ | ⟨before, new, after, -, b, -, -, refused⟩
  · rw [collected] at same
    cases same
    refine Dictionary.pairwise_values fun i j a b ha hb same => ?_
    rw [← (holds.grown i a ha).1, ← (holds.grown j b hb).1, same]
  · rw [collected] at refused
    cases refused

end Dialect

namespace Codegen

namespace RustModule

/-! ## Names in a module -/

/-- The words of the language: those that are escaped, and one that is not. -/
def languageWords : List String := keywords ++ ["Self"]

/-- The words of a line that begin with a capital letter. -/
def capitalWords (line : String) : List String :=
  ((line.toList.splitOnP fun c => !c.isAlphanum).map String.ofList).filter beginsCapital

/-- The names that a module brings in from elsewhere.  They begin with capital letters, and the
modules that they come from do not. -/
def imports (m : RustModule) : List String := m.useLines.flatMap capitalWords

/-- The names that a module declares for everything that uses it. -/
def declared (m : RustModule) : List String :=
  reserved ++ m.enums.map (·.ident) ++ m.structs.map (·.ident)

/-- Every name in a module. -/
def identifiers (m : RustModule) : List String :=
  m.imports ++ m.declared ++ m.enums.flatMap (·.constants.map (·.ident))
    ++ m.structs.flatMap (·.members.map (·.ident))

/-- What the names of a module have to be: distinct in every scope, and no words of the
language. -/
structure Sound (m : RustModule) : Prop where
  outermost : (m.imports ++ m.declared).Nodup
  constants : ∀ e ∈ m.enums, (e.constants.map (·.ident)).Nodup
  members : ∀ s ∈ m.structs, (s.members.map (·.ident)).Nodup
  words : ∀ ident ∈ m.identifiers, ident ∉ languageWords

/-- The module of a dialect, whether or not names clash. -/
def drafted (d : Dialect) : RustModule :=
  ⟨d, d.enums.values.map enumOf, d.messages.values.map structOf⟩

/-- What is imported depends only on whether there are messages. -/
theorem imports_eq (m : RustModule) : m.imports =
    if m.structs = [] then ["CrcExtra", "CrcExtraLookup", "MessageId"]
    else ["DecodeError", "EncodeError", "CrcExtra", "CrcExtraLookup", "MavLinkVersion",
      "MavMessage", "MessageId", "Payload", "PayloadReader", "PayloadWriter"] := by
  unfold imports useLines
  split <;> decide +kernel

/-! ## What cannot collide -/

/-- What is imported is known beforehand: it does not collide with itself, with what every module
declares or with the language. -/
theorem imports_spec (m : RustModule) : m.imports.Nodup ∧ ∀ ident ∈ m.imports,
    beginsCapital ident = true ∧ ident ∉ reserved ∧ ident ∉ languageWords := by
  rw [imports_eq]
  split <;> decide +kernel

variable {s : String}

theorem beginsSmall_identOf (h : IsAsciiName s) : beginsSmall (identOf s) = true := by
  have begins := h.beginsSmall_snakeCase
  unfold identOf escaped
  split
  · obtain ⟨c, first, small⟩ := (Option.any_eq_true ..).1 begins
    rw [beginsSmall, String.toList_append, List.head?_append, first]
    exact small
  · exact begins

/-- **A keyword is escaped**: no keyword with an underscore is a keyword again. -/
theorem identOf_notMem (h : IsAsciiName s) : identOf s ∉ languageWords := by
  have no_keyword : identOf s ∉ keywords := by
    have escapes : ∀ word ∈ keywords, word ++ "_" ∉ keywords := by decide +kernel
    unfold identOf escaped
    split
    · next keyword => exact escapes _ keyword
    · next other => exact other
  rw [languageWords, List.mem_append, List.mem_singleton, not_or]
  exact ⟨no_keyword, ne_of_begins (beginsSmall_identOf h) (by decide)⟩

/-- Every word of the language has a small letter. -/
theorem upperSnakeCase_notMem (h : IsAsciiName s) : upperSnakeCase s ∉ languageWords := by
  have small : ∀ word ∈ languageWords, word.toList.any Char.isLower = true := by decide +kernel
  intro word
  obtain ⟨c, hc, lower⟩ := List.any_eq_true.1 (small _ word)
  rw [h.isLower_upperSnakeCase c hc] at lower
  cases lower

/-- Of the words of the language only one begins with a capital letter. -/
theorem pascalCase_mem_iff (h : IsAsciiName s) :
    pascalCase s ∈ languageWords ↔ pascalCase s = "Self" := by
  have small : ∀ word ∈ keywords, beginsSmall word = true := by decide +kernel
  rw [languageWords, List.mem_append, List.mem_singleton, or_iff_right]
  exact fun keyword => ne_of_begins (small _ keyword) h.beginsCapital_pascalCase rfl

/-! ## The scopes of a module -/

/-- The scopes of a module are the outermost one, one of each enumeration and one of each
structure. -/
theorem forall_scopes {m : RustModule} {p : List String → Prop} :
    (∀ ns ∈ scopesOf reserved m.declarations, p (ns.map (·.ident))) ↔
      p m.declared ∧ (∀ e ∈ m.enums, p (e.constants.map (·.ident))) ∧
        ∀ s ∈ m.structs, p (s.members.map (·.ident)) := by
  have outermost : (reserved.map (fun ident => (⟨ident, reservedSource⟩ : Naming))
      ++ m.declarations.map (·.naming)).map (·.ident) = m.declared := by
    simp [declarations, declared, Function.comp_def]
  rw [scopesOf, List.forall_mem_cons, outermost, List.forall_mem_map, declarations,
    List.forall_mem_append, List.forall_mem_map, List.forall_mem_map]
  simp only [List.map_map]
  rfl

section Dialect

variable {name : String} {definitions : List (String × Definition)} {d : Dialect}

theorem map_members_declarations (d : Dialect) : (drafted d).declarations.map (·.members) =
    (d.enums.values.map fun e =>
      e.entries.map fun entry => ⟨upperSnakeCase entry.name, entry.name⟩)
      ++ d.messages.values.map fun m =>
        m.fields.map fun f => ⟨identOf f.name, m.name ++ "." ++ f.name⟩ := by
  simp [declarations, drafted, enumOf, structOf, Function.comp_def]

theorem map_naming_declarations (d : Dialect) : (drafted d).declarations.map (·.naming) =
    (d.enums.values.map fun e => ⟨identOf e.name, e.name⟩)
      ++ d.messages.values.map fun m => ⟨pascalCase m.name, m.name⟩ := by
  simp [declarations, drafted, enumOf, structOf, Function.comp_def]

/-- **Names at the outermost level** are told apart by what they stand for, or else by how they
are spelled: an enumeration and a message can have one name but not one identifier, and neither
is spelled like an identifier of every module, even if it is called like the library. -/
theorem nodup_namings (made : Dialect.ofDefinitions name definitions = .ok d)
    (names : d.HasAsciiNames) :
    (reserved.map (fun ident => (⟨ident, reservedSource⟩ : Naming))
      ++ (drafted d).declarations.map (·.naming)).Nodup := by
  have enums : (d.enums.values.map fun e => (⟨identOf e.name, e.name⟩ : Naming)).Nodup :=
    Naming.nodup_map_of_sources (Dialect.pairwise_enum_names made)
  have structs : (d.messages.values.map fun m => (⟨pascalCase m.name, m.name⟩ : Naming)).Nodup :=
    Naming.nodup_map_of_sources (Dialect.pairwise_message_names made)
  have library : identOf reservedSource ∉ reserved ∧ pascalCase reservedSource ∉ reserved := by
    decide +kernel
  rw [map_naming_declarations, List.nodup_append, List.nodup_append]
  refine ⟨by decide, ⟨enums, structs, ?_⟩, ?_⟩
  · intro a ha b hb same
    obtain ⟨e, he, rfl⟩ := List.mem_map.1 ha
    obtain ⟨m, hm, rfl⟩ := List.mem_map.1 hb
    exact ne_of_begins (beginsSmall_identOf (names.enums e he))
      (names.messages m hm).beginsCapital_pascalCase (congrArg Naming.ident same)
  · intro a ha b hb same
    obtain ⟨ident, fixed, rfl⟩ := List.mem_map.1 ha
    rcases List.mem_append.1 hb with hb | hb
    · obtain ⟨e, -, rfl⟩ := List.mem_map.1 hb
      obtain ⟨rfl, source⟩ := Naming.mk.inj same
      exact library.1 (source ▸ fixed)
    · obtain ⟨m, -, rfl⟩ := List.mem_map.1 hb
      obtain ⟨rfl, source⟩ := Naming.mk.inj same
      exact library.2 (source ▸ fixed)

/-- In every scope the names are told apart: inside an enumeration by the entries, and inside a
structure by the fields. -/
theorem nodup_scopes (made : Dialect.ofDefinitions name definitions = .ok d)
    (names : d.HasAsciiNames) (entries : ∀ e ∈ d.enums.values, (e.entries.map (·.name)).Nodup) :
    ∀ ns ∈ scopesOf reserved (drafted d).declarations, ns.Nodup := by
  rw [scopesOf, List.forall_mem_cons, map_members_declarations, List.forall_mem_append,
    List.forall_mem_map, List.forall_mem_map]
  refine ⟨nodup_namings made names, fun e he => ?_, fun m _ => ?_⟩
  · exact Naming.nodup_map_of_sources (List.pairwise_map.1 (entries e he))
  · exact Naming.nodup_map_of_sources (m.of_sound.2.1.imp fun apart same =>
      apart (by simpa using same))

/-- What becomes of a dialect is what becomes of its names. -/
theorem render_eq (d : Dialect) : Target.rust.render d =
    (Scope.check backend reserved (drafted d).declarations).map fun _ =>
      ⟨d.name ++ Target.rust.suffix, (drafted d).text⟩ := by
  unfold Target.render ofDialect
  show (Except.map text (Scope.check backend reserved (drafted d).declarations >>= fun _ =>
    pure (drafted d)) >>= fun text => pure _) = _
  cases Scope.check backend reserved (drafted d).declarations <;> rfl

/-- A dialect is rendered, or two names of one scope clash, and the error is about them. -/
theorem render_outcome (d : Dialect) :
    Target.rust.render d = .ok ⟨d.name ++ Target.rust.suffix, (drafted d).text⟩ ∨
    ∃ ns ∈ scopesOf reserved (drafted d).declarations, ∃ a b, Naming.Clash ns a b ∧
      Target.rust.render d = .error (clashOf backend a b) := by
  rw [render_eq]
  exact (Scope.map_check_outcome (by decide) _ _).imp_left And.left

/-- **A dialect is rendered** just if in every scope the declared names are distinct. -/
theorem render_eq_ok_iff (made : Dialect.ofDefinitions name definitions = .ok d)
    (names : d.HasAsciiNames) (entries : ∀ e ∈ d.enums.values, (e.entries.map (·.name)).Nodup) :
    Target.rust.render d = .ok ⟨d.name ++ Target.rust.suffix, (drafted d).text⟩ ↔
      ∀ ns ∈ scopesOf reserved (drafted d).declarations, (ns.map (·.ident)).Nodup := by
  have different := nodup_scopes made names entries
  rw [render_eq, Scope.map_check_eq_ok_iff (by decide)]
  exact forall₂_congr fun ns mem => (Naming.nodup_ident_iff (different ns mem)).symm

/-! ## Sound names -/

theorem mem_declared_iff {ident : String} : ident ∈ (drafted d).declared ↔
    ident ∈ reserved ∨ (∃ e ∈ d.enums.values, identOf e.name = ident) ∨
      ∃ m ∈ d.messages.values, pascalCase m.name = ident := by
  simp [declared, drafted, enumOf, structOf]

/-- Only a structure can be called like what is imported. -/
theorem nodup_outermost_iff (names : d.HasAsciiNames) :
    ((drafted d).imports ++ (drafted d).declared).Nodup ↔ (drafted d).declared.Nodup ∧
      ∀ m ∈ d.messages.values, pascalCase m.name ∉ (drafted d).imports := by
  obtain ⟨distinct, fixed⟩ := imports_spec (drafted d)
  rw [List.nodup_append', and_iff_right distinct]
  refine and_congr_right fun _ => ?_
  constructor
  · intro disjoint m hm imported
    exact disjoint imported (mem_declared_iff.2 (.inr (.inr ⟨m, hm, rfl⟩)))
  · intro apart ident imported declared
    obtain ⟨capital, not_reserved, -⟩ := fixed ident imported
    rcases mem_declared_iff.1 declared with always | ⟨e, he, rfl⟩ | ⟨m, hm, rfl⟩
    · exact not_reserved always
    · exact ne_of_begins (beginsSmall_identOf (names.enums e he)) capital rfl
    · exact apart m hm imported

/-- Only a structure can be called like a word of the language. -/
theorem notMem_languageWords_iff (names : d.HasAsciiNames) :
    (∀ ident ∈ (drafted d).identifiers, ident ∉ languageWords) ↔
      ∀ m ∈ d.messages.values, pascalCase m.name ≠ "Self" := by
  simp only [identifiers, declared, drafted, enumOf, structOf, List.forall_mem_append,
    List.forall_mem_map, List.forall_mem_flatMap]
  constructor
  · rintro ⟨⟨⟨-, -, structs⟩, -⟩, -⟩ m hm same
    exact structs m hm ((pascalCase_mem_iff (names.messages m hm)).2 same)
  · intro structs
    refine ⟨⟨⟨?_, ⟨by decide, ?_⟩, ?_⟩, ?_⟩, ?_⟩
    · exact fun ident imported => ((imports_spec _).2 ident imported).2.2
    · exact fun e he => identOf_notMem (names.enums e he)
    · exact fun m hm word => structs m hm ((pascalCase_mem_iff (names.messages m hm)).1 word)
    · exact fun e he entry mem => upperSnakeCase_notMem (names.entries e he entry mem)
    · exact fun m hm f hf => identOf_notMem (names.fields m hm f hf)

theorem sound_drafted_iff (names : d.HasAsciiNames) :
    (drafted d).Sound ↔ ((drafted d).declared.Nodup ∧
      (∀ e ∈ (drafted d).enums, (e.constants.map (·.ident)).Nodup) ∧
      ∀ s ∈ (drafted d).structs, (s.members.map (·.ident)).Nodup) ∧
    ∀ m ∈ d.messages.values,
      pascalCase m.name ∉ (drafted d).imports ∧ pascalCase m.name ≠ "Self" := by
  have outermost := nodup_outermost_iff names
  have words := notMem_languageWords_iff names
  constructor
  · intro sound
    obtain ⟨declared, apart⟩ := outermost.1 sound.outermost
    have others := words.1 sound.words
    exact ⟨⟨declared, sound.constants, sound.members⟩, fun m hm => ⟨apart m hm, others m hm⟩⟩
  · rintro ⟨⟨declared, constants, members⟩, apart⟩
    exact ⟨outermost.2 ⟨declared, fun m hm => (apart m hm).1⟩, constants, members,
      words.2 fun m hm => (apart m hm).2⟩

/-- **The names of a module are sound** just if it is rendered and no message is called like an
imported item or like the word of the language that is not escaped.  It is rendered just if the
names that it declares are distinct in every scope.  Every error is about two names of one scope
that are spelled alike and stand for two things. -/
theorem sound_iff (made : Dialect.ofDefinitions name definitions = .ok d)
    (names : d.HasAsciiNames) (entries : ∀ e ∈ d.enums.values, (e.entries.map (·.name)).Nodup) :
    let module := drafted d
    let rendered := Target.rust.render d = .ok ⟨d.name ++ Target.rust.suffix, module.text⟩
    (module.Sound ↔ rendered ∧ ∀ m ∈ d.messages.values,
      pascalCase m.name ∉ module.imports ∧ pascalCase m.name ≠ "Self") ∧
    (rendered ↔ module.declared.Nodup ∧
      (∀ e ∈ module.enums, (e.constants.map (·.ident)).Nodup) ∧
      ∀ s ∈ module.structs, (s.members.map (·.ident)).Nodup) ∧
    (rendered ∨ ∃ ns ∈ scopesOf reserved module.declarations, ∃ a b, Naming.Clash ns a b ∧
      Target.rust.render d = .error (clashOf backend a b)) := by
  intro module rendered
  have accepted : rendered ↔ module.declared.Nodup ∧
      (∀ e ∈ module.enums, (e.constants.map (·.ident)).Nodup) ∧
      ∀ s ∈ module.structs, (s.members.map (·.ident)).Nodup :=
    (render_eq_ok_iff made names entries).trans forall_scopes
  refine ⟨?_, accepted, render_outcome d⟩
  rw [accepted]
  exact sound_drafted_iff names

end Dialect

/-- A message with a field that is called like a keyword. -/
def kind : Message where
  id := 1
  name := "KIND"
  description := none
  deprecated := false
  fields := [{ name := "type", type := .scalar .uint8, enum := some "KIND" }]
  sound := by decide

/-- A definition in which a message and an enumeration have one name. -/
def kinds : Definition where
  enums := [{ name := "KIND", entries := [{ value := 1, name := "TYPE" }] }]
  messages := [kind]

/-- Behind the ten imported names and the five of every module stand those of the definition. -/
theorem kinds_sound : ∃ d, Dialect.ofDefinitions "k" [("k.xml", kinds)] = .ok d ∧
    (drafted d).Sound ∧
    (drafted d).identifiers.drop 15 = ["kind", "Kind", "TYPE", "type_"] := by
  have computed : (Dialect.ofDefinitions "k" [("k.xml", kinds)]).map (fun d => decide
      (d.HasAsciiNames ∧ (∀ e ∈ d.enums.values, (e.entries.map (·.name)).Nodup) ∧
        (drafted d).declared.Nodup ∧
        (∀ e ∈ (drafted d).enums, (e.constants.map (·.ident)).Nodup) ∧
        (∀ s ∈ (drafted d).structs, (s.members.map (·.ident)).Nodup) ∧
        (∀ m ∈ d.messages.values,
          pascalCase m.name ∉ (drafted d).imports ∧ pascalCase m.name ≠ "Self") ∧
        (drafted d).identifiers.drop 15 = ["kind", "Kind", "TYPE", "type_"])) = .ok true := by
    decide +kernel
  obtain ⟨d, made, seen⟩ := exists_of_map_eq_ok computed
  obtain ⟨names, entries, declared, constants, members, apart, spelled⟩ := of_decide_eq_true seen
  obtain ⟨sound, rendered, -⟩ := sound_iff made names entries
  exact ⟨d, made, sound.2 ⟨rendered.2 ⟨declared, constants, members⟩, apart⟩, spelled⟩

/-! ## Names that are not refused -/

/-- A message of one field. -/
def titled (name : String) : Message where
  id := 1
  name := name
  description := none
  deprecated := false
  fields := [{ name := "a", type := .scalar .uint8 }]
  sound := rfl

/-- A dialect of one message that is rendered, with a property that can be seen. -/
theorem exists_rendered (message : String) (p : Dialect → Prop) [DecidablePred p]
    (computed : (Dialect.ofDefinitions "p" [("p.xml", { messages := [titled message] })]).map
      (fun d => decide (d.HasAsciiNames ∧
        (∀ e ∈ d.enums.values, (e.entries.map (·.name)).Nodup) ∧
        Scope.check backend reserved (drafted d).declarations = .ok () ∧ p d)) = .ok true) :
    ∃ d, Dialect.ofDefinitions "p" [("p.xml", { messages := [titled message] })] = .ok d ∧
      d.HasAsciiNames ∧ (∀ e ∈ d.enums.values, (e.entries.map (·.name)).Nodup) ∧
      Target.rust.render d = .ok ⟨d.name ++ Target.rust.suffix, (drafted d).text⟩ ∧ p d := by
  obtain ⟨d, made, seen⟩ := exists_of_map_eq_ok computed
  obtain ⟨names, entries, checked, seen⟩ := of_decide_eq_true seen
  refine ⟨d, made, names, entries, ?_, seen⟩
  rw [render_eq, checked]
  rfl

/-- A message that is called like an imported item is rendered, and so is one that is called like
the word that is not escaped. -/
theorem rendered_unsound :
    (∃ d, Dialect.ofDefinitions "p" [("p.xml", { messages := [titled "PAYLOAD"] })] = .ok d ∧
      d.HasAsciiNames ∧ (∀ e ∈ d.enums.values, (e.entries.map (·.name)).Nodup) ∧
      Target.rust.render d = .ok ⟨d.name ++ Target.rust.suffix, (drafted d).text⟩ ∧
      "Payload" ∈ (drafted d).imports ∧ (drafted d).structs.map (·.ident) = ["Payload"] ∧
      ¬ ((drafted d).imports ++ (drafted d).declared).Nodup) ∧
    ∃ d, Dialect.ofDefinitions "p" [("p.xml", { messages := [titled "SELF"] })] = .ok d ∧
      d.HasAsciiNames ∧ (∀ e ∈ d.enums.values, (e.entries.map (·.name)).Nodup) ∧
      Target.rust.render d = .ok ⟨d.name ++ Target.rust.suffix, (drafted d).text⟩ ∧
      "Self" ∈ (drafted d).identifiers ∧ "Self" ∈ languageWords :=
  ⟨exists_rendered "PAYLOAD" _ (by decide +kernel), exists_rendered "SELF" _ (by decide +kernel)⟩

end RustModule

end Codegen

end Mavlink
