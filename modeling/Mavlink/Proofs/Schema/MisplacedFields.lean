import Mathlib
import Mavlink.Proofs.Schema.LayoutOrder
import Mavlink.Proofs.Schema.TreeReading

/-!
# Fields out of place

A field has its place directly in a message.  Elsewhere the reader takes no notice of it, as of
any element out of place: a definition file with a field in an element `extensions` that is not
empty, or in an element that means nothing, is not refused, and the message has the other fields
only.  This file says which fields those are, for whatever elements stand wherever they like, as
long as no message stands in another.

Nothing is assumed of the places of the other elements, so the reader may be anywhere and have
anything begun.  What settles the matter is that nothing in a message, deeper than its own
elements, changes what is known of its fields, but for what is said about them.

* `Keeps`, `keeps_run` --- what nothing out of place changes, and that nothing does;
* `run_ownElements` --- the elements of a message give their fields;
* `run_outside` --- and the messages, those of the file;
* `messages_loaded` --- so a file that is accepted has all fields that are in their places;
* `field_in_extensions_passed_over` --- and may have others.
-/

namespace Mavlink

open Markup (Event Tag)

namespace Forest

/-- Whether an element of a name stands in a forest, or in one of its elements. -/
def holds (name : String) : Forest → Bool
  | nil => false
  | text _ rest => rest.holds name
  | element tag children rest => tag.name = name || children.holds name || rest.holds name

/-- No message stands in another. -/
def Apart : Forest → Prop
  | nil => True
  | text _ rest => rest.Apart
  | element tag children rest =>
    (tag.name = "message" → children.holds "message" = false) ∧ children.Apart ∧ rest.Apart

instance decidableApart : (f : Forest) → Decidable f.Apart
  | .nil => isTrue trivial
  | .text _ rest => decidableApart rest
  | .element _ children rest =>
    have := decidableApart children
    have := decidableApart rest
    inferInstanceAs (Decidable (_ ∧ _ ∧ _))

/-- The messages that stand in elements `messages`, in the order of their opening tags. -/
def messageElements (outer : String) : Forest → List (Tag × Forest)
  | nil => []
  | text _ rest => rest.messageElements outer
  | element tag children rest =>
    (if tag.name = "message" ∧ outer = "messages" then [(tag, children)] else [])
      ++ children.messageElements tag.name ++ rest.messageElements outer

/-- The elements of a name that stand in a forest, or in its elements. -/
def tagsOf (name : String) : Forest → List Tag
  | nil => []
  | text _ rest => rest.tagsOf name
  | element tag children rest =>
    (if tag.name = name then [tag] else []) ++ children.tagsOf name ++ rest.tagsOf name

theorem messageElements_of_holds {f : Forest} (h : f.holds "message" = false) (outer : String) :
    f.messageElements outer = [] := by
  induction f generalizing outer with
  | nil => rfl
  | text content rest ih => exact ih h outer
  | element tag children rest inner after =>
    simp only [holds, Bool.or_eq_false_iff, decide_eq_false_iff_not] at h
    obtain ⟨⟨other, within⟩, next⟩ := h
    simp [messageElements, other, inner within, after next]

/-- The fields that stand directly in a message, each with whether an element before it says that
the fields to come are extensions. -/
def fieldTags (isExtension : Bool) : Forest → List (Tag × Bool)
  | nil => []
  | text _ rest => rest.fieldTags isExtension
  | element tag _ rest =>
    if tag.name = "field" then (tag, isExtension) :: rest.fieldTags isExtension
    else rest.fieldTags (isExtension || tag.name = "extensions")

end Forest

namespace Schema

open Reader (optional required numberOr)

/-! ## What is known of a message -/

/-- A field, but for what is said about it. -/
def bare (f : Field) : Field := { f with description := none }

/-- The message that is begun, but for what is said about it and its fields.  A field that is
begun is one of its fields. -/
def sketch (r : Reader) : Option MessageDraft :=
  r.message.map fun m =>
    { id := m.id
      name := m.name
      inExtensions := m.inExtensions
      fields := (m.fields ++ r.field.toList).map bare }

/-- What is known of messages stays as it is. -/
structure Keeps (r r' : Reader) : Prop where
  messages : r'.definition.messages = r.definition.messages
  message : sketch r' = sketch r
  idle : r.field = none → r'.field = none

theorem Keeps.refl (r : Reader) : Keeps r r := ⟨rfl, rfl, id⟩

theorem Keeps.trans {a b c : Reader} (first : Keeps a b) (second : Keeps b c) : Keeps a c :=
  ⟨second.messages.trans first.messages, second.message.trans first.message,
    fun idle => second.idle (first.idle idle)⟩

/-- Nothing that is known of messages depends on the elements around the reader. -/
theorem keeps_inside (r : Reader) (inside : List String) : Keeps r { r with inside } :=
  ⟨rfl, rfl, id⟩

/-! ## What an opening tag can do -/

/-- The ways in which an element begins. -/
inductive Begun (file : String) (r : Reader) (tag : Tag) : Reader → Prop
  | message {name value : String} {id : Nat} (own : tag.name = "message")
      (place : r.isIn "messages" = true) (named : required file tag "name" = .ok name)
      (given : required file tag "id" = .ok value)
      (number : numberOr file s!"id of message `{name}`" value maxNumber = .ok id) :
      Begun file r tag { r with message := some { id, name } }
  | field {f : Field} (own : tag.name = "field") (place : r.isIn "message" = true)
      (attributes : fieldOf file ((r.message.map (·.name)).getD "")
        ((r.message.map (·.inExtensions)).getD false) tag = .ok f) :
      Begun file r tag { r with field := some f }
  | extensions (own : tag.name = "extensions") (place : r.isIn "message" = true) :
      Begun file r tag
        { r with message := r.message.map fun m => { m with inExtensions := true } }
  | deprecated (own : tag.name = "deprecated") (place : r.isIn "message" = true) :
      Begun file r tag { r with message := r.message.map fun m => { m with deprecated := true } }
  | other {r' : Reader} (noMessage : ¬(tag.name = "message" ∧ r.isIn "messages" = true))
      (noField : ¬(tag.name = "field" ∧ r.isIn "message" = true))
      (noExtensions : ¬(tag.name = "extensions" ∧ r.isIn "message" = true))
      (inside : r'.inside = r.inside) (definition : r'.definition = r.definition)
      (message : r'.message = r.message) (field : r'.field = r.field) : Begun file r tag r'

variable {file : String} {r r' : Reader} {tag : Tag} {children f : Forest}

theorem begun_of_beginElement (h : r.beginElement file tag = .ok r') : Begun file r tag r' := by
  unfold Reader.beginElement at h
  split_ifs at h with enum entry message extensions deprecated field
  · obtain ⟨name, -, h⟩ := exists_of_bind_eq_ok h
    obtain ⟨bitmask, -, h⟩ := exists_of_bind_eq_ok h
    cases h
    exact .other (by simp [enum.1]) (by simp [enum.1]) (by simp [enum.1]) rfl rfl rfl rfl
  · obtain ⟨name, -, h⟩ := exists_of_bind_eq_ok h
    obtain ⟨given, -, h⟩ := exists_of_bind_eq_ok h
    cases given with
    | none =>
      cases h
      exact .other (by simp [entry.1]) (by simp [entry.1]) (by simp [entry.1]) rfl rfl rfl rfl
    | some value =>
      obtain ⟨n, -, h⟩ := exists_of_bind_eq_ok h
      cases h
      exact .other (by simp [entry.1]) (by simp [entry.1]) (by simp [entry.1]) rfl rfl rfl rfl
  · obtain ⟨name, named, h⟩ := exists_of_bind_eq_ok h
    obtain ⟨value, given, h⟩ := exists_of_bind_eq_ok h
    obtain ⟨id, number, h⟩ := exists_of_bind_eq_ok h
    cases h
    exact .message message.1 message.2 named given number
  · cases h
    exact .extensions extensions.1 extensions.2
  · cases h
    exact .deprecated deprecated.1 deprecated.2
  · rw [beginField_eq] at h
    obtain ⟨f, attributes, rfl⟩ := exists_of_map_eq_ok h
    exact .field field.1 field.2 attributes
  · cases h
    exact .other message field extensions rfl rfl rfl rfl

theorem begun_of_opening (h : r.opening file tag = .ok r') :
    ∃ r₁, Begun file r tag r₁ ∧ r' = { r₁ with inside := tag.name :: r₁.inside } := by
  unfold Reader.opening at h
  split_ifs at h
  obtain ⟨r₁, begun, h⟩ := exists_of_bind_eq_ok h
  cases h
  exact ⟨r₁, begun_of_beginElement begun, rfl⟩

theorem Begun.inside (h : Begun file r tag r') : r'.inside = r.inside := by
  cases h <;> first | rfl | assumption

/-- An element that is not in a message, and none itself, begins nothing of a message. -/
theorem Begun.keeps (h : Begun file r tag r') (notMessage : tag.name ≠ "message")
    (outside : r.isIn "message" = false) : Keeps r r' := by
  cases h with
  | message own => exact absurd own notMessage
  | field _ place => rw [outside] at place; cases place
  | extensions _ place => rw [outside] at place; cases place
  | deprecated _ place => rw [outside] at place; cases place
  | other _ _ _ _ definition message field =>
    exact ⟨congrArg _ definition, by simp only [sketch, message, field], field.trans⟩

/-! ## What keeps what is known of messages -/

theorem keeps_text {content : String} (h : r.text file content = .ok r') : Keeps r r' := by
  unfold Reader.text at h
  dsimp only at h
  split at h
  · cases h
    exact ⟨rfl, rfl, id⟩
  · obtain ⟨n, -, h⟩ := exists_of_bind_eq_ok h
    cases h
    exact ⟨rfl, rfl, id⟩
  · obtain ⟨n, -, h⟩ := exists_of_bind_eq_ok h
    cases h
    exact ⟨rfl, rfl, id⟩
  · cases h
    refine ⟨rfl, ?_, fun idle => by simp [idle]⟩
    cases field : r.field <;> simp [sketch, field, bare]
  · cases h
    refine ⟨rfl, ?_, id⟩
    cases message : r.message <;> simp [sketch, message]
  · cases h
    exact ⟨rfl, rfl, id⟩
  · cases h
    exact ⟨rfl, rfl, id⟩
  · cases h
    exact .refl _

/-- A field that is put into the message has been one of its fields before. -/
theorem keeps_endField (r : Reader) : Keeps r r.endField := by
  unfold Reader.endField
  cases field : r.field with
  | none => exact ⟨rfl, by simp [sketch, field], fun _ => rfl⟩
  | some f => cases message : r.message <;> exact ⟨rfl, by simp [sketch, field, message], fun _ => rfl⟩

theorem field_endField (r : Reader) : r.endField.field = none := by
  unfold Reader.endField
  split <;> rfl

theorem inside_endField (r : Reader) : r.endField.inside = r.inside := by
  unfold Reader.endField
  split <;> rfl

theorem keeps_endEntry (r : Reader) : Keeps r r.endEntry ∧ r.endEntry.inside = r.inside := by
  unfold Reader.endEntry
  split <;> exact ⟨⟨rfl, rfl, id⟩, rfl⟩

theorem keeps_endEnum (r : Reader) : Keeps r r.endEnum ∧ r.endEnum.inside = r.inside := by
  unfold Reader.endEnum
  split <;> exact ⟨⟨rfl, rfl, id⟩, rfl⟩

theorem keeps_closing {name : String} {rest : List String} (inside : r.inside = name :: rest)
    (notMessage : name ≠ "message") (h : r.closing = .ok r') :
    Keeps r r' ∧ r'.inside = rest ∧ (name = "field" → r'.field = none) := by
  have out : Keeps r { r with inside := rest } := keeps_inside r rest
  unfold Reader.closing at h
  simp only [inside, List.headD_cons, List.tail_cons] at h
  split at h
  · cases h
    exact ⟨out.trans (keeps_endField _), inside_endField _, fun _ => field_endField _⟩
  · exact absurd rfl notMessage
  · cases h
    obtain ⟨kept, same⟩ := keeps_endEntry { r with inside := rest }
    exact ⟨out.trans kept, same, by simp⟩
  · cases h
    obtain ⟨kept, same⟩ := keeps_endEnum { r with inside := rest }
    exact ⟨out.trans kept, same, by simp⟩
  · cases h
  · cases h
    exact ⟨out, rfl, fun field => absurd field ‹_›⟩

theorem exists_of_run_element {rest : Forest}
    (h : run file (Forest.element tag children rest).events r = .ok r') :
    ∃ r₁ r₂ r₃, Begun file r tag r₁ ∧
      run file children.events { r₁ with inside := tag.name :: r.inside } = .ok r₂ ∧
      r₂.closing = .ok r₃ ∧ run file rest.events r₃ = .ok r' := by
  rw [run_element] at h
  obtain ⟨r₃, element, after⟩ := exists_of_bind_eq_ok h
  obtain ⟨opened, opening, element⟩ := exists_of_bind_eq_ok element
  obtain ⟨r₂, within, closing⟩ := exists_of_bind_eq_ok element
  obtain ⟨r₁, begun, rfl⟩ := begun_of_opening opening
  rw [begun.inside] at within
  exact ⟨r₁, r₂, r₃, begun, within, closing, after⟩

/-- **Nothing in an element of a message changes what is known of the message**, if the element is
not the message itself and no message stands in it. -/
theorem keeps_run (apart : f.holds "message" = false) (outside : r.isIn "message" = false)
    (h : run file f.events r = .ok r') : Keeps r r' ∧ r'.inside = r.inside := by
  induction f generalizing r r' with
  | nil =>
    cases h
    exact ⟨.refl _, rfl⟩
  | text content rest ih =>
    obtain ⟨r₁, told, h⟩ := exists_of_bind_eq_ok h
    have same : r₁.inside = r.inside := inside_text told
    obtain ⟨kept, inside⟩ := ih apart (by rwa [Reader.isIn, same]) h
    exact ⟨(keeps_text told).trans kept, inside.trans same⟩
  | element tag children rest inner after =>
    simp only [Forest.holds, Bool.or_eq_false_iff, decide_eq_false_iff_not] at apart
    obtain ⟨⟨notMessage, within⟩, next⟩ := apart
    obtain ⟨r₁, r₂, r₃, begun, read, closing, h⟩ := exists_of_run_element h
    obtain ⟨kept, inside⟩ := inner within (by simpa [Reader.isIn] using notMessage) read
    obtain ⟨closed, out, -⟩ := keeps_closing inside notMessage closing
    obtain ⟨others, same⟩ := after next (by rwa [Reader.isIn, out]) h
    exact ⟨((begun.keeps notMessage outside).trans (keeps_inside r₁ _)).trans
      (kept.trans (closed.trans others)), same.trans out⟩

/-! ## The elements of a message -/

/-- An element of a message, once it has begun. -/
theorem keeps_begun {outer : List String} {r₁ r₂ r₃ : Reader} (notMessage : tag.name ≠ "message")
    (apart : children.holds "message" = false)
    (read : run file children.events { r₁ with inside := tag.name :: outer } = .ok r₂)
    (closing : r₂.closing = .ok r₃) :
    Keeps r₁ r₃ ∧ r₃.inside = outer ∧ (tag.name = "field" → r₃.field = none) := by
  obtain ⟨kept, inside⟩ := keeps_run apart (by simpa [Reader.isIn] using notMessage) read
  obtain ⟨closed, out, done⟩ := keeps_closing inside notMessage closing
  exact ⟨((keeps_inside r₁ _).trans kept).trans closed, out, done⟩

/-- A field is known with what its attributes say. -/
theorem Begun.sketch_field {s : MessageDraft} (h : Begun file r tag r') (own : tag.name = "field")
    (place : r.isIn "message" = true) (idle : r.field = none) (drafted : sketch r = some s) :
    ∃ f, fieldOf file s.name s.inExtensions tag = .ok f ∧
      sketch r' = some { s with fields := s.fields ++ [f] } ∧
      r'.definition.messages = r.definition.messages := by
  obtain ⟨m, message, rfl⟩ := Option.map_eq_some_iff.1 drafted
  cases h with
  | message name => simp [own] at name
  | @field f _ _ attributes =>
    rw [message] at attributes
    refine ⟨f, attributes, ?_, rfl⟩
    have same : bare f = f := by rw [bare, ← description_fieldOf attributes]
    simp [sketch, message, idle, same]
  | extensions name => simp [own] at name
  | deprecated name => simp [own] at name
  | other _ noField => exact absurd ⟨own, place⟩ noField

/-- Of any other element in a message nothing is known but whether it is the one before the
extensions. -/
theorem Begun.sketch_other {s : MessageDraft} (h : Begun file r tag r')
    (notMessage : tag.name ≠ "message") (notField : tag.name ≠ "field")
    (place : r.isIn "message" = true) (drafted : sketch r = some s) :
    sketch r' = some { s with inExtensions := s.inExtensions || tag.name = "extensions" } ∧
      r'.definition.messages = r.definition.messages ∧ r'.field = r.field := by
  obtain ⟨m, message, rfl⟩ := Option.map_eq_some_iff.1 drafted
  cases h with
  | message name => exact absurd name notMessage
  | field name => exact absurd name notField
  | extensions name => simp [sketch, message, name]
  | deprecated name => simp [sketch, message, name]
  | other _ _ noExtensions _ definition kept field =>
    have name : tag.name ≠ "extensions" := fun name => noExtensions ⟨name, place⟩
    simp [sketch, message, name, kept, field, definition]

/-- **The elements of a message give its fields**: those that are fields, in their order. -/
theorem run_ownElements {s : MessageDraft} (apart : f.holds "message" = false)
    (place : r.isIn "message" = true) (idle : r.field = none) (drafted : sketch r = some s)
    (h : run file f.events r = .ok r') :
    r'.inside = r.inside ∧ r'.field = none ∧
      r'.definition.messages = r.definition.messages ∧
      ∃ inExtensions fields,
        (f.fieldTags s.inExtensions).mapM (fun p => fieldOf file s.name p.2 p.1) = .ok fields ∧
        sketch r' = some { s with inExtensions, fields := s.fields ++ fields } := by
  induction f generalizing r r' s with
  | nil =>
    cases h
    exact ⟨rfl, idle, rfl, s.inExtensions, [], rfl, by simpa using drafted⟩
  | text content rest ih =>
    obtain ⟨r₁, told, h⟩ := exists_of_bind_eq_ok h
    have same : r₁.inside = r.inside := inside_text told
    have kept : Keeps r r₁ := keeps_text told
    have read := ih apart (by rwa [Reader.isIn, same]) (kept.idle idle)
      (kept.message.trans drafted) h
    rwa [same, kept.messages] at read
  | element tag children rest _ ih =>
    simp only [Forest.holds, Bool.or_eq_false_iff, decide_eq_false_iff_not] at apart
    obtain ⟨⟨notMessage, within⟩, next⟩ := apart
    obtain ⟨r₁, r₂, r₃, begun, read, closing, h⟩ := exists_of_run_element h
    obtain ⟨kept, inside, done⟩ := keeps_begun notMessage within read closing
    have place₃ : r₃.isIn "message" = true := by rwa [Reader.isIn, inside]
    rw [Forest.fieldTags]
    by_cases own : tag.name = "field"
    · obtain ⟨f, attributes, known, messages⟩ := begun.sketch_field own place idle drafted
      obtain ⟨out, idle, same, inExtensions, fields, given, drafted⟩ :=
        ih next place₃ (done own) (kept.message.trans known) h
      refine ⟨out.trans inside, idle, same.trans (kept.messages.trans messages), inExtensions,
        f :: fields, ?_, ?_⟩
      · rw [if_pos own, List.mapM_cons, attributes, given]
        rfl
      · rw [drafted, List.append_assoc, List.singleton_append]
    · obtain ⟨known, messages, field⟩ := begun.sketch_other notMessage own place drafted
      obtain ⟨out, idle, same, inExtensions, fields, given, drafted⟩ :=
        ih next place₃ (kept.idle (field.trans idle)) (kept.message.trans known) h
      rw [if_neg own]
      exact ⟨out.trans inside, idle, same.trans (kept.messages.trans messages), inExtensions,
        fields, given, drafted⟩

/-! ## Elements `message` that are no messages -/

theorem Begun.sketch_none (h : Begun file r tag r') (notMessage : tag.name ≠ "message")
    (nothing : sketch r = none) :
    sketch r' = none ∧ r'.definition.messages = r.definition.messages ∧
      (tag.name ≠ "field" → r'.field = r.field) := by
  have message : r.message = none := Option.map_eq_none_iff.1 nothing
  cases h with
  | message name => exact absurd name notMessage
  | field name => simp [sketch, message, name]
  | extensions name => simp [sketch, message]
  | deprecated name => simp [sketch, message]
  | other _ _ _ _ definition kept field => simp [sketch, message, kept, field, definition]

/-- In an element `message` that is no message, no field is known. -/
theorem run_strayElements (apart : f.holds "message" = false) (idle : r.field = none)
    (nothing : sketch r = none) (h : run file f.events r = .ok r') :
    r'.inside = r.inside ∧ r'.field = none ∧
      r'.definition.messages = r.definition.messages ∧ sketch r' = none := by
  induction f generalizing r r' with
  | nil =>
    cases h
    exact ⟨rfl, idle, rfl, nothing⟩
  | text content rest ih =>
    obtain ⟨r₁, told, h⟩ := exists_of_bind_eq_ok h
    have kept : Keeps r r₁ := keeps_text told
    have read := ih apart (kept.idle idle) (kept.message.trans nothing) h
    rwa [inside_text told, kept.messages] at read
  | element tag children rest _ ih =>
    simp only [Forest.holds, Bool.or_eq_false_iff, decide_eq_false_iff_not] at apart
    obtain ⟨⟨notMessage, within⟩, next⟩ := apart
    obtain ⟨r₁, r₂, r₃, begun, read, closing, h⟩ := exists_of_run_element h
    obtain ⟨kept, inside, done⟩ := keeps_begun notMessage within read closing
    obtain ⟨unknown, messages, field⟩ := begun.sketch_none notMessage nothing
    have idle₃ : r₃.field = none := by
      by_cases own : tag.name = "field"
      · exact done own
      · exact kept.idle ((field own).trans idle)
    obtain ⟨out, idle, same, unknown⟩ := ih next idle₃ (kept.message.trans unknown) h
    exact ⟨out.trans inside, idle, same.trans (kept.messages.trans messages), unknown⟩

/-! ## Messages -/

/-- A message that is loaded from its element: it has the name and the number of its attributes,
and the fields that stand directly in it, with what their attributes say. -/
structure Loads (file : String) (element : Tag × Forest) (m : Message) : Prop where
  name : required file element.1 "name" = .ok m.name
  id : ∃ value, required file element.1 "id" = .ok value ∧
    numberOr file s!"id of message `{m.name}`" value maxNumber = .ok m.id
  fields : (element.2.fieldTags false).mapM (fun p => fieldOf file m.name p.2 p.1)
    = .ok (m.fields.map bare)

/-- A message closes. -/
theorem closing_message {rest : List String} {m : MessageDraft}
    (inside : r.inside = "message" :: rest) (message : r.message = some m)
    (h : r.closing = .ok r') :
    ∃ made, Message.make m.id m.name m.fields m.description m.deprecated = .ok made ∧
      r' = { r with
        inside := rest
        message := none
        definition := { r.definition with messages := r.definition.messages ++ [made] } } := by
  unfold Reader.closing at h
  simp only [inside, List.headD_cons, List.tail_cons, Reader.endMessage, message] at h
  split at h
  · cases h
  · cases h
    exact ⟨_, ‹_›, rfl⟩

/-- The reader is outside of messages again, and has loaded those of some elements. -/
structure Loaded (file : String) (elements : List (Tag × Forest)) (r r' : Reader) : Prop where
  inside : r'.inside = r.inside
  idle : r'.field = none
  unknown : sketch r' = none
  messages : ∃ new, r'.definition.messages = r.definition.messages ++ new ∧
    List.Forall₂ (Loads file) elements new

theorem Loaded.trans {a b : List (Tag × Forest)} {r₁ r₂ r₃ : Reader} (first : Loaded file a r₁ r₂)
    (second : Loaded file b r₂ r₃) : Loaded file (a ++ b) r₁ r₃ := by
  obtain ⟨new, messages, loads⟩ := first.messages
  obtain ⟨more, others, further⟩ := second.messages
  refine ⟨second.inside.trans first.inside, second.idle, second.unknown, new ++ more, ?_,
    List.rel_append loads further⟩
  rw [others, messages, List.append_assoc]

/-- What keeps what is known loads nothing. -/
theorem Keeps.loaded (kept : Keeps r r') (inside : r'.inside = r.inside) (idle : r.field = none)
    (unknown : sketch r = none) : Loaded file [] r r' where
  inside := inside
  idle := kept.idle idle
  unknown := kept.message.trans unknown
  messages := ⟨[], by rw [kept.messages, List.append_nil], .nil⟩

theorem Loaded.around {elements : List (Tag × Forest)} {r₁ r₂ r₃ : Reader}
    (h : Loaded file elements r₁ r₂) (before : Keeps r r₁) (after : Keeps r₂ r₃)
    (inside : r₃.inside = r.inside) : Loaded file elements r r₃ := by
  obtain ⟨new, messages, loads⟩ := h.messages
  refine ⟨inside, after.idle h.idle, after.message.trans h.unknown, new, ?_, loads⟩
  rw [after.messages, messages, before.messages]

section Element

variable {r₁ r₂ r₃ : Reader}
  (begun : Begun file r tag r₁)
  (read : run file children.events { r₁ with inside := tag.name :: r.inside } = .ok r₂)
  (closing : r₂.closing = .ok r₃)
  (idle : r.field = none)

include begun read closing idle

/-- An element that is a message. -/
theorem loaded_message (own : tag.name = "message") (apart : children.holds "message" = false)
    (place : r.isIn "messages" = true) : Loaded file [(tag, children)] r r₃ := by
  cases begun with
  | field name => simp [own] at name
  | extensions name => simp [own] at name
  | deprecated name => simp [own] at name
  | other noMessage => exact absurd ⟨own, place⟩ noMessage
  | @message name value id _ _ named given number =>
    obtain ⟨inside, idle₂, messages, inExtensions, fields, meant, known⟩ :=
      run_ownElements (r := { r with inside := tag.name :: r.inside, message := some { id, name } })
        (s := { id, name }) apart (by simp [Reader.isIn, own]) idle (by simp [sketch, idle]) read
    obtain ⟨m, message, same⟩ := Option.map_eq_some_iff.1 known
    obtain ⟨made, making, rfl⟩ := closing_message (inside.trans (by rw [own])) message closing
    obtain ⟨sameId, sameName, sameFields⟩ := Message.of_make making
    have idOf : made.id = id := sameId.trans (congrArg MessageDraft.id same)
    have nameOf : made.name = name := sameName.trans (congrArg MessageDraft.name same)
    have whole : made.fields.map bare = fields := by
      have bareFields := congrArg MessageDraft.fields same
      simpa [sameFields, idle₂] using bareFields
    refine ⟨rfl, idle₂, rfl, [made], congrArg (· ++ [made]) messages, .cons ?_ .nil⟩
    exact ⟨nameOf ▸ named, ⟨value, given, by rw [nameOf, idOf]; exact number⟩,
      by rw [nameOf, whole]; exact meant⟩

/-- An element `message` out of place. -/
theorem loaded_stray (own : tag.name = "message") (apart : children.holds "message" = false)
    (place : r.isIn "messages" = false) (unknown : sketch r = none) : Loaded file [] r r₃ := by
  cases begun with
  | message _ within => simp [place] at within
  | field name => simp [own] at name
  | extensions name => simp [own] at name
  | deprecated name => simp [own] at name
  | other _ _ _ _ definition message field =>
    have nothing : sketch { r₁ with inside := tag.name :: r.inside } = none := by
      simp only [sketch, message]
      simpa [sketch] using unknown
    obtain ⟨inside, idle₂, messages, unknown₂⟩ :=
      run_strayElements (r := { r₁ with inside := tag.name :: r.inside }) apart (field.trans idle)
        nothing read
    have none₂ : r₂.message = none := Option.map_eq_none_iff.1 unknown₂
    unfold Reader.closing at closing
    simp only [inside, own, List.headD_cons, List.tail_cons, Reader.endMessage, none₂] at closing
    cases closing
    refine ⟨rfl, idle₂, by simp [sketch], [], ?_, .nil⟩
    rw [List.append_nil, ← definition]
    exact messages

end Element

theorem isIn_iff {name : String} (nonempty : name ≠ "") :
    r.isIn name = true ↔ r.inside.headD "" = name := by
  cases h : r.inside <;> simp [Reader.isIn, h, nonempty.symm]

/-- **Outside of messages, the messages that are loaded are those of the file.** -/
theorem run_outside (apart : f.Apart) (outside : r.isIn "message" = false) (idle : r.field = none)
    (unknown : sketch r = none) (h : run file f.events r = .ok r') :
    Loaded file (f.messageElements (r.inside.headD "")) r r' := by
  induction f generalizing r r' with
  | nil =>
    cases h
    exact (Keeps.refl _).loaded rfl idle unknown
  | text content rest ih =>
    obtain ⟨r₁, told, h⟩ := exists_of_bind_eq_ok h
    have first : Loaded file [] r r₁ := (keeps_text told).loaded (inside_text told) idle unknown
    have second := ih apart (by rwa [Reader.isIn, first.inside]) first.idle first.unknown h
    rw [first.inside] at second
    exact first.trans second
  | element tag children rest inner after =>
    obtain ⟨alone, within, next⟩ := apart
    obtain ⟨r₁, r₂, r₃, begun, read, closing, h⟩ := exists_of_run_element h
    have first : Loaded file
        ((if tag.name = "message" ∧ r.inside.headD "" = "messages" then [(tag, children)] else [])
          ++ children.messageElements tag.name) r r₃ := by
      by_cases own : tag.name = "message"
      · have apart : children.holds "message" = false := alone own
        rw [Forest.messageElements_of_holds apart, List.append_nil]
        by_cases place : r.isIn "messages" = true
        · rw [if_pos ⟨own, (isIn_iff (by decide)).1 place⟩]
          exact loaded_message begun read closing idle own apart place
        · rw [if_neg fun h => place ((isIn_iff (by decide)).2 h.2)]
          exact loaded_stray begun read closing idle own apart (by simpa using place) unknown
      · rw [if_neg fun h => own h.1, List.nil_append]
        have kept : Keeps r { r₁ with inside := tag.name :: r.inside } :=
          (begun.keeps own outside).trans (keeps_inside r₁ _)
        have deeper := inner within (by simpa [Reader.isIn] using own) (kept.idle idle)
          (kept.message.trans unknown) read
        obtain ⟨closed, out, -⟩ := keeps_closing deeper.inside own closing
        exact deeper.around kept closed out
    have second := after next (by rwa [Reader.isIn, first.inside]) first.idle first.unknown h
    rw [first.inside] at second
    exact first.trans second

/-- **Every field in its place is loaded, and no other.**  Suppose that events are properly nested,
that no message stands in another, and that the file is accepted.  Then its messages are those that
stand in elements `messages`, in order, and each has exactly the fields that stand directly in it,
in order, with what their attributes say.  A field that stands elsewhere in a message, as in an
element `extensions` or in one that means nothing, is passed over. -/
theorem messages_loaded {es : List Event} (spelled : f.Spells es) (apart : f.Apart) {total : Nat}
    {places : List (List Char × Event)} (told : places.map (·.2) = es ++ [.finished])
    {d : Definition} (accepted : readEvents file total {} places = .ok d) :
    List.Forall₂ (Loads file) (f.messageElements "") d.messages := by
  have answer := told_readEvents file {} total places
  rw [told, run_append, run_of_spells file {} spelled, accepted] at answer
  obtain ⟨r, read, rfl⟩ := exists_of_map_eq_ok answer.ok_eq
  obtain ⟨r₁, read, finished⟩ := exists_of_bind_eq_ok read
  obtain ⟨new, messages, loads⟩ := (run_outside apart rfl rfl rfl read).messages
  have last : r = r₁ := by
    obtain ⟨r₂, finished, same⟩ := exists_of_bind_eq_ok finished
    cases same
    unfold Reader.read at finished
    dsimp only at finished
    split_ifs at finished
    cases finished
    rfl
  rw [last, messages]
  exact loads

/-! ## A field that is passed over -/

/-- A message with one field in its place, and one in an element `extensions`. -/
def fieldInExtensions : Forest :=
  .element ⟨"mavlink", []⟩ (.element ⟨"messages", []⟩
    (.element ⟨"message", " id=\"1\" name=\"A\"".toList⟩
      (.element ⟨"field", " type=\"uint8_t\" name=\"a\"".toList⟩ .nil
        (.element ⟨"extensions", []⟩
          (.element ⟨"field", " type=\"uint8_t\" name=\"b\"".toList⟩ .nil .nil) .nil)) .nil) .nil)
    .nil

theorem read_fieldInExtensions : ∃ d m,
    readEvents "e.xml" 0 {} ((fieldInExtensions.events ++ [Event.finished]).map fun e => ([], e))
        = .ok d ∧
      d.messages = [m] ∧ m.fields.map (·.name) = ["a"] := by
  have names : (readEvents "e.xml" 0 {}
      ((fieldInExtensions.events ++ [Event.finished]).map fun e => ([], e))).toOption.map
        (·.messages.map (·.fields.map (·.name))) = some [["a"]] := by decide +kernel
  generalize readEvents "e.xml" 0 {}
    ((fieldInExtensions.events ++ [Event.finished]).map fun e => ([], e)) = answer at names ⊢
  cases answer with
  | error e => cases names
  | ok d =>
    obtain ⟨m, one, names⟩ := List.map_eq_singleton_iff.1 (Option.some.inj names)
    exact ⟨d, m, rfl, one, names⟩

/-- The file is accepted, and its message is loaded with the field in its place. -/
theorem messages_loaded_fieldInExtensions : ∃ d m,
    readEvents "e.xml" 0 {} ((fieldInExtensions.events ++ [Event.finished]).map fun e => ([], e))
        = .ok d ∧
      d.messages = [m] ∧ m.fields.map (·.name) = ["a"] ∧
      List.Forall₂ (Loads "e.xml") (fieldInExtensions.messageElements "") d.messages := by
  obtain ⟨d, m, accepted, one, names⟩ := read_fieldInExtensions
  exact ⟨d, m, accepted, one, names,
    messages_loaded (Forest.spells_events _) (by decide) rfl accepted⟩

/-- **A field can be passed over without an error.**  It is not so that in every file that is
accepted each field within a message is one of the fields of the message. -/
theorem field_in_extensions_passed_over :
    ¬∀ (f : Forest) (es : List Event) (d : Definition), f.Spells es →
      readEvents "e.xml" 0 {} ((es ++ [Event.finished]).map fun e => ([], e)) = .ok d →
      List.Forall₂ (fun (element : Tag × Forest) (m : Message) =>
          ∀ tag ∈ element.2.tagsOf "field", ∃ a ∈ m.fields,
            required "e.xml" tag "name" = .ok a.name)
        (f.messageElements "") d.messages := by
  intro all
  obtain ⟨d, m, accepted, one, names⟩ := read_fieldInExtensions
  have loaded := all _ _ d (Forest.spells_events _) accepted
  rw [one] at loaded
  obtain ⟨each, -⟩ := List.forall₂_cons.1 loaded
  obtain ⟨a, mem, named⟩ := each ⟨"field", " type=\"uint8_t\" name=\"b\"".toList⟩
    (by simp [Forest.tagsOf])
  have own : a.name = "a" := by
    have listed : a.name ∈ m.fields.map (·.name) := List.mem_map_of_mem mem
    simpa [names] using listed
  have other : (required "e.xml" ⟨"field", " type=\"uint8_t\" name=\"b\"".toList⟩ "name").toOption
      = some "b" := by decide +kernel
  rw [named, own] at other
  exact absurd other (by decide)

end Schema
end Mavlink
