import Mathlib
import Mavlink.Proofs.Schema.ElementTree

/-!
# A definition file as a tree

The reader knows of a definition file no more than the names of the elements it is in and what it
has begun.  Here is what a definition file means as a tree: messages with their fields, enums with
their entries, each told from its own element and the elements in it.  Nothing is begun and put
away, and no element can leave anything behind for another.

Both come to the same where the elements of the schema stand in their places, whatever other
elements, attributes and texts stand between and in them.  A message, an enum or an entry has its
description in elements, a field in its own texts; an extension has an element before it that says
so; an entry without a number has the one after the entry before it.

* `readMessage`, `readEnum`, `readParts` --- what the elements mean;
* `run_message`, `run_enum`, `run_parts` --- the reader finds the same in the events, level by
  level, each by induction on the elements that stand next to each other;
* `readEvents_spelled` --- and so in the events of a file.
-/

namespace Mavlink
namespace Schema

open Markup (Event Tag)
open Reader (optional required numberOr)

/-! ## What the elements mean -/

/-- The texts that are not blank, without the blanks around them, joined. -/
def description (texts : List String) : Option String :=
  match (texts.map Text.trimmed).filter (· ≠ "") with
  | [] => none
  | first :: more => some (" ".intercalate (first :: more))

/-- The last number in the texts of an element. -/
def readNumber (file context : String) (limit : Nat) :
    Option Nat → Forest → Except ReadingFault (Option Nat) :=
  foldTexts fun _ content => (numberOr file context (Text.trimmed content) limit).map some

/-- The elements of a name, each read; what stands between them is passed over. -/
def collect {α : Type} (name : String) (read : Tag → Forest → Except ReadingFault α) :
    Forest → Except ReadingFault (List α)
  | .nil => .ok []
  | .text _ rest => collect name read rest
  | .element tag children rest =>
    if tag.name = name then do
      let a ← read tag children
      return a :: (← collect name read rest)
    else do
      pass children
      named tag
      collect name read rest

/-- What the attributes of a field say. -/
def fieldOf (file message : String) (isExtension : Bool) (tag : Tag) :
    Except ReadingFault Field := do
  let name ← required file tag "name"
  let typeName ← required file tag "type"
  match FieldType.read? typeName with
  | none => .error (.schema (.unknownType message name typeName))
  | some type =>
    let enum ← optional tag "enum"
    let units ← optional tag "units"
    let display ← optional tag "display"
    let printFormat ← optional tag "print_format"
    let invalid ← optional tag "invalid"
    return { name, type, isExtension, enum, units, display, printFormat, invalid }

/-- A field of a message. -/
def readField (file message : String) (isExtension : Bool) (tag : Tag) (children : Forest) :
    Except ReadingFault Field := do
  let f ← fieldOf file message isExtension tag
  pass children
  return { f with description := description children.texts }

/-- The fields of a message.  They are extensions if an element before them says so. -/
def readFields (file message : String) (isExtension : Bool) :
    Forest → Except ReadingFault (List Field)
  | .nil => .ok []
  | .text _ rest => readFields file message isExtension rest
  | .element tag children rest =>
    if tag.name = "field" then do
      let f ← readField file message isExtension tag children
      return f :: (← readFields file message isExtension rest)
    else do
      pass children
      named tag
      readFields file message (isExtension || tag.name = "extensions") rest

/-- A message. -/
def readMessage (file : String) (tag : Tag) (children : Forest) :
    Except ReadingFault Message := do
  let name ← required file tag "name"
  let value ← required file tag "id"
  let id ← numberOr file s!"id of message `{name}`" value maxNumber
  let fields ← readFields file name false children
  (Message.make id name fields (description (children.textsIn "description"))
    (children.has "deprecated")).mapError .schema

/-- The number after a number; the greatest has none. -/
def numberAfter (n : Nat) : Nat := min (n + 1) EnumEntry.maxValue

/-- What the attributes of an entry say; `next` is its number if it has none of its own. -/
def entryOf (file : String) (next : Nat) (tag : Tag) : Except ReadingFault EnumEntry := do
  let name ← required file tag "name"
  let value ← match ← optional tag "value" with
    | some value => numberOr file s!"value of enum entry `{name}`" value EnumEntry.maxValue
    | none => pure next
  return { value, name }

/-- An entry of an enum. -/
def readEntry (file : String) (next : Nat) (tag : Tag) (children : Forest) :
    Except ReadingFault EnumEntry := do
  let y ← entryOf file next tag
  pass children
  return { y with description := description (children.textsIn "description") }

/-- The entries of an enum, the first with the number `next` if it has none of its own. -/
def readEntries (file : String) (next : Nat) : Forest → Except ReadingFault (List EnumEntry)
  | .nil => .ok []
  | .text _ rest => readEntries file next rest
  | .element tag children rest =>
    if tag.name = "entry" then do
      let y ← readEntry file next tag children
      return y :: (← readEntries file (numberAfter y.value) rest)
    else do
      pass children
      named tag
      readEntries file next rest

/-- An enum. -/
def readEnum (file : String) (tag : Tag) (children : Forest) : Except ReadingFault Enum := do
  let name ← required file tag "name"
  let bitmask ← optional tag "bitmask"
  let entries ← readEntries file 0 children
  return {
    name
    bitmask := bitmask = some "true"
    description := description (children.textsIn "description")
    entries }

/-- An element of a definition file. -/
def readPart (file : String) (d : Definition) (tag : Tag) (children : Forest) :
    Except ReadingFault Definition :=
  if tag.name = "include" then do
    pass children
    return { d with includes := d.includes ++ children.texts.map Text.trimmed }
  else if tag.name = "version" then do
    return { d with version := ← readNumber file "version" 0xFF d.version children }
  else if tag.name = "dialect" then do
    return { d with dialect := ← readNumber file "dialect" 0xFFFFFFFF d.dialect children }
  else if tag.name = "enums" then do
    return { d with enums := d.enums ++ (← collect "enum" (readEnum file) children) }
  else if tag.name = "messages" then do
    return { d with messages := d.messages ++ (← collect "message" (readMessage file) children) }
  else do
    pass children
    named tag
    return d

/-- The elements of a definition file, one after the other. -/
def readParts (file : String) (d : Definition) : Forest → Except ReadingFault Definition
  | .nil => .ok d
  | .text _ rest => readParts file d rest
  | .element tag children rest => do readParts file (← readPart file d tag children) rest

/-! ## Descriptions -/

/-- A description with more texts. -/
def addTexts (texts : List String) (before : Option String) : Option String :=
  texts.foldl (fun d content => addText (Text.trimmed content) d) before

theorem addTexts_append (a b : List String) (before : Option String) :
    addTexts (a ++ b) before = addTexts b (addTexts a before) := List.foldl_append

theorem addTexts_some (texts : List String) (before : String) :
    addTexts texts (some before)
      = some (" ".intercalate (before :: (texts.map Text.trimmed).filter (· ≠ ""))) := by
  induction texts generalizing before with
  | nil => rfl
  | cons content texts ih =>
    rw [addTexts, List.foldl_cons, List.map_cons]
    by_cases blank : Text.trimmed content = ""
    · rw [addText, if_pos blank, List.filter_cons_of_neg (by simpa using blank)]
      exact ih before
    · rw [addText, if_neg blank, List.filter_cons_of_pos (by simpa using blank)]
      exact ih (before ++ " " ++ Text.trimmed content)

/-- Texts are added one by one to what is their description together. -/
theorem addTexts_none (texts : List String) : addTexts texts none = description texts := by
  induction texts with
  | nil => rfl
  | cons content texts ih =>
    rw [addTexts, List.foldl_cons]
    unfold description
    rw [List.map_cons]
    by_cases blank : Text.trimmed content = ""
    · rw [addText, if_pos blank, List.filter_cons_of_neg (by simpa using blank)]
      exact ih
    · rw [addText, if_neg blank, List.filter_cons_of_pos (by simpa using blank)]
      exact addTexts_some texts (Text.trimmed content)

/-- An element that stands where its description counts, and nothing else. -/
theorem runElement_described (state : Option String → Reader) {file : String} {tag : Tag}
    {children : Forest} {outer : String} {rest : List String}
    (inside : ∀ s, (state s).inside = outer :: rest) (foreign : Foreign tag.name)
    (kept : tag.name = "deprecated" → outer ≠ "message")
    (mute : tag.name ≠ "description" → Mute outer tag.name) (placed : children.Placed tag.name)
    (each : ∀ s content, Reader.text file
        { state s with inside := "description" :: outer :: rest } content
      = .ok { state (addText (Text.trimmed content) s) with
        inside := "description" :: outer :: rest })
    (s : Option String) :
    runElement file (state s) tag children = (pass children >>= fun _ => named tag).map fun _ =>
      state (addTexts (if tag.name = "description" then children.texts else []) s) := by
  by_cases description : tag.name = "description"
  · have opened : (state s).opening file tag
        = .ok { state s with inside := tag.name :: outer :: rest } := by
      rw [← inside s]
      exact opening_of_foreign (by simp [inside]) foreign (by simp [description])
    rw [runElement_of_kept (fun s => { state s with inside := tag.name :: outer :: rest })
      (fun s content => addText (Text.trimmed content) s) opened (fun _ => rfl) foreign.plain placed
      (by rw [description]; exact each), if_pos description]
    refine congrArg (Except.map · _) (funext fun _ => ?_)
    simp only [← inside (addTexts children.texts s)]
    rfl
  · rw [runElement_of_foreign (inside s) foreign kept (mute description) placed,
      if_neg description]
    rfl

/-! ## The reader between two elements -/

/-- The number that follows the entries of an enum. -/
def nextOf (entries : List EnumEntry) : Nat := entries.foldl (fun _ y => numberAfter y.value) 0

theorem nextOf_concat (entries : List EnumEntry) (y : EnumEntry) :
    nextOf (entries ++ [y]) = numberAfter y.value := by
  rw [nextOf, List.foldl_append]
  rfl

/-- The number that is left from the enums of a definition. -/
def leftOf (enums : List Enum) : Nat := enums.foldl (fun _ e => nextOf e.entries) 0

theorem leftOf_concat (enums : List Enum) (e : Enum) :
    leftOf (enums ++ [e]) = nextOf e.entries := by
  rw [leftOf, List.foldl_append]
  rfl

/-- The reader in an element, when no message and no enum is begun. -/
def between (inside : List String) (d : Definition) : Reader :=
  { inside, definition := d, nextValue := leftOf d.enums }

/-- The reader in a message. -/
def inMessage (d : Definition) (m : MessageDraft) : Reader :=
  { between ["message", "messages", "mavlink"] d with message := some m }

/-- The reader in a field. -/
def inField (d : Definition) (m : MessageDraft) (f : Field) : Reader :=
  { between ["field", "message", "messages", "mavlink"] d with message := some m, field := some f }

/-- The reader in an enum. -/
def inEnum (d : Definition) (e : Enum) : Reader where
  inside := ["enum", "enums", "mavlink"]
  definition := d
  enum := some e
  nextValue := nextOf e.entries

/-- The reader in an entry. -/
def inEntry (d : Definition) (e : Enum) (y : EnumEntry) : Reader where
  inside := ["entry", "enum", "enums", "mavlink"]
  definition := d
  enum := some e
  entry := some y
  nextValue := numberAfter y.value

variable {file : String} {d : Definition} {tag : Tag} {children f : Forest}

/-! ## Messages -/

theorem standsIn_message (h : StandsIn "message" tag.name) :
    tag.name = "field" ∨ tag.name = "extensions" ∨ Foreign tag.name := by
  rcases h.cases with own | foreign
  · have own : tag.name = "field" ∨ tag.name = "extensions" := by simpa [places] using own
    exact own.imp_right .inl
  · exact .inr (.inr foreign)

/-- A field is begun with what its attributes say, for the message that is begun. -/
theorem beginField_eq (r : Reader) :
    r.beginField file tag
      = (fieldOf file ((r.message.map (·.name)).getD "")
          ((r.message.map (·.inExtensions)).getD false) tag).map fun f =>
        { r with field := some f } := by
  simp only [Reader.beginField, fieldOf, bind, Except.bind]
  cases required file tag "name" with
  | error e => rfl
  | ok name =>
    cases required file tag "type" with
    | error e => rfl
    | ok typeName =>
      dsimp only
      cases FieldType.read? typeName with
      | none => rfl
      | some type =>
        cases optional tag "enum" <;> cases optional tag "units" <;> cases optional tag "display" <;>
          cases optional tag "print_format" <;> cases optional tag "invalid" <;> rfl

theorem description_fieldOf {message : String} {isExtension : Bool} {f : Field}
    (h : fieldOf file message isExtension tag = .ok f) : f.description = none := by
  obtain ⟨name, -, h⟩ := exists_of_bind_eq_ok h
  obtain ⟨typeName, -, h⟩ := exists_of_bind_eq_ok h
  split at h
  · cases h
  · obtain ⟨enum, -, h⟩ := exists_of_bind_eq_ok h
    obtain ⟨units, -, h⟩ := exists_of_bind_eq_ok h
    obtain ⟨display, -, h⟩ := exists_of_bind_eq_ok h
    obtain ⟨printFormat, -, h⟩ := exists_of_bind_eq_ok h
    obtain ⟨invalid, -, h⟩ := exists_of_bind_eq_ok h
    cases h
    rfl

/-- A field is put into the message. -/
theorem runElement_field (name : tag.name = "field") (placed : children.Placed tag.name)
    (m : MessageDraft) :
    runElement file (inMessage d m) tag children
      = (readField file m.name m.inExtensions tag children).map fun f =>
        inMessage d { m with fields := m.fields ++ [f] } := by
  have begun : (inMessage d m).beginElement file tag = (inMessage d m).beginField file tag := by
    simp [Reader.beginElement, Reader.isIn, name, inMessage, between]
  have opened : (inMessage d m).opening file tag
      = (fieldOf file m.name m.inExtensions tag).map (inField d m) := by
    rw [Reader.opening, if_neg (by simp [inMessage, between]), begun, beginField_eq, name]
    show (fieldOf file m.name m.inExtensions tag).map _ >>= _ = _
    cases fieldOf file m.name m.inExtensions tag <;> rfl
  rw [runElement, opened, readField]
  cases told : fieldOf file m.name m.inExtensions tag with
  | error e => rfl
  | ok f =>
    rw [name] at placed
    have texts : run file children.events (inField d m f) = (pass children).map fun _ =>
        inField d m { f with description := addTexts children.texts f.description } :=
      run_of_kept (fun s => inField d m { f with description := s })
        (fun s content => addText (Text.trimmed content) s) (fun _ => rfl) (by decide) placed
        (fun _ _ => rfl) f.description
    show run file children.events (inField d m f) >>= Reader.closing = _
    rw [texts, description_fieldOf told, addTexts_none]
    cases pass children <;> rfl

/-- The message when other elements than fields have been read. -/
def MessageDraft.noted (m : MessageDraft) (tag : Tag) (children : Forest) : MessageDraft :=
  { m with
    description :=
      addTexts (if tag.name = "description" then children.texts else []) m.description
    deprecated := m.deprecated || tag.name = "deprecated"
    inExtensions := m.inExtensions || tag.name = "extensions" }

/-- Any other element in a message is noted at most. -/
theorem runElement_message (stands : StandsIn "message" tag.name) (other : tag.name ≠ "field")
    (placed : children.Placed tag.name) (m : MessageDraft) :
    runElement file (inMessage d m) tag children
      = (pass children >>= fun _ => named tag).map fun _ =>
        inMessage d (m.noted tag children) := by
  rcases (standsIn_message stands).resolve_left other with name | foreign
  · have opened : (inMessage d m).opening file tag
        = .ok { inMessage d { m with inExtensions := true } with
          inside := tag.name :: (inMessage d m).inside } := by
      simp [Reader.opening, Reader.beginElement, Reader.isIn, name, inMessage, between]
    have noted : m.noted tag children = { m with inExtensions := true } := by
      simp [MessageDraft.noted, name, addTexts]
    have mute : Mute "message" tag.name := by rw [name]; decide
    rw [runElement_of_mute opened rfl (by rw [name]; decide) mute placed, noted]
    rfl
  by_cases deprecated : tag.name = "deprecated"
  · have opened : (inMessage d m).opening file tag
        = .ok { inMessage d { m with deprecated := true } with
          inside := tag.name :: (inMessage d m).inside } := by
      simp [Reader.opening, Reader.beginElement, Reader.isIn, deprecated, inMessage, between]
    have noted : m.noted tag children = { m with deprecated := true } := by
      simp [MessageDraft.noted, deprecated, addTexts]
    have mute : Mute "message" tag.name := by rw [deprecated]; decide
    rw [runElement_of_mute opened rfl foreign.plain mute placed, noted]
    rfl
  have extensions : tag.name ≠ "extensions" := fun h => by
    rw [h] at foreign
    exact absurd foreign (by decide)
  have noted : m.noted tag children = { m with
      description :=
        addTexts (if tag.name = "description" then children.texts else []) m.description } := by
    simp [MessageDraft.noted, deprecated, extensions]
  have mute (other : tag.name ≠ "description") : Mute "message" tag.name :=
    ⟨foreign.plain.2, by simp [other]⟩
  rw [noted]
  exact runElement_described (fun s => inMessage d { m with description := s }) (fun _ => rfl)
    foreign (fun h => absurd h deprecated) mute placed (fun _ _ => rfl) m.description

/-- The message when its elements have been read, its fields being `fields`. -/
def MessageDraft.grown (m : MessageDraft) (fields : List Field) (f : Forest) : MessageDraft :=
  { m with
    fields := m.fields ++ fields
    description := addTexts (f.textsIn "description") m.description
    deprecated := m.deprecated || f.has "deprecated"
    inExtensions := m.inExtensions || f.has "extensions" }

theorem MessageDraft.grown_field (m : MessageDraft) (name : tag.name = "field") (a : Field)
    (fields : List Field) (rest : Forest) :
    { m with fields := m.fields ++ [a] }.grown fields rest
      = m.grown (a :: fields) (.element tag children rest) := by
  simp [grown, Forest.textsIn, Forest.has, name]

theorem MessageDraft.grown_noted (m : MessageDraft) (fields : List Field) (rest : Forest) :
    (m.noted tag children).grown fields rest
      = m.grown fields (.element tag children rest) := by
  simp [grown, noted, Forest.textsIn, Forest.has, addTexts_append, Bool.or_assoc]

/-- **The elements of a message** are read as they mean. -/
theorem run_message (placed : f.Placed "message") (m : MessageDraft) :
    run file f.events (inMessage d m)
      = (readFields file m.name m.inExtensions f).map fun fields =>
        inMessage d (m.grown fields f) := by
  induction f generalizing m with
  | nil =>
    have grown : m.grown [] .nil = m := by
      simp [MessageDraft.grown, Forest.has, Forest.textsIn, addTexts]
    rw [Forest.events, run_nil, readFields]
    exact congrArg (Except.ok ∘ inMessage d) grown.symm
  | text content rest ih =>
    show run file rest.events (inMessage d m) = _
    exact ih placed m
  | element tag children rest _ ih =>
    obtain ⟨stands, inner, outer⟩ := placed
    rw [run_element, readFields]
    by_cases field : tag.name = "field"
    · rw [if_pos field, runElement_field field inner]
      cases readField file m.name m.inExtensions tag children with
      | error e => rfl
      | ok f =>
        have more := ih outer { m with fields := m.fields ++ [f] }
        show run file rest.events (inMessage d { m with fields := m.fields ++ [f] }) = _
        rw [more]
        show (readFields file m.name m.inExtensions rest).map _ = _
        cases readFields file m.name m.inExtensions rest with
        | error e => rfl
        | ok fields => exact congrArg (Except.ok ∘ inMessage d) (m.grown_field field f fields rest)
    · rw [if_neg field, runElement_message stands field inner]
      refine passed_bind ((ih outer (m.noted tag children)).trans ?_)
      exact congrArg (Except.map · _) (funext fun fields =>
        congrArg (inMessage d) (m.grown_noted fields rest))

theorem closing_inMessage (m : MessageDraft) :
    (inMessage d m).closing
      = ((Message.make m.id m.name m.fields m.description m.deprecated).mapError .schema).map
        fun made => between ["messages", "mavlink"] { d with messages := d.messages ++ [made] } := by
  show Reader.endMessage { inMessage d m with inside := ["messages", "mavlink"] } = _
  unfold Reader.endMessage
  dsimp only [inMessage]
  cases Message.make m.id m.name m.fields m.description m.deprecated <;> rfl

/-- A message is put into the definition. -/
theorem runElement_readMessage (name : tag.name = "message") (placed : children.Placed tag.name) :
    runElement file (between ["messages", "mavlink"] d) tag children
      = (readMessage file tag children).map fun m =>
        between ["messages", "mavlink"] { d with messages := d.messages ++ [m] } := by
  have begun : (between ["messages", "mavlink"] d).beginElement file tag
      = (between ["messages", "mavlink"] d).beginMessage file tag := by
    simp [Reader.beginElement, Reader.isIn, name, between]
  rw [runElement, Reader.opening, if_neg (by simp [between]), begun, name]
  simp only [Reader.beginMessage, readMessage, bind, Except.bind]
  cases required file tag "name" with
  | error e => rfl
  | ok own =>
    cases required file tag "id" with
    | error e => rfl
    | ok value =>
      dsimp only
      cases numberOr file s!"id of message `{own}`" value maxNumber with
      | error e => rfl
      | ok id =>
        rw [name] at placed
        show run file children.events (inMessage d { id, name := own }) >>= Reader.closing = _
        rw [run_message placed]
        dsimp only
        cases readFields file own false children with
        | error e => rfl
        | ok fields =>
          have grown : MessageDraft.grown { id, name := own } fields children
              = { id, name := own, fields,
                  description := description (children.textsIn "description"),
                  deprecated := children.has "deprecated",
                  inExtensions := children.has "extensions" } := by
            simp [MessageDraft.grown, addTexts_none]
          show (inMessage d (MessageDraft.grown { id, name := own } fields children)).closing = _
          rw [grown]
          exact closing_inMessage _

/-! ## Elements of one name -/

/-- Elements of a name that are put into the reader one after the other, and others between them
that mean nothing. -/
theorem run_collect {α : Type} {name outer : String} {rest : List String}
    {read : Tag → Forest → Except ReadingFault α} {state : List α → Reader}
    (inside : ∀ as, (state as).inside = outer :: rest)
    (foreign : ∀ other, StandsIn outer other → other ≠ name →
      Foreign other ∧ outer ≠ "message" ∧ Mute outer other)
    (mute : Mute (rest.headD "") outer)
    (each : ∀ as tag children, tag.name = name → children.Placed tag.name →
      runElement file (state as) tag children
        = (read tag children).map fun a => state (as ++ [a]))
    (placed : f.Placed outer) (as : List α) :
    run file f.events (state as) = (collect name read f).map fun bs => state (as ++ bs) := by
  induction f generalizing as with
  | nil => simp [Forest.events, collect, Except.map]
  | text content f ih =>
    rw [run_text, text_of_mute (by rwa [inside])]
    exact ih placed as
  | element tag children f _ ih =>
    obtain ⟨stands, inner, next⟩ := placed
    rw [run_element, collect]
    by_cases own : tag.name = name
    · rw [if_pos own, each as tag children own inner]
      cases read tag children with
      | error e => rfl
      | ok a =>
        show run file f.events (state (as ++ [a])) = _
        rw [ih next]
        simp only [List.append_assoc, List.singleton_append]
        cases collect name read f <;> rfl
    · obtain ⟨free, other, silent⟩ := foreign tag.name stands own
      rw [if_neg own, runElement_of_foreign (inside as) free (fun _ => other) silent inner]
      exact passed_bind (ih next as)

/-- **The elements of `messages`** are read as they mean. -/
theorem run_messages (placed : f.Placed "messages") :
    run file f.events (between ["messages", "mavlink"] d)
      = (collect "message" (readMessage file) f).map fun ms =>
        between ["messages", "mavlink"] { d with messages := d.messages ++ ms } := by
  have foreign (other : String) (stands : StandsIn "messages" other) (ne : other ≠ "message") :
      Foreign other ∧ "messages" ≠ "message" ∧ Mute "messages" other := by
    have free : Foreign other := stands.foreign (by simpa [places] using Ne.symm ne)
    exact ⟨free, by decide, free.plain.2, by simp⟩
  have each (ms : List Message) (tag : Tag) (children : Forest) (name : tag.name = "message")
      (inner : children.Placed tag.name) :
      runElement file (between ["messages", "mavlink"] { d with messages := d.messages ++ ms })
          tag children
        = (readMessage file tag children).map fun m =>
          between ["messages", "mavlink"] { d with messages := d.messages ++ (ms ++ [m]) } := by
    simp only [runElement_readMessage name inner, List.append_assoc]
  have all := run_collect (fun _ => rfl) foreign (by decide) each placed []
  simpa only [List.append_nil, List.nil_append] using all

/-! ## Enums -/

theorem beginEntry_inEnum (e : Enum) :
    (inEnum d e).beginEntry file tag
      = (entryOf file (nextOf e.entries) tag).map fun y =>
        { inEnum d e with entry := some y, nextValue := numberAfter y.value } := by
  simp only [Reader.beginEntry, entryOf, bind, Except.bind]
  cases required file tag "name" with
  | error e => rfl
  | ok name =>
    cases optional tag "value" with
    | error e => rfl
    | ok value =>
      cases value with
      | none => rfl
      | some value =>
        dsimp only
        cases numberOr file s!"value of enum entry `{name}`" value EnumEntry.maxValue <;> rfl

theorem description_entryOf {next : Nat} {y : EnumEntry} (h : entryOf file next tag = .ok y) :
    y.description = none := by
  obtain ⟨name, -, h⟩ := exists_of_bind_eq_ok h
  obtain ⟨given, -, h⟩ := exists_of_bind_eq_ok h
  cases given with
  | none =>
    cases h
    rfl
  | some value =>
    obtain ⟨n, -, h⟩ := exists_of_bind_eq_ok h
    cases h
    rfl

/-- In an entry only its description counts. -/
theorem run_entry (placed : f.Placed "entry") (e : Enum) (y : EnumEntry) :
    run file f.events (inEntry d e y) = (pass f).map fun _ =>
      inEntry d e { y with description := addTexts (f.textsIn "description") y.description } := by
  induction f generalizing y with
  | nil => rfl
  | text content rest ih =>
    show run file rest.events (inEntry d e y) = _
    exact ih placed y
  | element tag children rest _ ih =>
    obtain ⟨stands, inner, outer⟩ := placed
    have foreign : Foreign tag.name := stands.foreign (by simp [places])
    have mute (other : tag.name ≠ "description") : Mute "entry" tag.name :=
      ⟨foreign.plain.2, by simp [other]⟩
    rw [run_element, runElement_described (fun s => inEntry d e { y with description := s })
      (fun _ => rfl) foreign (by simp) mute inner (fun _ _ => rfl) y.description, pass]
    refine passed_bind ((ih outer _).trans ?_)
    rw [Forest.textsIn, addTexts_append]

theorem closing_inEntry (e : Enum) (y : EnumEntry) :
    (inEntry d e y).closing = .ok (inEnum d { e with entries := e.entries ++ [y] }) := by
  have closed : (inEntry d e y).closing
      = .ok { inEnum d { e with entries := e.entries ++ [y] } with
        nextValue := numberAfter y.value } := rfl
  rw [closed, ← nextOf_concat e.entries]
  rfl

/-- An entry is put into the enum. -/
theorem runElement_entry (name : tag.name = "entry") (placed : children.Placed tag.name)
    (e : Enum) :
    runElement file (inEnum d e) tag children
      = (readEntry file (nextOf e.entries) tag children).map fun y =>
        inEnum d { e with entries := e.entries ++ [y] } := by
  have begun : (inEnum d e).beginElement file tag = (inEnum d e).beginEntry file tag := by
    simp [Reader.beginElement, name, inEnum]
  have opened : (inEnum d e).opening file tag
      = (entryOf file (nextOf e.entries) tag).map (inEntry d e) := by
    rw [Reader.opening, if_neg (by simp [inEnum]), begun, beginEntry_inEnum, name]
    cases entryOf file (nextOf e.entries) tag <;> rfl
  rw [runElement, opened, readEntry]
  cases told : entryOf file (nextOf e.entries) tag with
  | error e => rfl
  | ok y =>
    rw [name] at placed
    show run file children.events (inEntry d e y) >>= Reader.closing = _
    rw [run_entry placed, description_entryOf told, addTexts_none]
    cases pass children with
    | error e => rfl
    | ok _ =>
      exact closing_inEntry (d := d) e
        { y with description := description (children.textsIn "description") }

/-- **The elements of an enum** are read as they mean. -/
theorem run_enum (placed : f.Placed "enum") (e : Enum) :
    run file f.events (inEnum d e)
      = (readEntries file (nextOf e.entries) f).map fun entries =>
        inEnum d { e with
          entries := e.entries ++ entries
          description := addTexts (f.textsIn "description") e.description } := by
  induction f generalizing e with
  | nil => simp [Forest.events, readEntries, Except.map, Forest.textsIn, addTexts]
  | text content rest ih =>
    show run file rest.events (inEnum d e) = _
    exact ih placed e
  | element tag children rest _ ih =>
    obtain ⟨stands, inner, outer⟩ := placed
    rw [run_element, readEntries]
    by_cases entry : tag.name = "entry"
    · rw [if_pos entry, runElement_entry entry inner]
      cases readEntry file (nextOf e.entries) tag children with
      | error e => rfl
      | ok y =>
        show run file rest.events (inEnum d { e with entries := e.entries ++ [y] }) = _
        rw [ih outer, nextOf_concat]
        show (readEntries file (numberAfter y.value) rest).map _ = _
        have silent : Forest.textsIn "description" (.element tag children rest)
            = rest.textsIn "description" := by
          simp [Forest.textsIn, entry]
        rw [silent]
        cases h : readEntries file (numberAfter y.value) rest with
        | error e => simp [h, bind, Except.bind, Except.map]
        | ok entries => simp [h, bind, Except.bind, Except.map, pure, Except.pure]
    · have foreign : Foreign tag.name := stands.foreign (by simpa [places] using Ne.symm entry)
      have mute (other : tag.name ≠ "description") : Mute "enum" tag.name :=
        ⟨foreign.plain.2, by simp [other]⟩
      rw [if_neg entry, runElement_described (fun s => inEnum d { e with description := s })
        (fun _ => rfl) foreign (by simp) mute inner (fun _ _ => rfl) e.description]
      refine passed_bind ((ih outer _).trans ?_)
      rw [Forest.textsIn, addTexts_append]

theorem closing_inEnum (e : Enum) :
    (inEnum d e).closing
      = .ok (between ["enums", "mavlink"] { d with enums := d.enums ++ [e] }) := by
  have closed : (inEnum d e).closing
      = .ok { between ["enums", "mavlink"] { d with enums := d.enums ++ [e] } with
        nextValue := nextOf e.entries } := rfl
  rw [closed, ← leftOf_concat d.enums]
  rfl

/-- An enum is put into the definition. -/
theorem runElement_readEnum (name : tag.name = "enum") (placed : children.Placed tag.name) :
    runElement file (between ["enums", "mavlink"] d) tag children
      = (readEnum file tag children).map fun e =>
        between ["enums", "mavlink"] { d with enums := d.enums ++ [e] } := by
  have begun : (between ["enums", "mavlink"] d).beginElement file tag
      = (between ["enums", "mavlink"] d).beginEnum file tag := by
    simp [Reader.beginElement, Reader.isIn, name, between]
  rw [runElement, Reader.opening, if_neg (by simp [between]), begun, name]
  simp only [Reader.beginEnum, readEnum, bind, Except.bind]
  cases required file tag "name" with
  | error e => rfl
  | ok own =>
    cases optional tag "bitmask" with
    | error e => rfl
    | ok bitmask =>
      rw [name] at placed
      show run file children.events (inEnum d { name := own, bitmask := bitmask = some "true" })
        >>= Reader.closing = _
      rw [run_enum placed]
      show (readEntries file 0 children).map _ >>= _ = _
      dsimp only
      cases readEntries file 0 children with
      | error e => rfl
      | ok entries =>
        rw [addTexts_none]
        exact closing_inEnum (d := d)
          { name := own
            bitmask := bitmask = some "true"
            description := description (children.textsIn "description")
            entries }

/-- **The elements of `enums`** are read as they mean. -/
theorem run_enums (placed : f.Placed "enums") :
    run file f.events (between ["enums", "mavlink"] d)
      = (collect "enum" (readEnum file) f).map fun es =>
        between ["enums", "mavlink"] { d with enums := d.enums ++ es } := by
  have foreign (other : String) (stands : StandsIn "enums" other) (ne : other ≠ "enum") :
      Foreign other ∧ "enums" ≠ "message" ∧ Mute "enums" other := by
    have free : Foreign other := stands.foreign (by simpa [places] using Ne.symm ne)
    exact ⟨free, by decide, free.plain.2, by simp⟩
  have each (es : List Enum) (tag : Tag) (children : Forest) (name : tag.name = "enum")
      (inner : children.Placed tag.name) :
      runElement file (between ["enums", "mavlink"] { d with enums := d.enums ++ es })
          tag children
        = (readEnum file tag children).map fun e =>
          between ["enums", "mavlink"] { d with enums := d.enums ++ (es ++ [e]) } := by
    simp only [runElement_readEnum name inner, List.append_assoc]
  have all := run_collect (fun _ => rfl) foreign (by decide) each placed []
  simpa only [List.append_nil, List.nil_append] using all

/-! ## Definition files -/

/-- A number of a definition file. -/
theorem runElement_number (context : String) (limit : Nat) (state : Option Nat → Reader)
    (inside : ∀ s, (state s).inside = ["mavlink"]) (foreign : Foreign tag.name)
    (name : tag.name = context) (nonempty : context ≠ "") (kept : context ≠ "deprecated")
    (placed : children.Placed tag.name)
    (each : ∀ s content, Reader.text file { state s with inside := [context, "mavlink"] } content
      = (numberOr file context (Text.trimmed content) limit).map fun n =>
        { state (some n) with inside := [context, "mavlink"] })
    (s : Option Nat) :
    runElement file (state s) tag children
      = (readNumber file context limit s children).map state := by
  subst name
  have opened : (state s).opening file tag
      = .ok { state s with inside := [tag.name, "mavlink"] } := by
    rw [← inside s]
    exact opening_of_foreign (by simp [inside]) foreign fun h => absurd h kept
  have numbers : run file children.events { state s with inside := [tag.name, "mavlink"] }
      = (readNumber file tag.name limit s children).map fun s =>
        { state s with inside := [tag.name, "mavlink"] } :=
    run_of_texts (fun s => { state s with inside := [tag.name, "mavlink"] }) _ (fun _ => rfl)
      foreign.plain.1 placed (fun s content => (each s content).trans (by
        cases numberOr file tag.name (Text.trimmed content) limit <;> rfl)) s
  rw [runElement, opened]
  show run file children.events { state s with inside := [tag.name, "mavlink"] }
    >>= Reader.closing = _
  rw [numbers]
  cases readNumber file tag.name limit s children with
  | error e => rfl
  | ok s =>
    show Reader.closing { state s with inside := [tag.name, "mavlink"] } = .ok (state s)
    rw [closing_of_plain rfl foreign.plain, named, if_neg nonempty]
    exact congrArg Except.ok (by simp only [← inside s])

theorem standsIn_mavlink (h : StandsIn "mavlink" tag.name) :
    tag.name = "enums" ∨ tag.name = "messages" ∨ Foreign tag.name := by
  rcases h.cases with own | foreign
  · have own : tag.name = "enums" ∨ tag.name = "messages" := by simpa [places] using own
    exact own.imp_right .inl
  · exact .inr (.inr foreign)

theorem foldl_includes (texts before : List String) :
    texts.foldl (fun s content => s ++ [Text.trimmed content]) before
      = before ++ texts.map Text.trimmed := by
  induction texts generalizing before with
  | nil => simp
  | cons content texts ih => simp [ih]

-- `rfl` in place of these two would unfold the reading of the number, and count up to its limit
theorem text_version (n : Option Nat) (content : String) :
    Reader.text file
        { between ["mavlink"] { d with version := n } with inside := ["version", "mavlink"] } content
      = (numberOr file "version" (Text.trimmed content) 0xFF).map fun n =>
        { between ["mavlink"] { d with version := some n } with
          inside := ["version", "mavlink"] } := by
  simp only [Reader.text, List.tail_cons, List.headD_cons]
  generalize numberOr file "version" (Text.trimmed content) 0xFF = read
  cases read <;> rfl

theorem text_dialect (n : Option Nat) (content : String) :
    Reader.text file
        { between ["mavlink"] { d with dialect := n } with inside := ["dialect", "mavlink"] } content
      = (numberOr file "dialect" (Text.trimmed content) 0xFFFFFFFF).map fun n =>
        { between ["mavlink"] { d with dialect := some n } with
          inside := ["dialect", "mavlink"] } := by
  simp only [Reader.text, List.tail_cons, List.headD_cons]
  generalize numberOr file "dialect" (Text.trimmed content) 0xFFFFFFFF = read
  cases read <;> rfl

/-- An element of a definition file is read as it means. -/
theorem runElement_part (stands : StandsIn "mavlink" tag.name) (placed : children.Placed tag.name) :
    runElement file (between ["mavlink"] d) tag children
      = (readPart file d tag children).map (between ["mavlink"]) := by
  rcases standsIn_mavlink stands with enums | messages | foreign
  · have opened : (between ["mavlink"] d).opening file tag
        = .ok (between ["enums", "mavlink"] d) := by
      simp [Reader.opening, Reader.beginElement, enums, between]
    rw [enums] at placed
    rw [runElement, opened, readPart]
    simp only [enums, String.reduceEq, if_false, if_true]
    show run file children.events (between ["enums", "mavlink"] d) >>= Reader.closing = _
    rw [run_enums placed]
    cases collect "enum" (readEnum file) children <;> rfl
  · have opened : (between ["mavlink"] d).opening file tag
        = .ok (between ["messages", "mavlink"] d) := by
      simp [Reader.opening, Reader.beginElement, messages, between]
    rw [messages] at placed
    rw [runElement, opened, readPart]
    simp only [messages, String.reduceEq, if_false, if_true]
    show run file children.events (between ["messages", "mavlink"] d) >>= Reader.closing = _
    rw [run_messages placed]
    cases collect "message" (readMessage file) children <;> rfl
  rw [readPart]
  split_ifs with includes version dialect enums messages
  · have opened : (between ["mavlink"] d).opening file tag
        = .ok { between ["mavlink"] d with inside := tag.name :: ["mavlink"] } :=
      opening_of_foreign (by simp [between]) foreign (by simp [includes])
    rw [runElement_of_kept (fun s => { between ["mavlink"] { d with includes := s } with
        inside := tag.name :: ["mavlink"] })
      (fun s content => s ++ [Text.trimmed content]) opened (fun _ => rfl) foreign.plain placed
      (fun _ _ => by rw [includes]; rfl), foldl_includes, named, if_neg (by simp [includes])]
    cases pass children <;> rfl
  · rw [runElement_number "version" 0xFF (fun s => between ["mavlink"] { d with version := s })
      (fun _ => rfl) foreign version (by decide) (by decide) placed text_version d.version]
    generalize readNumber file "version" 0xFF d.version children = read
    cases read <;> rfl
  · rw [runElement_number "dialect" 0xFFFFFFFF (fun s => between ["mavlink"] { d with dialect := s })
      (fun _ => rfl) foreign dialect (by decide) (by decide) placed text_dialect d.dialect]
    generalize readNumber file "dialect" 0xFFFFFFFF d.dialect children = read
    cases read <;> rfl
  · rw [enums] at foreign
    exact absurd foreign (by decide)
  · rw [messages] at foreign
    exact absurd foreign (by decide)
  · have mute : Mute "mavlink" tag.name :=
      ⟨foreign.plain.2, by simp [includes, version, dialect]⟩
    rw [runElement_of_foreign rfl foreign (by simp) mute placed]
    cases pass children with
    | error e => rfl
    | ok _ => cases named tag <;> rfl

/-- **The elements of a definition file** are read as they mean. -/
theorem run_parts (placed : f.Placed "mavlink") :
    run file f.events (between ["mavlink"] d) = (readParts file d f).map (between ["mavlink"]) := by
  induction f generalizing d with
  | nil => rfl
  | text content rest ih => exact ih placed
  | element tag children rest _ ih =>
    obtain ⟨stands, inner, outer⟩ := placed
    rw [run_element, readParts, runElement_part stands inner]
    cases readPart file d tag children with
    | error e => rfl
    | ok d => exact ih outer

/-- The outermost element, and the end of the text. -/
theorem run_root (root : tag.name = "mavlink") (placed : children.Placed tag.name) :
    run file ((Forest.element tag children .nil).events ++ [.finished]) {}
      = (readParts file {} children).map (between []) := by
  rw [root] at placed
  have opened : Reader.opening file {} tag = .ok (between ["mavlink"] {}) := by
    simp [Reader.opening, Reader.beginElement, Reader.isIn, root, between, leftOf]
  rw [run_append, run_element, runElement, opened]
  show ((run file children.events (between ["mavlink"] {}) >>= Reader.closing) >>= _) >>= _ = _
  rw [run_parts placed]
  cases readParts file {} children <;> rfl

/-- **The events of a definition file are read as its tree.**  Suppose that an element `mavlink` is
spelled by events, and that all elements of the schema in it stand in their places.  Then the
reader answers to these events what the elements mean: the same definition, or the same error; and
a fault of the markup, in an attribute or by an element without a name, as the same fault. -/
theorem readEvents_spelled (root : tag.name = "mavlink") (placed : children.Placed tag.name)
    {es : List Event} (spelled : (Forest.element tag children .nil).Spells es) (total : Nat)
    (places : List (List Char × Event)) (told : places.map (·.2) = es ++ [.finished]) :
    Told file (readParts file {} children) (readEvents file total {} places) := by
  have answer := told_readEvents file {} total places
  rw [told, run_append, run_of_spells file {} spelled, ← run_append, run_root root placed] at answer
  cases h : readParts file {} children with
  | error e => rwa [h] at answer
  | ok d => rwa [h] at answer

/-- A message with a field, a mark before the extensions, an element that means nothing and an
extension. -/
theorem readEvents_message :
    let es : List Event := [.opening ⟨"mavlink", []⟩, .opening ⟨"messages", []⟩,
      .opening ⟨"message", " id='1' name='A'".toList⟩,
      .opening ⟨"field", " type='uint8_t' name='a'".toList⟩, .text " first ", .closing,
      .opening ⟨"extensions", []⟩, .closing,
      .opening ⟨"x", []⟩, .opening ⟨"description", []⟩, .text "nothing", .closing, .closing,
      .opening ⟨"field", " name='b' type='char[4]'".toList⟩, .closing, .closing, .closing, .closing]
    ∃ d, readEvents "e.xml" 0 {} ((es ++ [Event.finished]).map fun e => ([], e)) = .ok d ∧
      d.messages.map (fun m => m.fields.map fun f => (f.name, f.isExtension, f.description))
        = [[("a", false, some "first"), ("b", true, none)]] := by
  intro es
  let children : Forest := .element ⟨"messages", []⟩
    (.element ⟨"message", " id='1' name='A'".toList⟩
      (.element ⟨"field", " type='uint8_t' name='a'".toList⟩ (.text " first " .nil)
      (.element ⟨"extensions", []⟩ .nil
      (.element ⟨"x", []⟩ (.element ⟨"description", []⟩ (.text "nothing" .nil) .nil)
      (.element ⟨"field", " name='b' type='char[4]'".toList⟩ .nil .nil)))) .nil) .nil
  have spelled : (Forest.element ⟨"mavlink", []⟩ children .nil).Spells es := Forest.spells_events _
  have told : Told "e.xml" (readParts "e.xml" {} children)
      (readEvents "e.xml" 0 {} ((es ++ [Event.finished]).map fun e => ([], e))) :=
    readEvents_spelled rfl (by decide) spelled 0 _ rfl
  have meant : (readParts "e.xml" {} children).toOption.map (fun d =>
      d.messages.map fun m => m.fields.map fun f => (f.name, f.isExtension, f.description))
      = some [[("a", false, some "first"), ("b", true, none)]] := by decide +kernel
  cases read : readParts "e.xml" {} children with
  | error fault =>
    rw [read] at meant
    cases meant
  | ok d =>
    rw [read] at told meant
    exact ⟨d, told.eq_ok, Option.some.inj meant⟩

end Schema
end Mavlink
