import Mathlib
import Mavlink.Schema.Dialect
import Mavlink.Schema.Reading

/-!
# Trees of elements

Events whose opening and closing tags match are a way to write down texts and elements that stand
one after the other, with others in them.  An element with nothing in it can be written with one
tag or with two.

* `Forest`, `Forest.Spells` --- elements in elements, and the events that spell them;
* `Schema.run`, `Schema.run_of_spells` --- the reader over events, for which it does not matter
  which of its spellings a forest has;
* `Forest.Placed`, `Schema.Foreign` --- elements in their places, and those that have none;
* `Schema.run_of_mute`, `Schema.runElement_of_foreign` --- what means nothing is passed over;
* `Schema.run_of_inert`, `Schema.runElement_of_kept` --- or nothing is read of it but its texts.
-/

namespace Mavlink

open Markup (Event Tag)

/-- Texts and elements that stand one after the other. -/
inductive Forest where
  | nil
  | text (content : String) (rest : Forest)
  | element (tag : Tag) (children rest : Forest)

namespace Forest

/-- The events of a forest, with two tags for every element. -/
def events : Forest → List Event
  | nil => []
  | text content rest => .text content :: rest.events
  | element tag children rest => .opening tag :: (children.events ++ .closing :: rest.events)

/-- Events that are properly nested, and the forest that they are the events of. -/
inductive Spells : Forest → List Event → Prop where
  | nil : Spells nil []
  | text {content : String} {rest : Forest} {es : List Event} :
      Spells rest es → Spells (text content rest) (.text content :: es)
  | empty {tag : Tag} {rest : Forest} {es : List Event} :
      Spells rest es → Spells (element tag nil rest) (.empty tag :: es)
  | element {tag : Tag} {children rest : Forest} {inner es : List Event} :
      Spells children inner → Spells rest es →
        Spells (element tag children rest) (.opening tag :: (inner ++ .closing :: es))

theorem spells_events (f : Forest) : f.Spells f.events := by
  induction f with
  | nil => exact .nil
  | text content rest ih => exact .text ih
  | element tag children rest inner after => exact .element inner after

/-- The texts that stand in a forest, but not those in its elements. -/
def texts : Forest → List String
  | nil => []
  | text content rest => content :: rest.texts
  | element _ _ rest => rest.texts

/-- The texts in the elements of a name. -/
def textsIn (name : String) : Forest → List String
  | nil => []
  | text _ rest => rest.textsIn name
  | element tag children rest =>
    (if tag.name = name then children.texts else []) ++ rest.textsIn name

/-- Whether an element of a name stands in a forest. -/
def has (name : String) : Forest → Bool
  | nil => false
  | text _ rest => rest.has name
  | element tag _ rest => tag.name = name || rest.has name

end Forest

namespace Schema

/-! ## The reader over events -/

/-- Reads events, but for placing a fault. -/
def run (file : String) (es : List Event) (r : Reader) : Except ReadingFault Reader :=
  es.foldlM (Reader.read file) r

variable (file : String) (r : Reader)

@[simp] theorem run_nil : run file [] r = .ok r := rfl

theorem run_cons (e : Event) (es : List Event) :
    run file (e :: es) r = r.read file e >>= run file es := rfl

theorem run_append (es fs : List Event) :
    run file (es ++ fs) r = run file es r >>= run file fs := List.foldlM_append

theorem run_text (content : String) (rest : Forest) :
    run file (Forest.text content rest).events r
      = r.text file content >>= run file rest.events := rfl

/-- What is done with an element: it is opened, what is in it is read, and it is closed. -/
def runElement (r : Reader) (tag : Tag) (children : Forest) : Except ReadingFault Reader := do
  (← run file children.events (← r.opening file tag)).closing

theorem run_element (tag : Tag) (children rest : Forest) :
    run file (Forest.element tag children rest).events r
      = runElement file r tag children >>= run file rest.events := by
  rw [Forest.events, run_cons, runElement, bind_assoc]
  refine bind_congr fun r => ?_
  rw [run_append, bind_assoc]
  rfl

/-- **The spelling does not matter** to the reader. -/
theorem run_of_spells {f : Forest} {es : List Event} (h : f.Spells es) :
    run file es r = run file f.events r := by
  induction h generalizing r with
  | nil => rfl
  | text _ ih => exact bind_congr ih
  | empty _ ih =>
    rw [run_element, run_cons]
    exact bind_congr ih
  | element _ _ inner after =>
    rw [run_element, run_cons, runElement, bind_assoc]
    refine bind_congr fun r => ?_
    rw [run_append, inner, bind_assoc]
    exact bind_congr fun r => bind_congr after

/-! ## The place of a fault -/

/-- The answer to a definition file, if `x` is what is read of its events.  A fault of the markup
is placed somewhere. -/
inductive Told (file : String) : Except ReadingFault Definition → Except SchemaError Definition → Prop
  | definition (d : Definition) : Told file (.ok d) (.ok d)
  | schema (e : SchemaError) : Told file (.error (.schema e)) (.error e)
  | markup (position : Nat) (fault : MarkupFault) :
      Told file (.error (.markup fault)) (.error (.markup file position fault))

theorem Told.eq_ok {file : String} {d : Definition} {x : Except SchemaError Definition}
    (h : Told file (.ok d) x) : x = .ok d := by
  cases h
  rfl

theorem Told.ok_eq {file : String} {d : Definition} {x : Except ReadingFault Definition}
    (h : Told file x (.ok d)) : x = .ok d := by
  cases h
  rfl

theorem told_readEvents (total : Nat) (places : List (List Char × Event)) :
    Told file ((run file (places.map (·.2)) r).map (·.definition))
      (readEvents file total r places) := by
  induction places generalizing r with
  | nil => exact .definition _
  | cons p places ih =>
    obtain ⟨place, e⟩ := p
    rw [List.map_cons, run_cons]
    unfold readEvents
    cases r.read file e with
    | ok r => exact ih r
    | error fault =>
      cases fault with
      | markup fault => exact .markup _ fault
      | schema error => exact .schema error

/-! ## Elements that mean nothing -/

/-- The elements of a definition file, each with the one in which it has its place. -/
def places : List (String × String) := [("enums", "mavlink"), ("messages", "mavlink"),
  ("enum", "enums"), ("entry", "enum"), ("message", "messages"), ("field", "message"),
  ("extensions", "message")]

/-- An element of a name may stand in an element: the outermost element in none, the elements of
a definition file in their places, and any others anywhere. -/
def StandsIn (outer name : String) : Prop :=
  name ≠ "mavlink" ∧ ∀ p ∈ places, p.1 = name → p.2 = outer

instance (outer name : String) : Decidable (StandsIn outer name) := by
  unfold StandsIn; infer_instance

end Schema

/-- All elements in a forest, and all elements in them, stand where they belong. -/
def Forest.Placed (outer : String) : Forest → Prop
  | nil => True
  | text _ rest => rest.Placed outer
  | element tag children rest =>
    Schema.StandsIn outer tag.name ∧ children.Placed tag.name ∧ rest.Placed outer

instance Forest.decidablePlaced (outer : String) : (f : Forest) → Decidable (f.Placed outer)
  | .nil => isTrue trivial
  | .text _ rest => decidablePlaced outer rest
  | .element tag children rest =>
    have := decidablePlaced tag.name children
    have := decidablePlaced outer rest
    inferInstanceAs (Decidable (_ ∧ _ ∧ _))

namespace Schema

/-- The name of an element that is passed over.  One without a name is found out when it closes. -/
def named (tag : Tag) : Except ReadingFault Unit :=
  if tag.name = "" then .error (.markup .unexpectedClosing) else .ok ()

/-- What stands between the texts of an element is passed over. -/
def pass : Forest → Except ReadingFault Unit
  | .nil => .ok ()
  | .text _ rest => pass rest
  | .element tag children rest => do
    pass children
    named tag
    pass rest

/-- The texts of an element, in order; what stands between them is passed over. -/
def foldTexts {σ : Type} (act : σ → String → Except ReadingFault σ) :
    σ → Forest → Except ReadingFault σ
  | s, .nil => .ok s
  | s, .text content rest => do foldTexts act (← act s content) rest
  | s, .element tag children rest => do
    pass children
    named tag
    foldTexts act s rest

/-- What comes after an element that is passed over. -/
theorem passed_bind {α β σ : Type} {tag : Tag} {children : Forest} {s : σ}
    {next : σ → Except ReadingFault β} {x : Except ReadingFault α} {g : α → β}
    (after : next s = x.map g) :
    ((pass children >>= fun _ => named tag).map fun _ => s) >>= next
      = Except.map g (do pass children; named tag; x) := by
  cases pass children with
  | error e => rfl
  | ok _ =>
    cases named tag with
    | error e => rfl
    | ok _ => exact after

theorem foldTexts_map {σ τ : Type} {act : σ → String → Except ReadingFault σ}
    {act' : τ → String → Except ReadingFault τ} (f : σ → τ)
    (each : ∀ s content, act' (f s) content = (act s content).map f) (s : σ) (children : Forest) :
    foldTexts act' (f s) children = (foldTexts act s children).map f := by
  induction children generalizing s with
  | nil => rfl
  | text content rest ih =>
    rw [foldTexts, foldTexts, each]
    cases act s content with
    | error e => rfl
    | ok s => exact ih s
  | element tag children rest _ ih =>
    rw [foldTexts, foldTexts, ih]
    cases pass children <;> cases named tag <;> rfl

theorem foldTexts_ok {σ : Type} (step : σ → String → σ) (s : σ) (children : Forest) :
    foldTexts (fun s content => .ok (step s content)) s children
      = (pass children).map fun _ => children.texts.foldl step s := by
  induction children generalizing s with
  | nil => rfl
  | text content rest ih => exact ih (step s content)
  | element tag children rest _ ih =>
    rw [foldTexts, ih, pass]
    cases pass children <;> cases named tag <;> rfl

/-- An element that has no place of its own in a definition file. -/
def Foreign (name : String) : Prop := name ≠ "mavlink" ∧ ∀ p ∈ places, p.1 ≠ name

/-- An element in which no element of a definition file has its place. -/
def Inert (name : String) : Prop :=
  name ∉ ["mavlink", "enums", "enum", "entry", "messages", "message"]

/-- An element that closes without leaving anything. -/
def Plain (name : String) : Prop := Inert name ∧ name ≠ "field"

instance (name : String) : Decidable (Foreign name) := by unfold Foreign; infer_instance
instance (name : String) : Decidable (Inert name) := by unfold Inert; infer_instance
instance (name : String) : Decidable (Plain name) := by unfold Plain; infer_instance

theorem StandsIn.cases {outer name : String} (h : StandsIn outer name) :
    (name, outer) ∈ places ∨ Foreign name := by
  by_cases placed : ∃ p ∈ places, p.1 = name
  · obtain ⟨⟨_, home⟩, mem, rfl⟩ := placed
    obtain rfl := h.2 _ mem rfl
    exact .inl mem
  · exact .inr ⟨h.1, fun p mem own => placed ⟨p, mem, own⟩⟩

/-- What stands in an element and has no place in it has no place at all. -/
theorem StandsIn.foreign {outer name : String} (h : StandsIn outer name)
    (other : ∀ p ∈ places, p.2 = outer → p.1 ≠ name) : Foreign name :=
  h.cases.resolve_left fun own => other _ own rfl rfl

theorem Foreign.plain {name : String} (h : Foreign name) : Plain name := by
  obtain ⟨root, nowhere⟩ := h
  simp only [places, List.forall_mem_cons] at nowhere
  obtain ⟨enums, messages, enum, entry, message, field, -⟩ := nowhere
  simp only [Plain, Inert, List.mem_cons, List.not_mem_nil, or_false, not_or]
  exact ⟨⟨root, enums.symm, enum.symm, entry.symm, messages.symm, message.symm⟩, field.symm⟩

/-- In an inert element everything is foreign. -/
theorem foreign_of_inert {outer name : String} (inert : Inert outer) (h : StandsIn outer name) :
    Foreign name := by
  have homes : places.map (·.2) ⊆ ["mavlink", "enums", "enum", "entry", "messages", "message"] := by
    decide
  exact h.cases.resolve_left fun own => inert (homes (List.mem_map.2 ⟨_, own, rfl⟩))

/-- A text in an element means nothing. -/
def Mute (outer name : String) : Prop :=
  name ≠ "field" ∧ (outer, name) ∉ [("mavlink", "include"), ("mavlink", "version"),
    ("mavlink", "dialect"), ("message", "description"), ("enum", "description"),
    ("entry", "description")]

instance (outer name : String) : Decidable (Mute outer name) := by unfold Mute; infer_instance

theorem Inert.mute {outer name : String} (inert : Inert outer) (foreign : Foreign name) :
    Mute outer name := by
  refine ⟨foreign.plain.2, fun h => inert ?_⟩
  simp only [List.mem_cons, List.not_mem_nil, or_false, Prod.mk.injEq] at h ⊢
  tauto

variable {file : String} {r : Reader}

theorem text_of_mute (mute : Mute (r.inside.tail.headD "") (r.inside.headD "")) (content : String) :
    r.text file content = .ok r := by
  obtain ⟨field, listed⟩ := mute
  unfold Reader.text
  split <;> simp_all

theorem inside_text {r' : Reader} {content : String} (h : r.text file content = .ok r') :
    r'.inside = r.inside := by
  unfold Reader.text at h
  dsimp only at h
  split at h
  all_goals first
    | (obtain ⟨n, -, h⟩ := exists_of_bind_eq_ok h; cases h; rfl)
    | (cases h; rfl)

theorem opening_of_foreign {tag : Tag} (within : r.inside ≠ []) (foreign : Foreign tag.name)
    (kept : tag.name = "deprecated" → r.isIn "message" = false) :
    r.opening file tag = .ok { r with inside := tag.name :: r.inside } := by
  have other (name : String) (own : ¬Foreign name) : tag.name ≠ name := by
    rintro rfl
    exact own foreign
  have passed : r.beginElement file tag = .ok r := by
    unfold Reader.beginElement
    rw [if_neg fun h => other "enum" (by decide) h.1, if_neg fun h => other "entry" (by decide) h.1,
      if_neg fun h => other "message" (by decide) h.1,
      if_neg fun h => other "extensions" (by decide) h.1,
      if_neg fun h => Bool.eq_false_iff.1 (kept h.1) h.2,
      if_neg fun h => other "field" (by decide) h.1]
  rw [Reader.opening, if_neg fun h => within h.1, passed]
  rfl

theorem closing_of_plain {tag : Tag} {rest : List String} (inside : r.inside = tag.name :: rest)
    (plain : Plain tag.name) :
    r.closing = (named tag).map fun _ => { r with inside := rest } := by
  obtain ⟨inert, field⟩ := plain
  unfold Reader.closing named
  simp only [inside, List.headD_cons, List.tail_cons]
  split
  · exact absurd ‹_› field
  · exact absurd ‹_› fun h => inert (by simp [h])
  · exact absurd ‹_› fun h => inert (by simp [h])
  · exact absurd ‹_› fun h => inert (by simp [h])
  · rw [if_pos ‹_›]
    rfl
  · rw [if_neg ‹_›]
    rfl

variable {tag : Tag} {children : Forest} {r' : Reader} {name : String} {rest : List String}

/-- In an inert element no element begins anything. -/
theorem opening_of_inert (inside : r.inside = name :: rest) (inert : Inert name)
    (stands : StandsIn name tag.name) :
    r.opening file tag = .ok { r with inside := tag.name :: r.inside } ∧ Foreign tag.name ∧
      Mute (r.inside.headD "") tag.name := by
  have foreign : Foreign tag.name := foreign_of_inert inert stands
  have other : name ≠ "message" := fun h => inert (by simp [h])
  have kept : r.isIn "message" = false := by simpa [Reader.isIn, inside] using other
  refine ⟨opening_of_foreign (by simp [inside]) foreign fun _ => kept, foreign, ?_⟩
  rw [inside]
  exact inert.mute foreign

/-- An element that leaves nothing when it closes, if nothing in it means anything. -/
theorem runElement_of_pass (opened : r.opening file tag = .ok r')
    (inside : r'.inside = tag.name :: rest) (plain : Plain tag.name)
    (passed : run file children.events r' = (pass children).map fun _ => r') :
    runElement file r tag children
      = (pass children >>= fun _ => named tag).map fun _ => { r' with inside := rest } := by
  rw [runElement, opened]
  show run file children.events r' >>= Reader.closing = _
  rw [passed]
  cases pass children with
  | error e => rfl
  | ok _ => exact closing_of_plain inside plain

/-- What is in an element that means nothing is passed over. -/
theorem run_of_mute {f : Forest} (inside : r.inside = name :: rest)
    (mute : Mute (rest.headD "") name) (inert : Inert name) (placed : f.Placed name) :
    run file f.events r = (pass f).map fun _ => r := by
  induction f generalizing name rest r with
  | nil => rfl
  | text content f ih =>
    rw [run_text, text_of_mute (by rwa [inside])]
    exact ih inside mute inert placed
  | element tag children f within after =>
    obtain ⟨stands, inner, outer⟩ := placed
    obtain ⟨opened, foreign, muted⟩ := opening_of_inert inside inert stands
    rw [run_element, runElement_of_pass opened rfl foreign.plain
      (within rfl muted foreign.plain.1 inner), pass]
    exact passed_bind (after inside mute inert outer)

/-- An element that means nothing, but for what its opening does. -/
theorem runElement_of_mute (opened : r.opening file tag = .ok r')
    (inside : r'.inside = tag.name :: rest) (plain : Plain tag.name)
    (mute : Mute (rest.headD "") tag.name) (placed : children.Placed tag.name) :
    runElement file r tag children
      = (pass children >>= fun _ => named tag).map fun _ => { r' with inside := rest } :=
  runElement_of_pass opened inside plain (run_of_mute inside mute plain.1 placed)

/-- An element that means nothing where it stands. -/
theorem runElement_of_foreign (inside : r.inside = name :: rest) (foreign : Foreign tag.name)
    (kept : tag.name = "deprecated" → name ≠ "message") (mute : Mute name tag.name)
    (placed : children.Placed tag.name) :
    runElement file r tag children = (pass children >>= fun _ => named tag).map fun _ => r := by
  have opened : r.opening file tag = .ok { r with inside := tag.name :: r.inside } :=
    opening_of_foreign (by simp [inside]) foreign fun h => by
      simpa [Reader.isIn, inside] using kept h
  rw [runElement_of_mute opened rfl foreign.plain (by rwa [inside]) placed]

/-- In an inert element nothing is read but its texts. -/
theorem run_of_inert {f : Forest} (inside : r.inside = name :: rest)
    (inert : Inert name) (placed : f.Placed name) :
    run file f.events r = foldTexts (Reader.text file) r f := by
  induction f generalizing r with
  | nil => rfl
  | text content f ih =>
    rw [run_text, foldTexts]
    cases told : r.text file content with
    | error e => rfl
    | ok r' => exact ih ((inside_text told).trans inside) placed
  | element tag children f _ after =>
    obtain ⟨stands, inner, outer⟩ := placed
    have foreign : Foreign tag.name := foreign_of_inert inert stands
    have other : name ≠ "message" := fun h => inert (by simp [h])
    rw [run_element, runElement_of_foreign inside foreign (fun _ => other) (inert.mute foreign) inner,
      foldTexts]
    cases pass children with
    | error e => rfl
    | ok _ =>
      cases named tag with
      | error e => rfl
      | ok _ => exact after inside outer

section Texts

variable {σ : Type} (state : σ → Reader)

/-- The texts of an inert element, if what they do is done to a part of the reader. -/
theorem run_of_texts (act : σ → String → Except ReadingFault σ)
    (inside : ∀ s, (state s).inside = name :: rest) (inert : Inert name)
    (placed : children.Placed name)
    (each : ∀ s content, (state s).text file content = (act s content).map state) (s : σ) :
    run file children.events (state s) = (foldTexts act s children).map state := by
  rw [run_of_inert (inside s) inert placed, foldTexts_map state each]

/-- The texts of an inert element, if nothing is wrong with any of them. -/
theorem run_of_kept (step : σ → String → σ) (inside : ∀ s, (state s).inside = name :: rest)
    (inert : Inert name) (placed : children.Placed name)
    (each : ∀ s content, (state s).text file content = .ok (state (step s content))) (s : σ) :
    run file children.events (state s)
      = (pass children).map fun _ => state (children.texts.foldl step s) := by
  rw [run_of_texts state (fun s content => .ok (step s content)) inside inert placed each,
    foldTexts_ok]
  cases pass children <;> rfl

/-- An element whose texts are kept. -/
theorem runElement_of_kept (step : σ → String → σ) {s : σ}
    (opened : r.opening file tag = .ok (state s))
    (inside : ∀ s, (state s).inside = tag.name :: rest) (plain : Plain tag.name)
    (placed : children.Placed tag.name)
    (each : ∀ s content, (state s).text file content = .ok (state (step s content))) :
    runElement file r tag children = (pass children >>= fun _ => named tag).map fun _ =>
      { state (children.texts.foldl step s) with inside := rest } := by
  rw [runElement, opened]
  show run file children.events (state s) >>= Reader.closing = _
  rw [run_of_kept state step inside plain.1 placed each]
  cases pass children with
  | error e => rfl
  | ok _ => exact closing_of_plain (inside _) plain

end Texts

end Schema
end Mavlink
