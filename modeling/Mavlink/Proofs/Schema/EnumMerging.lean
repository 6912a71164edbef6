import Mathlib
import Mavlink.Proofs.Schema.IncludeOrder

/-!
# The entries of merged enumerations

An enumeration is written in elements, any number of them in any of the files that are loaded.
The first element is taken as it stands.  Every entry of a later element is compared with what
was collected before, and either it says nothing new, or it has a new name and a new number, or
it is refused.  So two entries of a loaded enumeration share a name or a number only if the
first element has two such entries: nothing compares the entries of that element with each
other.

* `Enum.addEntry_outcome` --- the three things that can become of an entry;
* `Enum.Grown` --- what later elements add to the entries of the first, kept by every step;
* `Dialect.mergeEnums_outcome` --- merging comes to enumerations that have grown so, or to an
  entry that contradicts one before it;
* `Dialect.entries_of_load` --- the entries of a loaded dialect are distinct just if those of
  the first elements are.
-/

namespace Mavlink

namespace EnumEntry

/-- Two entries give the same number to the same name. -/
def Same (a b : EnumEntry) : Prop := a.name = b.name ∧ a.value = b.value

/-- Two entries share neither the name nor the number. -/
def Apart (a b : EnumEntry) : Prop := a.name ≠ b.name ∧ a.value ≠ b.value

/-- Two entries give two numbers to one name, or two names to one number. -/
def Conflicts (a b : EnumEntry) : Prop := ¬ (a.name = b.name ↔ a.value = b.value)

/-- No two entries share a name, and no two share a number. -/
def Distinct (entries : List EnumEntry) : Prop := entries.Pairwise Apart

theorem Apart.symm {a b : EnumEntry} (h : a.Apart b) : b.Apart a := ⟨h.1.symm, h.2.symm⟩

instance : Std.Symm Apart := ⟨fun _ _ => Apart.symm⟩

theorem Same.not_conflicts {a b c d : EnumEntry} (h : a.Same b) (h' : c.Same d)
    (either : a = c ∨ a.Apart c) : ¬ b.Conflicts d := by
  obtain ⟨name, value⟩ := h
  obtain ⟨name', value'⟩ := h'
  intro conflict
  apply conflict
  rw [← name, ← value, ← name', ← value']
  rcases either with rfl | ⟨other_name, other_value⟩
  · exact iff_of_true rfl rfl
  · exact iff_of_false other_name other_value

/-- Entries that stand for distinct ones do not contradict each other. -/
theorem Distinct.not_conflicts {entries : List EnumEntry} (h : Distinct entries)
    {a b c d : EnumEntry} (ha : a ∈ entries) (hc : c ∈ entries) (hb : a.Same b) (hd : c.Same d) :
    ¬ b.Conflicts d := by
  apply hb.not_conflicts hd
  by_cases one : a = c
  · exact .inl one
  · exact .inr (h.forall ha hc one)

end EnumEntry

namespace Enum

open EnumEntry

/-! ## One entry -/

/-- **What becomes of an entry.**  It has nothing in common with the entries before and is
added, or it is there already, or it contradicts one of them and is refused. -/
theorem addEntry_outcome (enum : String) (entries : List EnumEntry) (new : EnumEntry) :
    ((∀ a ∈ entries, a.Apart new) ∧ addEntry enum entries new = .ok (entries ++ [new])) ∨
      ((∃ a ∈ entries, a.Same new) ∧ addEntry enum entries new = .ok entries) ∨
      ((∃ a ∈ entries, a.Conflicts new) ∧
        addEntry enum entries new = .error (.conflictingEnumEntry enum new.name)) := by
  unfold addEntry
  cases named : entries.find? (·.name = new.name) with
  | none =>
    have other_name : ∀ a ∈ entries, a.name ≠ new.name := by
      simpa using List.find?_eq_none.1 named
    cases valued : entries.find? (·.value = new.value) with
    | none =>
      have other_value : ∀ a ∈ entries, a.value ≠ new.value := by
        simpa using List.find?_eq_none.1 valued
      exact .inl ⟨fun a mem => ⟨other_name a mem, other_value a mem⟩, rfl⟩
    | some b =>
      have mem := List.mem_of_find?_eq_some valued
      have value : b.value = new.value := by simpa using List.find?_some valued
      exact .inr (.inr ⟨⟨b, mem, fun same => other_name b mem (same.2 value)⟩, rfl⟩)
  | some a =>
    have mem := List.mem_of_find?_eq_some named
    have name : a.name = new.name := by simpa using List.find?_some named
    cases valued : entries.find? (·.value = new.value) with
    | none =>
      have other_value : ∀ a ∈ entries, a.value ≠ new.value := by
        simpa using List.find?_eq_none.1 valued
      exact .inr (.inr ⟨⟨a, mem, fun same => other_value a mem (same.1 name)⟩, rfl⟩)
    | some b =>
      have mem' := List.mem_of_find?_eq_some valued
      have value : b.value = new.value := by simpa using List.find?_some valued
      by_cases same : a.name = b.name
      · exact .inr (.inl ⟨⟨b, mem', same.symm.trans name, value⟩, if_pos same⟩)
      · refine .inr (.inr ⟨⟨b, mem', fun both => same ?_⟩, if_neg same⟩)
        exact name.trans (both.2 value).symm

/-! ## The entries of elements -/

/-- What the entries of later elements make of the entries of the first one: those that have
nothing in common with any before are added, and all others are there already. -/
structure Grown (first later entries : List EnumEntry) : Prop where
  added : ∃ added, entries = first ++ added ∧ added.Sublist later ∧ Distinct added ∧
    ∀ a ∈ first, ∀ b ∈ added, a.Apart b
  covered : ∀ new ∈ later, ∃ a ∈ entries, a.Same new

namespace Grown

variable {first later entries : List EnumEntry}

theorem start (first : List EnumEntry) : Grown first [] first :=
  ⟨⟨[], (List.append_nil first).symm, .slnil, .nil, fun _ _ => nofun⟩, nofun⟩

theorem pass (h : Grown first later entries) {new : EnumEntry} (there : ∃ a ∈ entries, a.Same new) :
    Grown first (later ++ [new]) entries := by
  obtain ⟨⟨added, rfl, taken, distinct, apart⟩, covered⟩ := h
  refine ⟨⟨added, rfl, taken.trans (List.sublist_append_left ..), distinct, apart⟩, ?_⟩
  intro b mem
  rcases List.mem_append.1 mem with before | last
  · exact covered b before
  · exact List.mem_singleton.1 last ▸ there

theorem append (h : Grown first later entries) {new : EnumEntry}
    (apart_new : ∀ a ∈ entries, a.Apart new) :
    Grown first (later ++ [new]) (entries ++ [new]) := by
  obtain ⟨⟨added, rfl, taken, distinct, apart⟩, covered⟩ := h
  refine ⟨⟨added ++ [new], List.append_assoc .., taken.append (.refl _), ?_, ?_⟩, ?_⟩
  · refine List.pairwise_append.2 ⟨distinct, List.pairwise_singleton .., ?_⟩
    intro a ha b hb
    exact List.mem_singleton.1 hb ▸ apart_new a (List.mem_append_right _ ha)
  · intro a ha b hb
    rcases List.mem_append.1 hb with hb | hb
    · exact apart a ha b hb
    · exact List.mem_singleton.1 hb ▸ apart_new a (List.mem_append_left _ ha)
  · intro b mem
    rcases List.mem_append.1 mem with before | last
    · obtain ⟨a, ha, same⟩ := covered b before
      exact ⟨a, List.mem_append_left _ ha, same⟩
    · obtain rfl := List.mem_singleton.1 last
      exact ⟨b, List.mem_append_right _ last, rfl, rfl⟩

/-- An enumeration has distinct entries just if its first element has. -/
theorem distinct_iff (h : Grown first later entries) : Distinct entries ↔ Distinct first := by
  obtain ⟨⟨added, rfl, -, distinct, apart⟩, -⟩ := h
  constructor
  · exact fun all => (List.pairwise_append.1 all).1
  · exact fun own => List.pairwise_append.2 ⟨own, distinct, apart⟩

/-- Every entry that was written stands in the enumeration. -/
theorem mem (h : Grown first later entries) {b : EnumEntry} (written : b ∈ first ++ later) :
    ∃ a ∈ entries, a.Same b := by
  rcases List.mem_append.1 written with own | other
  · obtain ⟨⟨added, rfl, -, -, -⟩, -⟩ := h
    exact ⟨b, List.mem_append_left _ own, rfl, rfl⟩
  · exact h.covered b other

/-- If the entries of the first element are distinct, no two entries that were written
contradict each other. -/
theorem not_conflicts (h : Grown first later entries) (own : Distinct first) {a b : EnumEntry}
    (ha : a ∈ first ++ later) (hb : b ∈ first ++ later) : ¬ a.Conflicts b := by
  obtain ⟨a', ha', same_a⟩ := h.mem ha
  obtain ⟨b', hb', same_b⟩ := h.mem hb
  exact (h.distinct_iff.2 own).not_conflicts ha' hb' same_a same_b

/-- An entry that stands in the enumeration was written. -/
theorem subset (h : Grown first later entries) : entries ⊆ first ++ later := by
  obtain ⟨⟨added, rfl, taken, -, -⟩, -⟩ := h
  exact List.append_subset.2
    ⟨List.subset_append_left .., fun _ mem => List.mem_append_right _ (taken.subset mem)⟩

/-- What becomes of one more entry. -/
theorem addEntry_outcome (h : Grown first later entries) (enum : String) (new : EnumEntry) :
    (∃ entries', addEntry enum entries new = .ok entries' ∧
        Grown first (later ++ [new]) entries') ∨
      (∃ a ∈ first ++ later, a.Conflicts new) ∧
        addEntry enum entries new = .error (.conflictingEnumEntry enum new.name) := by
  rcases Enum.addEntry_outcome enum entries new with
    ⟨apart, added⟩ | ⟨there, passed⟩ | ⟨⟨a, mem, conflict⟩, refused⟩
  · exact .inl ⟨_, added, h.append apart⟩
  · exact .inl ⟨_, passed, h.pass there⟩
  · exact .inr ⟨⟨a, h.subset mem, conflict⟩, refused⟩

/-- **Adding the entries of an element** one after another. -/
theorem foldlM_outcome (h : Grown first later entries) (enum : String) (new : List EnumEntry) :
    (∃ entries', new.foldlM (addEntry enum) entries = .ok entries' ∧
        Grown first (later ++ new) entries') ∨
      ∃ b ∈ new, (∃ a ∈ first ++ later ++ new, a.Conflicts b) ∧
        new.foldlM (addEntry enum) entries = .error (.conflictingEnumEntry enum b.name) := by
  induction new generalizing later entries with
  | nil => exact .inl ⟨entries, rfl, (List.append_nil later).symm ▸ h⟩
  | cons b new ih =>
    rw [List.foldlM_cons]
    rcases h.addEntry_outcome enum b with ⟨entries', added, grown⟩ | ⟨⟨a, mem, conflict⟩, refused⟩
    · have rest := ih grown
      rw [List.append_assoc later, List.singleton_append] at rest
      rw [added]
      rcases rest with more | ⟨c, mem, ⟨a, before, conflict⟩, refused⟩
      · exact .inl more
      · refine .inr ⟨c, List.mem_cons_of_mem _ mem, ⟨a, ?_, conflict⟩, refused⟩
        simpa only [List.append_assoc, List.singleton_append] using before
    · rw [refused]
      exact .inr ⟨b, List.mem_cons_self, ⟨a, List.mem_append_left _ mem, conflict⟩, rfl⟩

/-- **Merging another element** of the enumeration. -/
theorem merge_outcome {e : Enum} (h : Grown first later e.entries) (other : Enum) :
    (∃ e', e.merge other = .ok e' ∧ e'.name = e.name ∧
        Grown first (later ++ other.entries) e'.entries) ∨
      ∃ b ∈ other.entries, (∃ a ∈ first ++ later ++ other.entries, a.Conflicts b) ∧
        e.merge other = .error (.conflictingEnumEntry e.name b.name) := by
  unfold merge
  rcases h.foldlM_outcome e.name other.entries with
    ⟨entries, added, grown⟩ | ⟨b, mem, conflict, refused⟩
  · rw [added]
    exact .inl ⟨_, rfl, rfl, grown⟩
  · rw [refused]
    exact .inr ⟨b, mem, conflict, rfl⟩

end Grown

end Enum

namespace Dialect

open EnumEntry Enum Resolver

/-! ## Enumerations in the making -/

/-- The elements that are written for an enumeration, in order. -/
def elementsOf (name : String) (elements : List Enum) : List Enum :=
  elements.filter (·.name = name)

/-- The enumerations after elements were added: each has grown from its own elements. -/
structure HoldsEnums (enums : Dictionary String Enum) (elements : List Enum) : Prop where
  absent : ∀ name, enums.find? name = none → elementsOf name elements = []
  grown : ∀ name e, enums.find? name = some e → e.name = name ∧
    ∃ first later, elementsOf name elements = first :: later ∧
      Grown first.entries (later.flatMap (·.entries)) e.entries

variable {enums : Dictionary String Enum} {elements : List Enum}

theorem holdsEnums_nothing : HoldsEnums ∅ [] := ⟨fun _ _ => rfl, nofun⟩

theorem elementsOf_concat_self (elements : List Enum) (new : Enum) :
    elementsOf new.name (elements ++ [new]) = elementsOf new.name elements ++ [new] := by
  rw [elementsOf, List.filter_append, elementsOf]
  simp

theorem elementsOf_concat_of_ne {name : String} {new : Enum} (other : name ≠ new.name)
    (elements : List Enum) : elementsOf name (elements ++ [new]) = elementsOf name elements := by
  rw [elementsOf, List.filter_append, elementsOf]
  simp [other.symm]

/-- An enumeration is bound to its name after one more element of it. -/
theorem HoldsEnums.insert (h : HoldsEnums enums elements) {new e : Enum} (own : e.name = new.name)
    {first : Enum} {later : List Enum}
    (written : elementsOf new.name elements ++ [new] = first :: later)
    (grown : Grown first.entries (later.flatMap (·.entries)) e.entries) :
    HoldsEnums (enums.insert new.name e) (elements ++ [new]) := by
  constructor
  · intro name absent
    rw [Dictionary.find?_insert] at absent
    split at absent
    · cases absent
    · next other => exact (elementsOf_concat_of_ne other elements).trans (h.absent name absent)
  · intro name e' found
    rw [Dictionary.find?_insert] at found
    split at found
    · next here =>
      cases found
      subst here
      exact ⟨own, first, later, (elementsOf_concat_self elements new).trans written, grown⟩
    · next other =>
      rw [elementsOf_concat_of_ne other]
      exact h.grown name e' found

/-- **Adding an element.**  It is added, or one of its entries contradicts an entry that was
written for the enumeration before. -/
theorem addEnum_outcome (h : HoldsEnums enums elements) (new : Enum) :
    (∃ enums', addEnum enums new = .ok enums' ∧ HoldsEnums enums' (elements ++ [new])) ∨
      ∃ b ∈ new.entries,
        (∃ a ∈ (elementsOf new.name elements ++ [new]).flatMap (·.entries), a.Conflicts b) ∧
        addEnum enums new = .error (.conflictingEnumEntry new.name b.name) := by
  unfold addEnum
  cases found : enums.find? new.name with
  | none =>
    have unwritten : elementsOf new.name elements ++ [new] = [new] := by
      rw [h.absent _ found, List.nil_append]
    exact .inl ⟨_, rfl, h.insert rfl unwritten (.start new.entries)⟩
  | some old =>
    obtain ⟨own, first, later, written, grown⟩ := h.grown _ _ found
    rcases grown.merge_outcome new with
      ⟨e, merged, same_name, grown⟩ | ⟨b, mem, ⟨a, before, conflict⟩, refused⟩
    · have written' : elementsOf new.name elements ++ [new] = first :: (later ++ [new]) := by
        rw [written, List.cons_append]
      have grown' : Grown first.entries ((later ++ [new]).flatMap (·.entries)) e.entries := by
        simpa only [List.flatMap_append, List.flatMap_singleton] using grown
      refine .inl ⟨_, ?_, h.insert (same_name.trans own) written' grown'⟩
      simp only [merged]
      rfl
    · refine .inr ⟨b, mem, ⟨a, ?_, conflict⟩, ?_⟩
      · rw [written]
        simpa only [List.flatMap_append, List.flatMap_cons, List.flatMap_nil,
          List.append_nil] using before
      · simp only [refused, own]
        rfl

/-- Adds enumerations one after another. -/
def mergeEnums (elements : List Enum) : Except SchemaError (Dictionary String Enum) :=
  elements.foldlM addEnum ∅

/-- **Merging enumerations** comes to enumerations that have grown from their elements, or to an
entry that contradicts one that was written for the same enumeration before. -/
theorem mergeEnums_outcome (elements : List Enum) :
    (∃ enums, mergeEnums elements = .ok enums ∧ HoldsEnums enums elements) ∨
      ∃ before new after, elements = before ++ new :: after ∧ ∃ b ∈ new.entries,
        (∃ a ∈ (elementsOf new.name (before ++ [new])).flatMap (·.entries), a.Conflicts b) ∧
        mergeEnums elements = .error (.conflictingEnumEntry new.name b.name) := by
  have run : ∀ (rest before : List Enum) enums, HoldsEnums enums before →
      (∃ enums', rest.foldlM addEnum enums = .ok enums' ∧ HoldsEnums enums' (before ++ rest)) ∨
        ∃ passed new after, before ++ rest = passed ++ new :: after ∧ ∃ b ∈ new.entries,
          (∃ a ∈ (elementsOf new.name (passed ++ [new])).flatMap (·.entries), a.Conflicts b) ∧
          rest.foldlM addEnum enums = .error (.conflictingEnumEntry new.name b.name) := by
    intro rest
    induction rest with
    | nil =>
      intro before enums h
      exact .inl ⟨enums, rfl, (List.append_nil before).symm ▸ h⟩
    | cons new rest ih =>
      intro before enums h
      rw [List.foldlM_cons, List.append_cons]
      rcases addEnum_outcome h new with ⟨enums', added, holds⟩ | ⟨b, mem, conflict, refused⟩
      · rw [added]
        exact ih _ _ holds
      · rw [refused]
        refine .inr ⟨before, new, rest, (List.append_cons ..).symm, b, mem, ?_, rfl⟩
        rw [elementsOf_concat_self]
        exact conflict
  exact run elements [] ∅ holdsEnums_nothing

/-! ## Loaded dialects -/

theorem enums_of_add {m m' : Merged} {d : Definition} (h : m.add d = .ok m') :
    d.enums.foldlM addEnum m.enums = .ok m'.enums := by
  obtain ⟨enums, merged, h⟩ := exists_of_bind_eq_ok h
  obtain ⟨messages, -, h⟩ := exists_of_bind_eq_ok h
  cases h
  exact merged

theorem foldlM_addEnum_of_foldlM_add {definitions : List Definition} {start m : Merged}
    (h : definitions.foldlM Merged.add start = .ok m) :
    (definitions.flatMap (·.enums)).foldlM addEnum start.enums = .ok m.enums := by
  induction definitions generalizing start with
  | nil =>
    cases h
    rfl
  | cons d definitions ih =>
    rw [List.foldlM_cons] at h
    obtain ⟨next, added, h⟩ := exists_of_bind_eq_ok h
    rw [List.flatMap_cons, List.foldlM_append, enums_of_add added]
    exact ih h

/-- The elements of enumerations in definitions that were found, in order. -/
def enumElements (order : Resolved) : List Enum := order.flatMap (·.2.enums)

/-- A dialect holds the enumerations of its definitions as they are merged. -/
theorem mergeEnums_of_ofDefinitions {name : String} {order : Resolved} {d : Dialect}
    (h : ofDefinitions name order = .ok d) : mergeEnums (enumElements order) = .ok d.enums := by
  obtain ⟨merged, added, rfl⟩ := exists_merged_of_ofDefinitions h
  have all := foldlM_addEnum_of_foldlM_add added
  rwa [List.flatMap_map] at all

/-- Loading has found the definitions that it merges. -/
theorem exists_visit_of_load {r : Resolver} {root : String} {d : Dialect}
    (loaded : load r root = some (.ok d)) :
    ∃ order, (r.visit [] [] root).run = some (.ok order) ∧
      ofDefinitions (nameOf root) order = .ok d := by
  cases visited : (r.visit [] [] root).run with
  | none =>
    have nothing : load r root = none := by
      show (r.visit [] [] root).run >>= _ = none
      rw [visited]
      rfl
    rw [nothing] at loaded
    cases loaded
  | some result =>
    rw [load_of_visit visited] at loaded
    cases result with
    | error e => cases loaded
    | ok order => exact ⟨order, rfl, Option.some.inj loaded⟩

/-- **Entries of loaded enumerations.**  Every enumeration of a loaded dialect has grown from the
elements that are written for it in the loaded definitions, in the order in which these are
merged: its entries are those of the first element, and those of later elements that have
neither a name nor a number in common with any entry before.  So no two of its entries share a
name or a number, just if no two entries of the first element do; and then no two entries that
are written for it, in one element, in two of one file or in different files, contradict each
other. -/
theorem entries_of_load (r : Resolver) (root : String) (d : Dialect)
    (loaded : load r root = some (.ok d)) :
    ∃ order, (r.visit [] [] root).run = some (.ok order) ∧
      ∀ name e, d.enums.find? name = some e →
        ∃ first later, elementsOf name (enumElements order) = first :: later ∧
          (∃ added, e.entries = first.entries ++ added ∧
            added.Sublist (later.flatMap (·.entries)) ∧ Distinct added ∧
            ∀ a ∈ first.entries, ∀ b ∈ added, a.Apart b) ∧
          (Distinct e.entries ↔ Distinct first.entries) ∧
          (Distinct first.entries →
            ∀ a ∈ (first :: later).flatMap (·.entries),
              ∀ b ∈ (first :: later).flatMap (·.entries), ¬ a.Conflicts b) := by
  obtain ⟨order, followed, merged⟩ := exists_visit_of_load loaded
  refine ⟨order, followed, ?_⟩
  have collected := mergeEnums_of_ofDefinitions merged
  rcases mergeEnums_outcome (enumElements order) with
    ⟨enums, same, holds⟩ | ⟨before, new, after, -, b, -, -, refused⟩
  · rw [collected] at same
    cases same
    intro name e found
    obtain ⟨-, first, later, written, grown⟩ := holds.grown name e found
    refine ⟨first, later, written, grown.added, grown.distinct_iff, ?_⟩
    intro own a ha b hb
    rw [List.flatMap_cons] at ha hb
    exact grown.not_conflicts own ha hb
  · rw [collected] at refused
    cases refused

/-! ## Entries of one element -/

/-- A definition that includes nothing is loaded alone. -/
theorem visit_of_no_includes {r : Resolver} {root : String} {d : Definition}
    (own : r.definition (Text.trimmed root) = .ok d) (alone : d.includes = []) :
    (r.visit [] [] root).run = some (.ok [(Text.trimmed root, d)]) := by
  rw [visit_of_new List.not_mem_nil List.not_mem_nil, own]
  refine (run_bind_of_ok (a := d) rfl _).trans ?_
  rw [alone]
  rfl

/-- What is loaded from a file that includes nothing. -/
theorem exists_load_of_no_includes {α : Type} {r : Resolver} {file : String} {f : Dialect → α}
    {x : α} (trimmed : Text.trimmed file = file)
    (alone : (r.definition file).map (·.includes) = .ok [])
    (merged : (r.definition file >>= fun d => ofDefinitions (nameOf file) [(file, d)]).map f
      = .ok x) :
    ∃ definition d, r.definition file = .ok definition ∧
      (r.visit [] [] file).run = some (.ok [(file, definition)]) ∧
      load r file = some (.ok d) ∧ f d = x := by
  obtain ⟨definition, own, alone⟩ := exists_of_map_eq_ok alone
  have followed : (r.visit [] [] file).run = some (.ok [(Text.trimmed file, definition)]) :=
    visit_of_no_includes (by rwa [trimmed]) alone
  rw [trimmed] at followed
  rw [own] at merged
  obtain ⟨d, made, found⟩ := exists_of_map_eq_ok merged
  exact ⟨definition, d, own, followed, (load_of_visit followed).trans (congrArg some made), found⟩

/-- The names and the numbers of entries. -/
def bindings (entries : List EnumEntry) : List (String × Nat) :=
  entries.map fun a => (a.name, a.value)

/-- Two elements of one enumeration in a file.  The second repeats the entry of the first, and
has another, whose number follows. -/
def extended : Resolver := .ofTexts (.ofList [("e.xml",
  "<mavlink><enums><enum name=\"E\"><entry value=\"0\" name=\"A\"/></enum>" ++
  "<enum name=\"E\"><entry name=\"A\"/><entry name=\"B\"/></enum></enums></mavlink>")])

/-- When the two elements are loaded, no two entries share a name or a number. -/
theorem extended_entries_distinct : ∃ d e, load extended "e.xml" = some (.ok d) ∧
    d.enums.find? "E" = some e ∧ bindings e.entries = [("A", 0), ("B", 1)] ∧
    Distinct e.entries := by
  have trimmed : Text.trimmed "e.xml" = "e.xml" := by decide +kernel
  have alone : (extended.definition "e.xml").map (·.includes) = .ok [] := by decide +kernel
  have written : (extended.definition "e.xml").map (fun d =>
      (elementsOf "E" (enumElements [("e.xml", d)])).map (bindings ·.entries))
      = .ok [[("A", 0)], [("A", 0), ("B", 1)]] := by decide +kernel
  obtain ⟨definition, d, own, followed, loaded, found⟩ :=
    exists_load_of_no_includes (f := fun d => (d.enums.find? "E").map (bindings ·.entries))
      (x := some [("A", 0), ("B", 1)]) trimmed alone (by decide +kernel)
  obtain ⟨e, found, entries⟩ := Option.map_eq_some_iff.1 found
  obtain ⟨order, followed', elements⟩ := entries_of_load extended "e.xml" d loaded
  rw [followed] at followed'
  cases followed'
  obtain ⟨first, later, split, -, distinct, -⟩ := elements "E" e found
  rw [own] at written
  have written : (elementsOf "E" (enumElements [("e.xml", definition)])).map (bindings ·.entries)
      = [[("A", 0)], [("A", 0), ("B", 1)]] := Except.ok.inj written
  rw [split, List.map_cons] at written
  refine ⟨d, e, loaded, found, entries, distinct.2 ?_⟩
  -- the first element has a single entry
  have one : first.entries.length = 1 := by
    rw [← List.length_map (f := fun a : EnumEntry => (a.name, a.value))]
    exact congrArg List.length (List.cons.inj written).1
  obtain ⟨a, only⟩ := List.length_eq_one_iff.1 one
  rw [only]
  exact List.pairwise_singleton ..

/-- One element gives a number to two names, the second time because it follows. -/
def repeating : Resolver := .ofTexts (.ofList [("e.xml",
  "<mavlink><enums><enum name=\"E\"><entry value=\"1\" name=\"A\"/>" ++
  "<entry value=\"0\" name=\"B\"/><entry name=\"C\"/></enum></enums></mavlink>")])

/-- An element that gives a number to two names is loaded all the same. -/
theorem repeating_entries_share_number : ∃ d e, load repeating "e.xml" = some (.ok d) ∧
    d.enums.find? "E" = some e ∧ bindings e.entries = [("A", 1), ("B", 0), ("C", 1)] ∧
    ¬ Distinct e.entries := by
  have trimmed : Text.trimmed "e.xml" = "e.xml" := by decide +kernel
  have alone : (repeating.definition "e.xml").map (·.includes) = .ok [] := by decide +kernel
  obtain ⟨_, d, -, -, loaded, found⟩ :=
    exists_load_of_no_includes (f := fun d => (d.enums.find? "E").map (bindings ·.entries))
      (x := some [("A", 1), ("B", 0), ("C", 1)]) trimmed alone (by decide +kernel)
  obtain ⟨e, found, entries⟩ := Option.map_eq_some_iff.1 found
  refine ⟨d, e, loaded, found, entries, ?_⟩
  intro distinct
  have apart : (bindings e.entries).Pairwise fun a b => a.2 ≠ b.2 :=
    List.pairwise_map.2 (distinct.imp fun h => h.2)
  rw [entries] at apart
  exact absurd apart (by decide)

end Dialect

end Mavlink
