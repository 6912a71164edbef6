import Mathlib
import Mavlink.Proofs.Schema.EnumMerging

/-!
# Merging as a union

What a definition says about an enumeration is a set of pairs of a name and a number, and merging
is the union of such sets, which is refused if a name is paired with two numbers or a number
with two names.  An entry is compared with what was collected before it only, but a
contradiction is one whichever of two entries comes first.  So if the first entries are
distinct, it does not matter in which order others are merged into them.

* `EnumEntry.unseen` --- the entries that are not there yet, each where it first occurs;
* `Enum.entries_of_foldlM` --- what is added are the unseen entries;
* `Enum.merge_ok_iff` --- merging succeeds just if no entry contradicts one before it;
* `Enum.mergeAll_ok_iff`, `Enum.mem_bindings_of_mergeAll` --- merging one definition after
  another, by what they say all together;
* `Enum.merge_is_union` --- all of this in one statement.
-/

namespace Mavlink

namespace EnumEntry

instance (a b : EnumEntry) : Decidable (a.Same b) := inferInstanceAs (Decidable (_ ∧ _))

theorem Same.symm {a b : EnumEntry} (h : a.Same b) : b.Same a := ⟨h.1.symm, h.2.symm⟩

theorem Conflicts.symm {a b : EnumEntry} (h : a.Conflicts b) : b.Conflicts a :=
  fun same => h ⟨fun name => (same.1 name.symm).symm, fun value => (same.2 value.symm).symm⟩

instance : Std.Symm fun a b : EnumEntry => ¬ a.Conflicts b := ⟨fun _ _ h h' => h h'.symm⟩

theorem not_conflicts_self (a : EnumEntry) : ¬ a.Conflicts a := fun h => h (iff_of_true rfl rfl)

/-- Of new entries, those that are not among given ones, each where it first occurs. -/
def unseen (entries new : List EnumEntry) : List EnumEntry :=
  (new.filter fun b => ¬ ∃ a ∈ entries, a.Same b).eraseDupsBy fun b a => a.Same b

theorem unseen_cons_of_mem {entries : List EnumEntry} {b : EnumEntry}
    (there : ∃ a ∈ entries, a.Same b) (new : List EnumEntry) :
    unseen entries (b :: new) = unseen entries new := by
  rw [unseen, List.filter_cons_of_neg (by simpa using there), unseen]

/-- An entry that is added is seen from then on. -/
theorem unseen_cons_of_apart {entries : List EnumEntry} {b : EnumEntry}
    (apart : ∀ a ∈ entries, a.Apart b) (new : List EnumEntry) :
    unseen entries (b :: new) = b :: unseen (entries ++ [b]) new := by
  have absent : ¬ ∃ a ∈ entries, a.Same b := fun ⟨a, ha, same⟩ => (apart a ha).1 same.1
  have later : (new.filter fun c => ¬ ∃ a ∈ entries, a.Same c).filter (fun c => ¬ b.Same c)
      = new.filter fun c => ¬ ∃ a ∈ entries ++ [b], a.Same c := by
    rw [List.filter_filter]
    refine List.filter_congr fun c _ => ?_
    rw [← Bool.decide_and, decide_eq_decide]
    simp only [List.mem_append, List.mem_singleton, or_and_right, exists_or, exists_eq_left, not_or,
      and_comm]
  rw [unseen, List.filter_cons_of_pos (by simpa using absent), List.eraseDupsBy_cons, unseen,
    ← later]
  simp

end EnumEntry

namespace Enum

open EnumEntry

variable {e e' other : Enum}

/-! ## One definition -/

/-- **The unseen entries are added**, in order. -/
theorem entries_of_foldlM {enum : String} {entries entries' new : List EnumEntry}
    (added : new.foldlM (addEntry enum) entries = .ok entries') :
    entries' = entries ++ unseen entries new := by
  induction new generalizing entries with
  | nil =>
    cases added
    exact (List.append_nil _).symm
  | cons b new ih =>
    rw [List.foldlM_cons] at added
    rcases addEntry_outcome enum entries b with ⟨apart, one⟩ | ⟨there, one⟩ | ⟨-, one⟩ <;>
      rw [one] at added
    · rw [ih added, unseen_cons_of_apart apart, List.append_assoc, List.singleton_append]
    · rw [ih added, unseen_cons_of_mem there]
    · cases added

/-- What merging comes to, if it succeeds. -/
theorem eq_of_merge (merged : e.merge other = .ok e') : e' = { e with
    entries := e.entries ++ unseen e.entries other.entries
    bitmask := e.bitmask || other.bitmask
    description := e.description <|> other.description } := by
  obtain ⟨entries, added, merged⟩ := exists_of_bind_eq_ok merged
  cases merged
  rw [entries_of_foldlM added]

/-- Entries do not contradict each other if none contradicts those before it. -/
theorem not_conflicts_of_split {entries new : List EnumEntry}
    (own : ∀ before b after, new = before ++ b :: after →
      ∀ a ∈ entries ++ before, ¬ a.Conflicts b) :
    ∀ a ∈ entries ++ new, ∀ b ∈ new, ¬ a.Conflicts b := by
  have earlier : new.Pairwise fun a b => ¬ a.Conflicts b := by
    refine List.pairwise_iff_forall_sublist.2 fun {a b} pair => ?_
    obtain ⟨before, rest, rfl, left, right⟩ := List.cons_sublist_iff.1 pair
    obtain ⟨between, after, rfl⟩ := List.append_of_mem (List.singleton_sublist.1 right)
    exact own (before ++ between) b after (by simp) a (by simp [left])
  intro a ha b hb
  rcases List.mem_append.1 ha with first | later
  · obtain ⟨before, after, rfl⟩ := List.append_of_mem hb
    exact own before b after rfl a (List.mem_append_left _ first)
  · by_cases same : a = b
    · exact same ▸ not_conflicts_self a
    · exact earlier.forall later hb same

/-- **Merging succeeds** just if no entry contradicts one of the first or one before it. -/
theorem merge_ok_iff (own : Distinct e.entries) : (∃ e', e.merge other = .ok e') ↔
    ∀ before b after, other.entries = before ++ b :: after →
      ∀ a ∈ e.entries ++ before, ¬ a.Conflicts b := by
  rcases (Grown.start e.entries).merge_outcome other with
    ⟨e', merged, -, grown⟩ | ⟨b, hb, ⟨a, ha, conflict⟩, refused⟩
  · refine iff_of_true ⟨e', merged⟩ fun before b after split a ha => ?_
    rw [List.nil_append, split] at grown
    refine grown.not_conflicts own ?_ (by simp)
    rw [← List.append_assoc]
    exact List.mem_append_left _ ha
  · rw [List.append_nil] at ha
    refine iff_of_false ?_ fun none => not_conflicts_of_split none a ha b hb conflict
    rw [refused]
    rintro ⟨e', ⟨⟩⟩

/-! ## Definitions one after another -/

/-- Merges definitions of an enumeration into the first one. -/
def mergeAll (e : Enum) (others : List Enum) : Except SchemaError Enum := others.foldlM merge e

/-- **Merging definitions** comes to entries that have grown so, or to a contradiction between
two entries that were written. -/
theorem mergeAll_outcome {first later : List EnumEntry} (h : Grown first later e.entries)
    (others : List Enum) :
    (∃ e', mergeAll e others = .ok e' ∧
        Grown first (later ++ others.flatMap (·.entries)) e'.entries) ∨
      (∃ a ∈ first ++ (later ++ others.flatMap (·.entries)),
        ∃ b ∈ first ++ (later ++ others.flatMap (·.entries)), a.Conflicts b) ∧
      ∃ error, mergeAll e others = .error error := by
  induction others generalizing e later with
  | nil => exact .inl ⟨e, rfl, by simpa using h⟩
  | cons other others ih =>
    rw [mergeAll, List.foldlM_cons, List.flatMap_cons, ← List.append_assoc later]
    rcases h.merge_outcome other with ⟨e', merged, -, grown⟩ | ⟨b, hb, ⟨a, ha, conflict⟩, refused⟩
    · rw [merged]
      exact ih grown
    · rw [refused]
      rw [List.append_assoc] at ha
      have written {c : EnumEntry} (hc : c ∈ first ++ (later ++ other.entries)) :
          c ∈ first ++ (later ++ other.entries ++ others.flatMap (·.entries)) := by
        rw [← List.append_assoc]
        exact List.mem_append_left _ hc
      have new : b ∈ first ++ (later ++ other.entries) :=
        List.mem_append_right _ (List.mem_append_right _ hb)
      exact .inr ⟨⟨a, written ha, b, written new, conflict⟩, _, rfl⟩

/-- **Definitions can be merged** just if no two entries of them all contradict each other. -/
theorem mergeAll_ok_iff (own : Distinct e.entries) (others : List Enum) :
    (∃ e', mergeAll e others = .ok e') ↔
      ∀ a ∈ e.entries ++ others.flatMap (·.entries),
        ∀ b ∈ e.entries ++ others.flatMap (·.entries), ¬ a.Conflicts b := by
  rcases mergeAll_outcome (Grown.start e.entries) others with
    ⟨e', merged, grown⟩ | ⟨⟨a, ha, b, hb, conflict⟩, error, refused⟩
  · exact iff_of_true ⟨e', merged⟩ fun a ha b hb => grown.not_conflicts own ha hb
  · refine iff_of_false ?_ fun none => none a ha b hb conflict
    rw [refused]
    rintro ⟨e', ⟨⟩⟩

/-- What stands in merged definitions is what was written. -/
theorem mem_bindings_of_mergeAll {others : List Enum} (merged : mergeAll e others = .ok e')
    {binding : String × Nat} : binding ∈ Dialect.bindings e'.entries ↔
      binding ∈ Dialect.bindings (e.entries ++ others.flatMap (·.entries)) := by
  rcases mergeAll_outcome (Grown.start e.entries) others with
    ⟨e'', same, grown⟩ | ⟨-, error, refused⟩
  · obtain rfl := Except.ok.inj (same.symm.trans merged)
    simp only [Dialect.bindings, List.mem_map]
    constructor
    · rintro ⟨a, ha, rfl⟩
      exact ⟨a, grown.subset ha, rfl⟩
    · rintro ⟨b, hb, rfl⟩
      obtain ⟨a, ha, name, value⟩ := grown.mem hb
      exact ⟨a, ha, Prod.ext name value⟩
  · rw [merged] at refused
    cases refused

/-- **Merging is a union that is checked.**  Let the entries of an enumeration be distinct.
Another definition is merged into it just if no entry of that gives a name another number, or a
number another name, than one of the first entries or an entry before it does.  Then the
entries are the first ones followed by those that are new, each where it first occurs, and
they are distinct again; the numbers are flags if they are in either definition, and of the
descriptions the first stays.  So of definitions that are merged one after another, neither
whether they can be merged nor which names come to stand for which numbers depends on their
order. -/
theorem merge_is_union (e : Enum) (own : Distinct e.entries) :
    (∀ other,
      ((∃ e', e.merge other = .ok e') ↔
        ∀ before b after, other.entries = before ++ b :: after →
          ∀ a ∈ e.entries ++ before, ¬ a.Conflicts b) ∧
      ∀ e', e.merge other = .ok e' → Distinct e'.entries ∧ e' = { e with
        entries := e.entries ++ unseen e.entries other.entries
        bitmask := e.bitmask || other.bitmask
        description := e.description <|> other.description }) ∧
    ∀ others others', others.Perm others' →
      ((∃ e', mergeAll e others = .ok e') ↔ ∃ e', mergeAll e others' = .ok e') ∧
      ∀ u v, mergeAll e others = .ok u → mergeAll e others' = .ok v →
        ∀ binding, binding ∈ Dialect.bindings u.entries ↔
          binding ∈ Dialect.bindings v.entries := by
  refine ⟨fun other => ⟨merge_ok_iff own, fun e' merged => ⟨?_, eq_of_merge merged⟩⟩, ?_⟩
  · rcases (Grown.start e.entries).merge_outcome other with
      ⟨e'', same, -, grown⟩ | ⟨b, -, -, refused⟩
    · obtain rfl := Except.ok.inj (same.symm.trans merged)
      exact grown.distinct_iff.2 own
    · rw [merged] at refused
      cases refused
  · intro others others' reordered
    have same : (e.entries ++ others.flatMap (·.entries)).Perm
        (e.entries ++ others'.flatMap (·.entries)) :=
      (reordered.flatMap_right _).append_left _
    constructor
    · rw [mergeAll_ok_iff own, mergeAll_ok_iff own]
      simp only [same.mem_iff]
    · intro u v first second binding
      rw [mem_bindings_of_mergeAll first, mem_bindings_of_mergeAll second]
      exact (same.map _).mem_iff

/-- An enumeration of one entry. -/
def flight : Enum := { name := "MODE", entries := [{ value := 0, name := "MANUAL" }] }

/-- Another definition of it, which repeats that entry and, twice, says another. -/
def flightAgain : Enum where
  name := "MODE"
  bitmask := true
  description := some "Modes."
  entries := [{ value := 4, name := "AUTO" }, { value := 0, name := "MANUAL" },
    { value := 4, name := "AUTO", description := some "By itself." }]

/-- The repeated entries are passed over, and the first of the two others is added. -/
theorem flight_merged : Distinct flight.entries ∧ ∃ e', flight.merge flightAgain = .ok e' ∧
    Distinct e'.entries ∧ e' = { flightAgain with
      entries := [{ value := 0, name := "MANUAL" }, { value := 4, name := "AUTO" }] } := by
  have own : Distinct flight.entries := List.pairwise_singleton ..
  obtain ⟨accepted, result⟩ := (merge_is_union flight own).1 flightAgain
  obtain ⟨e', merged⟩ : ∃ e', flight.merge flightAgain = .ok e' := ⟨_, rfl⟩
  obtain ⟨distinct, rfl⟩ := result e' merged
  exact ⟨own, _, merged, distinct, by decide⟩

end Enum

end Mavlink
