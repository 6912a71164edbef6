import Mathlib
import Mavlink.Proofs.Table.MessageRoundTrip
import Mavlink.Schema.Dialect

/-!
# The order in which messages are merged

A message that is added is compared only with what was added before, and only by its number
and its name.  That is enough: the table holds the first message of each number, and every
message that was passed over says the same as the one that stands for it.  So a conflict of
any two messages is found, whichever of them comes first.

* `Dialect.MessageTable.add_outcome` --- a message is added just if it is consistent with all
  that were added before;
* `Dialect.merge_independent_of_order` --- so messages can be merged in one order just if they
  can in every order, and mean the same on the wire.
-/

namespace Mavlink

namespace Message

/-- Two messages do not contradict each other: they have the same number if they have the same
name, and then they mean the same on the wire. -/
def Consistent (a b : Message) : Prop :=
  (a.id = b.id → a.name = b.name ∧ a.SameLayout b) ∧ (a.name = b.name → a.id = b.id)

theorem SameLayout.refl (a : Message) : a.SameLayout a := ⟨rfl, rfl, rfl⟩

theorem SameLayout.symm {a b : Message} (h : a.SameLayout b) : b.SameLayout a :=
  ⟨h.1.symm, h.2.1.symm, h.2.2.symm⟩

theorem SameLayout.trans {a b c : Message} (hab : a.SameLayout b) (hbc : b.SameLayout c) :
    a.SameLayout c :=
  ⟨hab.1.trans hbc.1, hab.2.1.trans hbc.2.1, hab.2.2.trans hbc.2.2⟩

theorem Consistent.refl (a : Message) : a.Consistent a :=
  ⟨fun _ => ⟨rfl, .refl a⟩, fun _ => rfl⟩

theorem Consistent.symm {a b : Message} (h : a.Consistent b) : b.Consistent a := by
  constructor
  · intro same
    obtain ⟨name, layout⟩ := h.1 same.symm
    exact ⟨name.symm, layout.symm⟩
  · intro same
    exact (h.2 same.symm).symm

/-- What is consistent with a message is consistent with every other of the same layout. -/
theorem Consistent.congr {a b c : Message} (h : a.Consistent b) (same : b.SameLayout c) :
    a.Consistent c := by
  have ⟨id, name, _⟩ := same
  constructor
  · intro ha
    obtain ⟨hname, layout⟩ := h.1 (ha.trans id.symm)
    exact ⟨hname.trans name, layout.trans same⟩
  · intro ha
    exact (h.2 (ha.trans name.symm)).trans id

/-- Any two of the messages are consistent. -/
def AllConsistent (messages : List Message) : Prop :=
  ∀ a ∈ messages, ∀ b ∈ messages, a.Consistent b

theorem allConsistent_concat {messages : List Message} {new : Message} :
    AllConsistent (messages ++ [new]) ↔
      AllConsistent messages ∧ ∀ a ∈ messages, a.Consistent new := by
  constructor
  · intro h
    have old {a : Message} (mem : a ∈ messages) : a ∈ messages ++ [new] :=
      List.mem_append_left _ mem
    have last : new ∈ messages ++ [new] := List.mem_append_right _ (List.mem_singleton_self new)
    exact ⟨fun a ha b hb => h a (old ha) b (old hb), fun a ha => h a (old ha) new last⟩
  · rintro ⟨before, with_new⟩ a ha b hb
    rcases List.mem_append.1 ha with ha | ha <;> rcases List.mem_append.1 hb with hb | hb
    · exact before a ha b hb
    · exact List.mem_singleton.1 hb ▸ with_new a ha
    · exact List.mem_singleton.1 ha ▸ (with_new b hb).symm
    · rw [List.mem_singleton.1 ha, List.mem_singleton.1 hb]
      exact .refl new

end Message

section Finding

variable {α κ : Type} [DecidableEq κ] {l : List α} {a : α}

theorem find?_concat_of_known {key : α → κ} {b : α} (mem : b ∈ l) (known : key b = key a) (k : κ) :
    (l ++ [a]).find? (key · = k) = l.find? (key · = k) := by
  rw [List.find?_append]
  by_cases here : key a = k
  · have found : (l.find? (key · = k)).isSome :=
      List.find?_isSome.2 ⟨b, mem, decide_eq_true (known.trans here)⟩
    exact Option.or_of_isSome found
  · rw [List.find?_cons_of_neg (by simpa using here), List.find?_nil, Option.or_none]

theorem find?_concat_of_new {key : α → κ} (new : ∀ b ∈ l, key b ≠ key a) (k : κ) :
    (l ++ [a]).find? (key · = k) = if k = key a then some a else l.find? (key · = k) := by
  rw [List.find?_append]
  split
  · next here =>
    have none_before : l.find? (key · = k) = none := by
      rw [List.find?_eq_none]
      intro b mem
      simpa [here] using new b mem
    rw [none_before, List.find?_cons_of_pos (by simpa using here.symm), Option.none_or]
  · next other =>
    rw [List.find?_cons_of_neg (by simpa using Ne.symm other), List.find?_nil, Option.or_none]

end Finding

namespace Dialect

open Message

/-! ## The table in the making -/

/-- A table after messages were added that are all consistent: it binds every number and every
name to the first of them. -/
structure MessageTable.Holds (t : MessageTable) (messages : List Message) : Prop where
  byId : ∀ id, t.byId.find? id = messages.find? (·.id = id)
  idOf : ∀ name, t.idOf.find? name = (messages.find? (·.name = name)).map (·.id)
  consistent : AllConsistent messages

namespace MessageTable

variable {t : MessageTable} {messages : List Message}

theorem holds_nothing : Holds ⟨∅, ∅⟩ [] := ⟨fun _ => rfl, fun _ => rfl, nofun⟩

theorem Holds.mem (h : t.Holds messages) {id : MessageId} {m : Message}
    (found : t.byId.find? id = some m) : m ∈ messages ∧ m.id = id := by
  rw [h.byId] at found
  exact ⟨List.mem_of_find?_eq_some found, by simpa using List.find?_some found⟩

theorem Holds.mem_name (h : t.Holds messages) {name : String} {id : MessageId}
    (found : t.idOf.find? name = some id) : ∃ m ∈ messages, m.name = name ∧ m.id = id := by
  rw [h.idOf] at found
  obtain ⟨m, first, rfl⟩ := Option.map_eq_some_iff.1 found
  exact ⟨m, List.mem_of_find?_eq_some first, by simpa using List.find?_some first, rfl⟩

/-- Tables after the same messages in two orders bind a number to messages of one layout. -/
theorem Holds.rel {u : MessageTable} {others : List Message} (h : t.Holds messages)
    (hu : u.Holds others) (same : ∀ m, m ∈ messages ↔ m ∈ others) (id : MessageId) :
    Option.Rel SameLayout (t.byId.find? id) (u.byId.find? id) := by
  cases found : t.byId.find? id with
  | none =>
    have missing : u.byId.find? id = none := by
      rw [h.byId, List.find?_eq_none] at found
      rw [hu.byId, List.find?_eq_none]
      exact fun m mem => found m ((same m).2 mem)
    rw [missing]
    exact .none
  | some a =>
    obtain ⟨mem, own⟩ := h.mem found
    have there : (others.find? (·.id = id)).isSome :=
      List.find?_isSome.2 ⟨a, (same a).1 mem, decide_eq_true own⟩
    obtain ⟨b, found'⟩ := Option.isSome_iff_exists.1 there
    rw [← hu.byId] at found'
    obtain ⟨mem', own'⟩ := hu.mem found'
    rw [found']
    exact .some ((h.consistent a mem b ((same b).2 mem')).1 (own.trans own'.symm)).2

/-- A message that says the same as one that is there is passed over. -/
theorem Holds.pass (h : t.Holds messages) {old new : Message} (there : old ∈ messages)
    (same : old.SameLayout new) : t.Holds (messages ++ [new]) := by
  have ⟨same_id, same_name, _⟩ := same
  refine ⟨?_, ?_, allConsistent_concat.2 ⟨h.consistent, ?_⟩⟩
  · intro k
    rw [h.byId, find?_concat_of_known there same_id]
  · intro k
    rw [h.idOf, find?_concat_of_known there same_name]
  · intro a mem
    exact (h.consistent a mem old there).congr same

/-- A message with a new number and a new name is bound to both. -/
theorem Holds.bind (h : t.Holds messages) {new : Message}
    (new_id : ∀ a ∈ messages, a.id ≠ new.id) (new_name : ∀ a ∈ messages, a.name ≠ new.name) :
    Holds ⟨t.byId.insert new.id new, t.idOf.insert new.name new.id⟩ (messages ++ [new]) := by
  refine ⟨?_, ?_, allConsistent_concat.2 ⟨h.consistent, ?_⟩⟩
  · intro k
    rw [Dictionary.find?_insert, find?_concat_of_new new_id, h.byId]
  · intro k
    rw [Dictionary.find?_insert, find?_concat_of_new new_name, h.idOf]
    split <;> rfl
  · intro a mem
    exact ⟨fun same => absurd same (new_id a mem), fun same => absurd same (new_name a mem)⟩

/-- **Adding a message.**  It is added just if it is consistent with all that were added before. -/
theorem add_outcome (h : t.Holds messages) (new : Message) :
    (∃ t', t.add new = .ok t' ∧ t'.Holds (messages ++ [new])) ∨
      ∃ e, t.add new = .error e ∧ ∃ a ∈ messages, ¬ a.Consistent new := by
  unfold add
  cases known : t.byId.find? new.id with
  | some old =>
    obtain ⟨there, same_id⟩ := h.mem known
    by_cases same_name : old.name = new.name
    · by_cases same : old.SameLayout new
      · simp only [same_name, same, ne_eq, not_true, if_false, if_true]
        exact .inl ⟨t, rfl, h.pass there same⟩
      · simp only [same_name, same, ne_eq, not_true, if_false]
        exact .inr ⟨_, rfl, old, there, fun consistent => same (consistent.1 same_id).2⟩
    · simp only [same_name, ne_eq, not_false_eq_true, if_true]
      exact .inr ⟨_, rfl, old, there, fun consistent => same_name (consistent.1 same_id).1⟩
  | none =>
    have new_id : ∀ a ∈ messages, a.id ≠ new.id := by
      rw [h.byId, List.find?_eq_none] at known
      simpa using known
    cases taken : t.idOf.find? new.name with
    | some id =>
      obtain ⟨old, there, same_name, -⟩ := h.mem_name taken
      exact .inr ⟨_, rfl, old, there, fun consistent =>
        new_id old there (consistent.2 same_name)⟩
    | none =>
      have new_name : ∀ a ∈ messages, a.name ≠ new.name := by
        rw [h.idOf, Option.map_eq_none_iff, List.find?_eq_none] at taken
        simpa using taken
      exact .inl ⟨_, rfl, h.bind new_id new_name⟩

theorem merge_append (t : MessageTable) (a b : List Message) :
    t.merge (a ++ b) = t.merge a >>= (·.merge b) := List.foldlM_append

/-- **Adding messages one after another** is possible just if all of them are consistent. -/
theorem merge_outcome (h : t.Holds messages) (new : List Message) :
    (∃ t', t.merge new = .ok t' ∧ t'.Holds (messages ++ new)) ∨
      (∃ e, t.merge new = .error e) ∧ ¬ AllConsistent (messages ++ new) := by
  induction new generalizing t messages with
  | nil => exact .inl ⟨t, rfl, (List.append_nil messages).symm ▸ h⟩
  | cons m new ih =>
    rw [merge, List.foldlM_cons]
    rcases add_outcome h m with ⟨t', added, holds⟩ | ⟨e, refused, a, mem, conflict⟩
    · rw [added, List.append_cons]
      exact ih holds
    · rw [refused]
      refine .inr ⟨⟨e, rfl⟩, fun consistent => conflict ?_⟩
      exact consistent a (List.mem_append_left _ mem) m
        (List.mem_append_right _ List.mem_cons_self)

end MessageTable

/-- Merges the messages of definitions one after another. -/
def mergeMessages (definitions : List Definition) : Except SchemaError MessageTable :=
  definitions.foldlM (fun t d => t.merge d.messages) ⟨∅, ∅⟩

theorem mergeMessages_eq (definitions : List Definition) :
    mergeMessages definitions
      = MessageTable.merge ⟨∅, ∅⟩ (definitions.flatMap (·.messages)) := by
  have run : ∀ t : MessageTable, definitions.foldlM (fun t d => t.merge d.messages) t
      = t.merge (definitions.flatMap (·.messages)) := by
    induction definitions with
    | nil => exact fun t => rfl
    | cons d definitions ih =>
      intro t
      rw [List.foldlM_cons, List.flatMap_cons, MessageTable.merge_append]
      exact congrArg (t.merge d.messages >>= ·) (funext ih)
  exact run _

/-- What merging the messages of definitions comes to. -/
theorem mergeMessages_outcome (definitions : List Definition) :
    (∃ t, mergeMessages definitions = .ok t ∧ t.Holds (definitions.flatMap (·.messages))) ∨
      (∃ e, mergeMessages definitions = .error e) ∧
        ¬ AllConsistent (definitions.flatMap (·.messages)) := by
  rw [mergeMessages_eq]
  exact MessageTable.merge_outcome MessageTable.holds_nothing _

theorem holds_of_mergeMessages {definitions : List Definition} {t : MessageTable}
    (merged : mergeMessages definitions = .ok t) :
    t.Holds (definitions.flatMap (·.messages)) := by
  rcases mergeMessages_outcome definitions with ⟨t', merged', holds⟩ | ⟨⟨e, refused⟩, -⟩
  · rw [merged] at merged'
    cases merged'
    exact holds
  · rw [merged] at refused
    cases refused

theorem mergeMessages_ok_iff (definitions : List Definition) :
    (∃ t, mergeMessages definitions = .ok t) ↔
      AllConsistent (definitions.flatMap (·.messages)) := by
  constructor
  · rintro ⟨t, merged⟩
    exact (holds_of_mergeMessages merged).consistent
  · intro consistent
    rcases mergeMessages_outcome definitions with ⟨t, merged, -⟩ | ⟨-, conflict⟩
    · exact ⟨t, merged⟩
    · exact absurd consistent conflict

/-- Enumerations are merged beside the messages, and do not change them. -/
theorem merge_of_add {m m' : Merged} {d : Definition} (h : m.add d = .ok m') :
    m.messages.merge d.messages = .ok m'.messages := by
  obtain ⟨enums, -, h⟩ := exists_of_bind_eq_ok h
  obtain ⟨messages, merged, h⟩ := exists_of_bind_eq_ok h
  cases h
  exact merged

theorem foldlM_merge_of_foldlM_add {definitions : List Definition} {start m : Merged}
    (h : definitions.foldlM Merged.add start = .ok m) :
    definitions.foldlM (fun t d => t.merge d.messages) start.messages = .ok m.messages := by
  induction definitions generalizing start with
  | nil =>
    cases h
    rfl
  | cons d definitions ih =>
    rw [List.foldlM_cons] at h ⊢
    obtain ⟨next, added, h⟩ := exists_of_bind_eq_ok h
    rw [merge_of_add added]
    exact ih h

/-- A dialect holds the messages of its definitions as they are merged. -/
theorem exists_mergeMessages_of_ofDefinitions {name : String}
    {definitions : List (String × Definition)} {d : Dialect} (h : ofDefinitions name definitions = .ok d) :
    ∃ t, mergeMessages (definitions.map (·.2)) = .ok t ∧ d.messages = t.byId := by
  obtain ⟨merged, added, rfl⟩ := exists_merged_of_ofDefinitions h
  exact ⟨merged.messages, foldlM_merge_of_foldlM_add added, rfl⟩

/-! ## The table of a dialect -/

/-- What is listed for each message of a dictionary under a key that it shares with no other. -/
theorem find?_ofList_values {κ ν : Type} [DecidableEq κ] [Ord κ] [Std.TransOrd κ]
    [Std.LawfulEqOrd κ] {messages : Dictionary MessageId Message} {key : Message → κ}
    {value : Message → ν}
    (distinct : ∀ i j a b, messages.find? i = some a → messages.find? j = some b →
      key a = key b → i = j) {k : κ} {v : ν} :
    (Dictionary.ofList (messages.values.map fun m => (key m, value m))).find? k = some v ↔
      ∃ i m, messages.find? i = some m ∧ key m = k ∧ value m = v := by
  constructor
  · intro found
    obtain ⟨m, listed, same⟩ := List.mem_map.1 (Dictionary.mem_of_find?_ofList found)
    obtain ⟨⟨i, _⟩, bound, rfl⟩ := List.mem_map.1 listed
    cases same
    exact ⟨i, _, Dictionary.find?_eq_some_iff.2 bound, rfl, rfl⟩
  · rintro ⟨i, m, found, rfl, rfl⟩
    have bound := Dictionary.find?_eq_some_iff.1 found
    apply Dictionary.find?_ofList_of_mem
    · rw [List.pairwise_map]
      exact Dictionary.pairwise_values distinct
    · exact List.mem_map_of_mem (List.mem_map_of_mem bound)

/-- The table of a dialect knows a number by a name just if it knows a message of this number
and name, provided that the messages of the dialect are bound to their own numbers and no two
of them share a name. -/
theorem idOf_ofDialect {d : Dialect}
    (keyed : ∀ i m, d.messages.find? i = some m → m.id = i)
    (named : ∀ i j a b, d.messages.find? i = some a → d.messages.find? j = some b →
      a.name = b.name → i = j) (name : String) (id : MessageId) :
    (Table.ofDialect d).idOf.find? name = some id ↔
      ∃ m, (Table.ofDialect d).messages.find? id = some m ∧ m.name = name := by
  have numbered : ∀ i j a b, d.messages.find? i = some a → d.messages.find? j = some b →
      a.id = b.id → i = j := by
    intro i j a b ha hb same
    rw [← keyed i a ha, ← keyed j b hb, same]
  have ids : (Table.ofDialect d).idOf
      = Dictionary.ofList (d.messages.values.map fun m => (m.name, m.id)) := by
    rw [Dictionary.ofList, List.foldl_map]
    rfl
  have layouts (m : Message) : (Table.ofDialect d).messages.find? id = some m ↔
      ∃ i m', d.messages.find? i = some m' ∧ m'.id = id ∧ m' = m :=
    find?_ofList_values numbered
  rw [ids, find?_ofList_values named]
  constructor
  · rintro ⟨i, m, found, rfl, rfl⟩
    exact ⟨m, (layouts m).2 ⟨i, m, found, rfl, rfl⟩, rfl⟩
  · rintro ⟨m, known, rfl⟩
    obtain ⟨i, m, found, rfl, rfl⟩ := (layouts m).1 known
    exact ⟨i, m, found, rfl, rfl⟩

/-! ## The order of merging -/

/-- **Merging does not depend on the order.**  The messages of definitions can be merged just
if any two of them are consistent: the same number goes with the same name and the same
layout, and the same name with the same number.  So they can be merged in one order of the
definitions just if they can in every other, and every number is then bound to messages of the
same layout.  It is bound to the first message that has it, and no two messages share a name.
A dialect holds the messages of its definitions as they are merged, and its table knows a
number by a name just if it knows a message of this number and name. -/
theorem merge_independent_of_order (definitions : List Definition) :
    let messages := definitions.flatMap (·.messages)
    ((∃ t, mergeMessages definitions = .ok t) ↔
      ∀ a ∈ messages, ∀ b ∈ messages, a.Consistent b) ∧
    (∀ others, definitions.Perm others →
      ((∃ t, mergeMessages definitions = .ok t) ↔ ∃ t, mergeMessages others = .ok t) ∧
      ∀ t u, mergeMessages definitions = .ok t → mergeMessages others = .ok u →
        ∀ id, Option.Rel SameLayout (t.byId.find? id) (u.byId.find? id)) ∧
    (∀ t, mergeMessages definitions = .ok t →
      (∀ id, t.byId.find? id = messages.find? (·.id = id)) ∧
      (∀ i j a b, t.byId.find? i = some a → t.byId.find? j = some b → a.name = b.name → i = j) ∧
      ∀ d : Dialect, d.messages = t.byId → ∀ name id,
        (Table.ofDialect d).idOf.find? name = some id ↔
          ∃ m, (Table.ofDialect d).messages.find? id = some m ∧ m.name = name) ∧
    ∀ name order d, order.map (·.2) = definitions → ofDefinitions name order = .ok d →
      ∃ t, mergeMessages definitions = .ok t ∧ d.messages = t.byId := by
  intro messages
  refine ⟨mergeMessages_ok_iff definitions, ?_, ?_, ?_⟩
  · intro others reordered
    have same (m : Message) : m ∈ messages ↔ m ∈ others.flatMap (·.messages) :=
      (reordered.flatMap_right _).mem_iff
    constructor
    · rw [mergeMessages_ok_iff, mergeMessages_ok_iff]
      simp only [AllConsistent, ← same]
      rfl
    · intro t u merged merged' id
      exact (holds_of_mergeMessages merged).rel (holds_of_mergeMessages merged') same id
  · intro t merged
    have holds := holds_of_mergeMessages merged
    have named : ∀ i j a b, t.byId.find? i = some a → t.byId.find? j = some b →
        a.name = b.name → i = j := by
      intro i j a b ha hb same
      obtain ⟨mem_a, rfl⟩ := holds.mem ha
      obtain ⟨mem_b, rfl⟩ := holds.mem hb
      exact (holds.consistent a mem_a b mem_b).2 same
    refine ⟨holds.byId, named, ?_⟩
    intro d own
    have keyed : ∀ i m, t.byId.find? i = some m → m.id = i := fun _ _ found => (holds.mem found).2
    rw [← own] at keyed named
    exact idOf_ofDialect keyed named
  · rintro name order d rfl made
    exact exists_mergeMessages_of_ofDefinitions made

end Dialect
end Mavlink
