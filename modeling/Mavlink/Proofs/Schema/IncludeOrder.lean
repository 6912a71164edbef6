import Mavlink.Proofs.Schema.IncludeGraph

/-!
# The order in which includes are resolved

Following a name goes down one path of includes at a time (`chain`), and the names that are
done (`resolved`) lie apart from it.  Where only finitely many names can be reached, a path
that meets no name twice cannot be longer than their number, so the traversal comes back.

* `Resolver.visit_outcome` --- following a name closes a cycle, comes to a definition that
  cannot be read, or resolves the name and all that it includes;
* `Dialect.load_follows_includes` --- so loading reports a cycle just if there is one, and
  else merges every definition once, after those that it includes.
-/

namespace Mavlink

open Relation

section Running

variable {ε α β : Type} {x : ExceptT ε Option α}

theorem run_bind_of_ok {a : α} (h : x.run = some (.ok a)) (f : α → ExceptT ε Option β) :
    (x >>= f).run = (f a).run := by
  rw [ExceptT.run_bind, h]
  rfl

theorem run_bind_of_error {e : ε} (h : x.run = some (.error e)) (f : α → ExceptT ε Option β) :
    (x >>= f).run = some (.error e) := by
  rw [ExceptT.run_bind, h]
  rfl

end Running

namespace Resolver

section Visit

variable {r : Resolver} {chain : List String} {resolved : Resolved} {name : String}

theorem visit_of_mem (met : Text.trimmed name ∈ chain) :
    (r.visit chain resolved name).run
      = some (.error (.includeCycle (chain ++ [Text.trimmed name]))) := by
  rw [visit]
  simp only [if_pos met]
  rfl

theorem visit_of_resolved (new : Text.trimmed name ∉ chain)
    (known : Text.trimmed name ∈ names resolved) :
    (r.visit chain resolved name).run = some (.ok resolved) := by
  have known : resolved.any (·.1 = Text.trimmed name) = true := by
    simpa [names] using known
  rw [visit]
  simp only [if_neg new, if_pos known]
  rfl

theorem visit_of_new (new : Text.trimmed name ∉ chain)
    (unknown : Text.trimmed name ∉ names resolved) :
    r.visit chain resolved name = (do
      let d ← liftM (r.definition (Text.trimmed name))
      let resolved ← d.includes.foldlM (r.visit (chain ++ [Text.trimmed name])) resolved
      return resolved ++ [(Text.trimmed name, d)]) := by
  have unknown : ¬ resolved.any (·.1 = Text.trimmed name) = true := by
    simpa [names] using unknown
  rw [visit]
  simp only [if_neg new, if_neg unknown]

end Visit

/-- The state of the traversal where a path of includes has been followed: what is resolved
is in order, can be reached, and lies apart from the path. -/
structure Settled (r : Resolver) (root : String) (chain : List String) (resolved : Resolved) :
    Prop where
  ordered : r.Ordered resolved
  reached : ∀ name ∈ names resolved, r.Reaches root name
  apart : ∀ name ∈ chain, name ∉ names resolved

/-- A name that is not resolved can be put at the end of the path. -/
theorem Settled.enter {r : Resolver} {root : String} {chain : List String} {resolved : Resolved}
    {name : String} (h : r.Settled root chain resolved) (new : name ∉ names resolved) :
    r.Settled root (chain ++ [name]) resolved := by
  refine ⟨h.ordered, h.reached, ?_⟩
  intro other mem
  rcases List.mem_append.1 mem with before | here
  · exact h.apart other before
  · rwa [List.mem_singleton.1 here]

/-- A name at the end of the path can be put behind what it includes. -/
theorem Settled.snoc {r : Resolver} {root : String} {chain : List String} {resolved : Resolved}
    {name : String} {d : Definition} (h : r.Settled root (chain ++ [name]) resolved)
    (distinct : (chain ++ [name]).Nodup) (reached : r.Reaches root name)
    (own : r.definition name = .ok d)
    (all : ∀ i ∈ d.includes, Text.trimmed i ∈ names resolved) :
    r.Settled root chain (resolved ++ [(name, d)]) := by
  have new : name ∉ names resolved :=
    h.apart name (List.mem_append_right _ (List.mem_singleton_self name))
  refine ⟨.snoc h.ordered new own ?_, ?_, ?_⟩
  · intro other included
    obtain ⟨i, mem, rfl⟩ := List.mem_map.1 ((includes_iff own).1 included)
    exact all i mem
  · intro other mem
    rcases mem_names_concat.1 mem with before | rfl
    · exact h.reached other before
    · exact reached
  · intro other mem done
    rcases mem_names_concat.1 done with before | rfl
    · exact h.apart other (List.mem_append_left _ mem) before
    · exact (List.nodup_append.1 distinct).2.2 _ mem _ (List.mem_singleton_self _) rfl

/-- What following names can come to. -/
inductive Outcome (r : Resolver) (root : String) (chain : List String) (resolved : Resolved)
    (includes : List String) : Except SchemaError Resolved → Prop where
  /-- A cycle is closed. -/
  | cycle {path : List String} (circular : r.Circular root path) :
      r.Outcome root chain resolved includes (.error (.includeCycle path))
  /-- There is no reading the definition of a name. -/
  | unread {name : String} {e : SchemaError} (reached : r.Reaches root name)
      (unreadable : r.definition name = .error e) :
      r.Outcome root chain resolved includes (.error e)
  /-- All of the names are resolved. -/
  | resolved {more : Resolved} (settled : r.Settled root chain more)
      (kept : names resolved ⊆ names more)
      (all : ∀ name ∈ includes, Text.trimmed name ∈ names more) :
      r.Outcome root chain resolved includes (.ok more)

section Following

variable {r : Resolver} {root : String} {chain : List String}

/-- An error says the same wherever the traversal is. -/
theorem Outcome.error {resolved : Resolved} {includes : List String} {e : SchemaError}
    (h : r.Outcome root chain resolved includes (.error e)) (chain' : List String)
    (resolved' : Resolved) (includes' : List String) :
    r.Outcome root chain' resolved' includes' (.error e) := by
  cases h with
  | cycle circular => exact .cycle circular
  | unread reached unreadable => exact .unread reached unreadable

/-- Names are followed one after another. -/
theorem foldlM_outcome {includes : List String}
    (one : ∀ name ∈ includes, ∀ resolved, r.Settled root chain resolved →
      ∃ result, (r.visit chain resolved name).run = some result ∧
        r.Outcome root chain resolved [name] result)
    {resolved : Resolved} (settled : r.Settled root chain resolved) :
    ∃ result, (includes.foldlM (r.visit chain) resolved).run = some result ∧
      r.Outcome root chain resolved includes result := by
  induction includes generalizing resolved with
  | nil => exact ⟨.ok resolved, rfl, .resolved settled (List.Subset.refl _) nofun⟩
  | cons name includes ih =>
    obtain ⟨result, first, outcome⟩ := one name List.mem_cons_self resolved settled
    rw [List.foldlM_cons]
    cases result with
    | error e => exact ⟨_, run_bind_of_error first _, outcome.error ..⟩
    | ok more =>
      obtain _ | _ | ⟨settled, kept, here⟩ := outcome
      obtain ⟨result, others, outcome⟩ :=
        ih (fun name mem => one name (List.mem_cons_of_mem _ mem)) settled
      refine ⟨result, (run_bind_of_ok first _).trans others, ?_⟩
      cases result with
      | error e => exact outcome.error ..
      | ok all_resolved =>
        obtain _ | _ | ⟨settled, kept', all⟩ := outcome
        refine .resolved settled (List.Subset.trans kept kept') ?_
        intro other mem
        rcases List.mem_cons.1 mem with rfl | later
        · exact kept' (here other (List.mem_singleton_self _))
        · exact all other later

/-- A path that meets no name twice is not longer than the number of names that can be
reached. -/
theorem length_le_of_path (finite : {name | r.Reaches root name}.Finite) {name : String}
    (path : r.Path root (chain ++ [name])) (distinct : chain.Nodup) :
    chain.length ≤ finite.toFinset.card := by
  rw [← List.toFinset_card_of_nodup distinct]
  apply Finset.card_le_card
  intro other mem
  rw [Set.Finite.mem_toFinset]
  exact path.reaches (List.mem_append_left _ (List.mem_toFinset.1 mem))

/-- **What following a name comes to.**  The induction is on the room that is left: the
number of names that can be reached and are not on the path. -/
theorem visit_outcome (finite : {name | r.Reaches root name}.Finite) {room : Nat}
    {resolved : Resolved} {name : String} (path : r.Path root (chain ++ [Text.trimmed name]))
    (distinct : chain.Nodup) (enough : finite.toFinset.card < chain.length + room)
    (settled : r.Settled root chain resolved) :
    ∃ result, (r.visit chain resolved name).run = some result ∧
      r.Outcome root chain resolved [name] result := by
  induction room generalizing chain resolved name with
  | zero => exact absurd (length_le_of_path finite path distinct) (Nat.not_le.2 enough)
  | succ room ih =>
    by_cases met : Text.trimmed name ∈ chain
    · exact ⟨_, visit_of_mem met, .cycle ⟨path, chain, _, rfl, met⟩⟩
    by_cases known : Text.trimmed name ∈ names resolved
    · refine ⟨_, visit_of_resolved met known, .resolved settled (List.Subset.refl _) ?_⟩
      intro other mem
      rwa [List.mem_singleton.1 mem]
    have reached : r.Reaches root (Text.trimmed name) :=
      path.reaches (List.mem_append_right _ (List.mem_singleton_self _))
    rw [visit_of_new met known]
    cases own : r.definition (Text.trimmed name) with
    | error e => exact ⟨.error e, rfl, .unread reached own⟩
    | ok d =>
      have longer : finite.toFinset.card < (chain ++ [Text.trimmed name]).length + room := by
        rw [List.length_append, List.length_singleton]
        omega
      have distinct : (chain ++ [Text.trimmed name]).Nodup := by
        rw [← List.concat_eq_append]
        exact distinct.concat met
      have leads (i : String) (mem : i ∈ d.includes) :
          r.Includes (Text.trimmed name) (Text.trimmed i) := ⟨d, own, List.mem_map_of_mem mem⟩
      obtain ⟨result, followed, outcome⟩ := foldlM_outcome
        (fun i mem _ settled => ih (path.snoc (leads i mem)) distinct longer settled)
        (settled.enter known)
      cases result with
      | error e => exact ⟨_, run_bind_of_error followed _, outcome.error ..⟩
      | ok more =>
        obtain _ | _ | ⟨settled, kept, all⟩ := outcome
        refine ⟨_, run_bind_of_ok followed _, .resolved (settled.snoc distinct reached own all) ?_ ?_⟩
        · rw [names_append]
          exact List.subset_append_of_subset_left _ kept
        · intro other mem
          exact mem_names_concat.2 (.inr (congrArg Text.trimmed (List.mem_singleton.1 mem)))

end Following

end Resolver

namespace Dialect

open Resolver

/-! ## Merging closes no cycle -/

/-- A result that is not the report of a cycle. -/
def NoCycle {α : Type} (x : Except SchemaError α) : Prop := ∀ path, x ≠ .error (.includeCycle path)

section NoCycle

variable {α β : Type}

theorem NoCycle.bind {x : Except SchemaError α} {f : α → Except SchemaError β} (hx : NoCycle x)
    (hf : ∀ a, NoCycle (f a)) : NoCycle (x >>= f) := by
  cases x with
  | error e =>
    intro path h
    cases h
    exact hx path rfl
  | ok a => exact hf a

theorem noCycle_foldlM {f : β → α → Except SchemaError β} (hf : ∀ b a, NoCycle (f b a))
    (l : List α) (b : β) : NoCycle (l.foldlM f b) := by
  induction l generalizing b with
  | nil => exact nofun
  | cons a l ih =>
    rw [List.foldlM_cons]
    exact (hf b a).bind ih

end NoCycle

theorem noCycle_addEntry (enum : String) (entries : List EnumEntry) (new : EnumEntry) :
    NoCycle (Enum.addEntry enum entries new) := by
  intro path
  unfold Enum.addEntry
  split
  · exact nofun
  · split <;> exact nofun
  · exact nofun

theorem noCycle_addEnum (enums : Dictionary String Enum) (new : Enum) :
    NoCycle (addEnum enums new) := by
  unfold addEnum
  split
  · exact nofun
  · next old _ =>
    have merged : NoCycle (old.merge new) :=
      (noCycle_foldlM (noCycle_addEntry old.name) _ _).bind fun _ => nofun
    exact merged.bind fun _ => nofun

theorem noCycle_addMessage (t : MessageTable) (new : Message) : NoCycle (t.add new) := by
  intro path
  unfold MessageTable.add
  split
  · split
    · exact nofun
    · split <;> exact nofun
  · split <;> exact nofun

theorem noCycle_dangling (enums : Dictionary String Enum) (messages : List Message)
    {e : SchemaError} (found : dangling? enums messages = some e) (path : List String) :
    e ≠ .includeCycle path := by
  obtain ⟨m, -, found⟩ := List.exists_of_findSome?_eq_some found
  obtain ⟨f, -, found⟩ := List.exists_of_findSome?_eq_some found
  obtain ⟨enum, -, rfl⟩ := Option.map_eq_some_iff.1 found
  exact nofun

theorem noCycle_ofDefinitions (name : String) (definitions : Resolved) :
    NoCycle (ofDefinitions name definitions) := by
  refine (noCycle_foldlM (fun m d => ?_) _ _).bind fun merged => ?_
  · exact (noCycle_foldlM noCycle_addEnum _ _).bind fun _ =>
      (noCycle_foldlM noCycle_addMessage _ _).bind fun _ => nofun
  · split
    · next e found =>
      intro path h
      cases h
      exact noCycle_dangling _ _ found path rfl
    · exact nofun

/-! ## Loading -/

/-- The last definition is the one whose version and number a dialect has. -/
theorem root_of_ofDefinitions {name last : String} {order : Resolved} {d : Definition}
    {dialect : Dialect} (h : ofDefinitions name (order ++ [(last, d)]) = .ok dialect) :
    dialect.includes = names order ∧ dialect.version = d.version ∧ dialect.number = d.dialect := by
  obtain ⟨merged, -, rfl⟩ := exists_merged_of_ofDefinitions h
  simp [names]

theorem load_of_visit {r : Resolver} {root : String} {result : Except SchemaError Resolved}
    (visited : (r.visit [] [] root).run = some result) :
    load r root = some (result >>= ofDefinitions (nameOf root)) := by
  cases result with
  | error e => exact run_bind_of_error visited _
  | ok resolved => exact run_bind_of_ok visited _

/-- Where finitely many names can be reached, following the root comes back. -/
theorem exists_visit {r : Resolver} {root : String} (finite : {name | r.Reaches root name}.Finite) :
    ∃ result, (r.visit [] [] root).run = some result ∧ r.Outcome root [] [] [root] result := by
  have nothing : r.Settled root [] [] := ⟨.nil, nofun, nofun⟩
  have enough : finite.toFinset.card < ([] : List String).length + (finite.toFinset.card + 1) := by
    rw [List.length_nil]
    omega
  exact visit_outcome finite (.start r root) List.nodup_nil enough nothing

/-- **Loading follows the graph of includes.**  Suppose that a root leads to finitely many
names, and that each of them has a definition.  Then loading comes back.  It reports a cycle
exactly if the root leads to one, by a path of includes from the root to a name that is on
the path before.  Otherwise it merges the definitions of all names that the root leads to,
each once and after all that it includes, the root last; the dialect lists the others as its
includes in this order, and has the version and the number of the root. -/
theorem load_follows_includes (r : Resolver) (root : String)
    (finite : {name | r.Reaches root name}.Finite)
    (defined : ∀ name, r.Reaches root name → ∃ d, r.definition name = .ok d) :
    ∃ result, load r root = some result ∧
      ((∃ path, result = .error (.includeCycle path)) ↔
        ∃ name, r.Reaches root name ∧ TransGen r.Includes name name) ∧
      (∀ path, result = .error (.includeCycle path) →
        path.head? = some (Text.trimmed root) ∧ path.IsChain r.Includes ∧
        ∃ before last, path = before ++ [last] ∧ last ∈ before) ∧
      ((∀ name, r.Reaches root name → ¬ TransGen r.Includes name name) →
        ∃ others d order,
          order = others ++ [(Text.trimmed root, d)] ∧
          result = ofDefinitions (nameOf root) order ∧
          (names order).Nodup ∧
          (∀ name, name ∈ names order ↔ r.Reaches root name) ∧
          (∀ name d, (name, d) ∈ order → r.definition name = .ok d) ∧
          (∀ before name d after, order = before ++ (name, d) :: after →
            ∀ other, r.Includes name other → other ∈ names before) ∧
          ∀ dialect, result = .ok dialect →
            dialect.includes = names others ∧ dialect.version = d.version ∧
            dialect.number = d.dialect) := by
  obtain ⟨result, visited, outcome⟩ := exists_visit finite
  refine ⟨_, load_of_visit visited, ?_⟩
  cases outcome with
  | @cycle path circular =>
    have cyclic := circular.cycle
    refine ⟨⟨fun _ => cyclic, fun _ => ⟨path, rfl⟩⟩, ?_, ?_⟩
    · rintro _ ⟨⟩
      exact ⟨circular.starts, circular.follows, circular.closes⟩
    · intro acyclic
      obtain ⟨name, reached, on_cycle⟩ := cyclic
      exact absurd on_cycle (acyclic name reached)
  | unread reached unreadable =>
    obtain ⟨d, own⟩ := defined _ reached
    rw [own] at unreadable
    cases unreadable
  | @resolved order settled _ all =>
    obtain ⟨ordered, reached, -⟩ := settled
    have root_done := all root (List.mem_singleton_self root)
    have complete (name : String) : name ∈ names order ↔ r.Reaches root name :=
      ⟨reached name, ordered.closed root_done⟩
    have no_report (path : List String) := noCycle_ofDefinitions (nameOf root) order path
    refine ⟨⟨?_, ?_⟩, ?_, ?_⟩
    · rintro ⟨path, report⟩
      exact absurd report (no_report path)
    · rintro ⟨name, leads, on_cycle⟩
      exact absurd on_cycle (ordered.acyclic ((complete name).2 leads))
    · intro path report
      exact absurd report (no_report path)
    · intro _
      obtain ⟨others, d, rfl⟩ := ordered.ends_with_root root_done reached
      exact ⟨others, d, _, rfl, rfl, ordered.nodup, complete, fun _ _ => ordered.definition,
        fun _ _ _ _ split _ => ordered.before split, fun _ => root_of_ofDefinitions⟩

/-- Two definitions that include each other. -/
theorem load_of_mutual_includes :
    let r := Resolver.ofTexts (.ofList
      [("a.xml", "<mavlink><include>b.xml</include></mavlink>"),
        ("b.xml", "<mavlink><include>a.xml</include></mavlink>")])
    (∀ name, r.Reaches "a.xml" name → ∃ d, r.definition name = .ok d) ∧
      ∃ path, load r "a.xml" = some (.error (.includeCycle path)) := by
  intro r
  have a : (r.definition "a.xml").map (·.includes) = .ok ["b.xml"] := by decide +kernel
  have b : (r.definition "b.xml").map (·.includes) = .ok ["a.xml"] := by decide +kernel
  obtain ⟨da, read_a, includes_a⟩ := exists_of_map_eq_ok a
  obtain ⟨db, read_b, includes_b⟩ := exists_of_map_eq_ok b
  have trimmed : Text.trimmed "a.xml" = "a.xml" ∧ Text.trimmed "b.xml" = "b.xml" := by
    decide +kernel
  have from_a : ∀ other, r.Includes "a.xml" other ↔ other = "b.xml" := by
    intro other
    simp [Resolver.includes_iff read_a, includes_a, trimmed]
  have from_b : ∀ other, r.Includes "b.xml" other ↔ other = "a.xml" := by
    intro other
    simp [Resolver.includes_iff read_b, includes_b, trimmed]
  have defined : ∀ name, r.Reaches "a.xml" name → ∃ d, r.definition name = .ok d := by
    intro name leads
    have either : name = "a.xml" ∨ name = "b.xml" := by
      induction leads with
      | refl => exact .inl trimmed.1
      | tail _ included ih =>
        rcases ih with rfl | rfl
        · exact .inr ((from_a _).1 included)
        · exact .inl ((from_b _).1 included)
    rcases either with rfl | rfl
    · exact ⟨da, read_a⟩
    · exact ⟨db, read_b⟩
  have finite : {name | r.Reaches "a.xml" name}.Finite :=
    Resolver.finite_reaches (Resolver.finite_definitions_ofTexts _) "a.xml"
  obtain ⟨result, loaded, cycle, -⟩ := load_follows_includes r "a.xml" finite defined
  have start : r.Reaches "a.xml" "a.xml" := by
    rw [Resolver.Reaches, trimmed.1]
  have around : TransGen r.Includes "a.xml" "a.xml" :=
    (TransGen.single ((from_a _).2 rfl)).tail ((from_b _).2 rfl)
  obtain ⟨path, report⟩ := cycle.2 ⟨"a.xml", start, around⟩
  exact ⟨defined, path, report ▸ loaded⟩

end Dialect
end Mavlink
