import Mathlib
import Mavlink.Schema.Loading

/-!
# The graph of includes

The names of definitions are the nodes of a graph, in which every name leads to the names
that its definition includes.  Loading a root follows this graph from the root on, and comes
to one of two things: a path that closes a cycle (`Resolver.Circular`), or an order of
definitions in which each stands after those that it includes (`Resolver.Ordered`).

* `Resolver.Circular.cycle` --- a path that meets a name again shows a cycle;
* `Resolver.Ordered.closed` --- with a name, an order has every name that includes lead to;
* `Resolver.Ordered.acyclic` --- so no name of an order is on a cycle.
-/

namespace Mavlink

open Relation

namespace Resolver

/-- The definition of a name includes another name. -/
def Includes (r : Resolver) (name other : String) : Prop :=
  ∃ d, r.definition name = .ok d ∧ other ∈ d.includes.map Text.trimmed

/-- Includes lead from a root to a name. -/
def Reaches (r : Resolver) (root name : String) : Prop :=
  ReflTransGen r.Includes (Text.trimmed root) name

/-- Includes that follow on each other from a root on. -/
structure Path (r : Resolver) (root : String) (path : List String) : Prop where
  starts : path.head? = some (Text.trimmed root)
  follows : path.IsChain r.Includes

/-- A path that ends with a name that it has met before. -/
structure Circular (r : Resolver) (root : String) (path : List String) : Prop extends
    Path r root path where
  closes : ∃ before last, path = before ++ [last] ∧ last ∈ before

variable {r : Resolver} {root : String}

theorem includes_iff {name other : String} {d : Definition} (own : r.definition name = .ok d) :
    r.Includes name other ↔ other ∈ d.includes.map Text.trimmed := by
  constructor
  · rintro ⟨d', read, included⟩
    rw [own] at read
    cases read
    exact included
  · intro included
    exact ⟨d, own, included⟩

namespace Path

theorem start (r : Resolver) (root : String) : Path r root [Text.trimmed root] :=
  ⟨rfl, .singleton _⟩

/-- A path goes on to what its last name includes. -/
theorem snoc {chain : List String} {name other : String} (h : Path r root (chain ++ [name]))
    (included : r.Includes name other) : Path r root (chain ++ [name] ++ [other]) := by
  constructor
  · rw [List.head?_append, h.starts]
    rfl
  · apply h.follows.append (.singleton _)
    intro last is_last next is_next
    rw [List.getLast?_concat] at is_last
    cases is_last
    cases is_next
    exact included

theorem reaches {path : List String} (h : Path r root path) {name : String} (on : name ∈ path) :
    r.Reaches root name := by
  obtain ⟨starts, follows⟩ := h
  cases path with
  | nil => cases on
  | cons first path =>
    cases starts
    rcases List.mem_cons.1 on with rfl | later
    · exact .refl
    · have ordered : (Text.trimmed root :: path).Pairwise (ReflTransGen r.Includes) :=
        (follows.imp fun _ _ => ReflTransGen.single).pairwise
      exact List.rel_of_pairwise_cons ordered later

end Path

/-- A path that meets a name again shows a cycle. -/
theorem Circular.cycle {path : List String} (h : Circular r root path) :
    ∃ name, r.Reaches root name ∧ TransGen r.Includes name name := by
  obtain ⟨before, last, rfl, met⟩ := h.closes
  have ordered : (before ++ [last]).Pairwise (TransGen r.Includes) :=
    (h.follows.imp fun _ _ => TransGen.single).pairwise
  refine ⟨last, h.reaches (List.mem_append_left _ met), ?_⟩
  exact (List.pairwise_append.1 ordered).2.2 last met last (List.mem_singleton_self last)

/-! ## Finitely many definitions -/

/-- A name includes finitely many names. -/
theorem finite_includes (r : Resolver) (name : String) : {other | r.Includes name other}.Finite := by
  cases own : r.definition name with
  | error e =>
    apply Set.finite_empty.subset
    rintro other ⟨d, read, -⟩
    rw [own] at read
    cases read
  | ok d =>
    apply (d.includes.map Text.trimmed).finite_toSet.subset
    intro other included
    exact (includes_iff own).1 included

/-- Where only finitely many names have definitions, only finitely many can be reached. -/
theorem finite_reaches (defined : {name | ∃ d, r.definition name = .ok d}.Finite)
    (root : String) : {name | r.Reaches root name}.Finite := by
  have included := defined.biUnion fun name _ => r.finite_includes name
  apply ((Set.finite_singleton (Text.trimmed root)).union included).subset
  intro name leads
  rcases (ReflTransGen.cases_tail_iff _ _ _).1 leads with here | ⟨before, -, d, own, mem⟩
  · exact .inl here
  · exact .inr (Set.mem_biUnion ⟨d, own⟩ ⟨d, own, mem⟩)

/-- A resolver that holds the texts has no more definitions than texts with their suffix and
without. -/
theorem finite_definitions_ofTexts (texts : Dictionary String String) :
    {name | ∃ d, (ofTexts texts).definition name = .ok d}.Finite := by
  have held : {key | key ∈ texts.keys}.Finite := List.finite_toSet _
  have suffixed : (Set.preimage (· ++ ".xml") {key | key ∈ texts.keys}).Finite := by
    apply held.preimage
    intro a _ b _ same
    exact (String.append_left_inj ".xml").1 same
  apply (held.union suffixed).subset
  rintro name ⟨d, own⟩
  have key_of_find {key text : String} (found : texts.find? key = some text) :
      key ∈ texts.keys :=
    List.mem_map_of_mem (Dictionary.find?_eq_some_iff.1 found)
  cases plain : texts.find? name with
  | some text => exact .inl (key_of_find plain)
  | none =>
    cases longer : texts.find? (name ++ ".xml") with
    | some text => exact .inr (key_of_find longer)
    | none =>
      have missing : (ofTexts texts).fetch name = .error (.fetch name "no such definition") := by
        simp only [ofTexts, plain, longer]
        rfl
      rw [definition, missing] at own
      cases own

/-! ## Orders -/

/-- The names that have been resolved. -/
def names (resolved : Resolved) : List String := resolved.map (·.1)

theorem names_append (a b : Resolved) : names (a ++ b) = names a ++ names b :=
  List.map_append

theorem mem_names_concat {resolved : Resolved} {name other : String} {d : Definition} :
    other ∈ names (resolved ++ [(name, d)]) ↔ other ∈ names resolved ∨ other = name := by
  rw [names_append, List.mem_append]
  exact or_congr_right List.mem_singleton

/-- Each name has been resolved once, with its own definition, and after all names that it
includes. -/
inductive Ordered (r : Resolver) : Resolved → Prop where
  | nil : r.Ordered []
  | snoc {resolved : Resolved} {name : String} {d : Definition} (before : r.Ordered resolved)
      (new : name ∉ names resolved) (own : r.definition name = .ok d)
      (included : ∀ other, r.Includes name other → other ∈ names resolved) :
      r.Ordered (resolved ++ [(name, d)])

namespace Ordered

variable {resolved : Resolved}

theorem nodup (h : r.Ordered resolved) : (names resolved).Nodup := by
  induction h with
  | nil => exact List.nodup_nil
  | snoc _ new _ _ ih =>
    rw [names_append]
    exact List.concat_eq_append ▸ ih.concat new

theorem definition (h : r.Ordered resolved) {name : String} {d : Definition}
    (mem : (name, d) ∈ resolved) : r.definition name = .ok d := by
  induction h with
  | nil => cases mem
  | snoc _ _ own _ ih =>
    rcases List.mem_append.1 mem with before | last
    · exact ih before
    · cases List.mem_singleton.1 last
      exact own

/-- What a name includes stands before it. -/
theorem before (h : r.Ordered resolved) {a b : Resolved} {name other : String} {d : Definition}
    (split : resolved = a ++ (name, d) :: b) (included : r.Includes name other) :
    other ∈ names a := by
  induction h generalizing b with
  | nil => exact absurd split.symm (List.append_ne_nil_of_right_ne_nil _ (List.cons_ne_nil _ _))
  | snoc _ _ _ all ih =>
    rcases List.eq_nil_or_concat b with rfl | ⟨b, last, rfl⟩
    · obtain ⟨rfl, here⟩ := List.append_inj' split rfl
      cases here
      exact all other included
    · rw [List.concat_eq_append, ← List.cons_append, ← List.append_assoc] at split
      exact ih (List.append_inj' split rfl).1

/-- With a name, an order has every name that includes lead to. -/
theorem closed (h : r.Ordered resolved) {name other : String} (mem : name ∈ names resolved)
    (leads : ReflTransGen r.Includes name other) : other ∈ names resolved := by
  induction leads with
  | refl => exact mem
  | tail _ included ih =>
    obtain ⟨⟨name, d⟩, resolved_name, rfl⟩ := List.mem_map.1 ih
    obtain ⟨a, b, rfl⟩ := List.append_of_mem resolved_name
    rw [names_append]
    exact List.mem_append_left _ (h.before rfl included)

/-- No name of an order is on a cycle. -/
theorem acyclic (h : r.Ordered resolved) {name : String} (mem : name ∈ names resolved) :
    ¬ TransGen r.Includes name name := by
  induction h with
  | nil => cases mem
  | snoc ordered new _ included ih =>
    intro cycle
    rcases mem_names_concat.1 mem with before | rfl
    · exact ih before cycle
    · -- the first include of the cycle stands before the name, and so does all it leads to
      obtain ⟨next, first, back⟩ := TransGen.head'_iff.1 cycle
      exact new (ordered.closed (included next first) back)

/-- An order of what a root leads to ends with the root. -/
theorem ends_with_root (h : r.Ordered resolved) {root : String}
    (resolved_root : Text.trimmed root ∈ names resolved)
    (reached : ∀ name ∈ names resolved, r.Reaches root name) :
    ∃ a d, resolved = a ++ [(Text.trimmed root, d)] := by
  cases h with
  | nil => cases resolved_root
  | @snoc a name d ordered new _ _ =>
    refine ⟨a, d, ?_⟩
    rcases mem_names_concat.1 resolved_root with before | last
    · have leads : r.Reaches root name := reached name (mem_names_concat.2 (.inr rfl))
      exact absurd (ordered.closed before leads) new
    · rw [last]

end Ordered

end Resolver
end Mavlink
