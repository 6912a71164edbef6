import Mathlib
import Mavlink.Codegen.Naming

/-!
# What a check of names finds

A scope compares a new name with what its identifier stood for before, and with nothing else.
That is enough for all the names of a file: they are accepted just if in no scope of the file an
identifier stands for two things, and a refusal shows two names of one scope that clash, the
earlier one first.

* `Naming.Clash` --- two names of one scope that cannot stand together;
* `Scope.claim_outcome`, `Scope.declare_outcome` --- what becomes of one name and of one
  declaration;
* `Scope.check_outcome`, `Scope.map_check_outcome` --- what becomes of a file, by induction on its
  declarations, and of what is made of it;
* `Naming.nodup_ident_iff` --- names that are all different have different identifiers just if
  none of them clash.
-/

namespace Mavlink.Codegen

namespace Naming

/-- No identifier stands for two things. -/
def Unambiguous (ns : List Naming) : Prop :=
  ∀ a ∈ ns, ∀ b ∈ ns, a.ident = b.ident → a.source = b.source

/-- The second of two names makes the identifier of the first stand for something else. -/
structure Clash (ns : List Naming) (a b : Naming) : Prop where
  order : [a, b].Sublist ns
  ident : a.ident = b.ident
  source : a.source ≠ b.source

variable {ns : List Naming} {a b : Naming}

theorem Clash.mono {more : List Naming} (h : Clash ns a b) (sub : ns.Sublist more) :
    Clash more a b :=
  ⟨h.order.trans sub, h.ident, h.source⟩

theorem Clash.not_unambiguous (h : Clash ns a b) : ¬ Unambiguous ns := by
  intro unambiguous
  have ha : a ∈ ns := h.order.subset List.mem_cons_self
  have hb : b ∈ ns := h.order.subset (List.mem_cons_of_mem a List.mem_cons_self)
  exact h.source (unambiguous a ha b hb h.ident)

/-- Names are different if they stand for different things. -/
theorem nodup_map_of_sources {α : Type} {ident source : α → String} {l : List α}
    (apart : l.Pairwise fun a b => source a ≠ source b) :
    (l.map fun a => (⟨ident a, source a⟩ : Naming)).Nodup :=
  List.pairwise_map.2 (apart.imp fun apart same => apart (congrArg Naming.source same))

/-- Different names have different identifiers just if no identifier stands for two things. -/
theorem nodup_ident_iff (different : ns.Nodup) :
    (ns.map (·.ident)).Nodup ↔ Unambiguous ns := by
  rw [List.nodup_map_iff_inj_on different]
  constructor
  · intro inj a ha b hb same
    rw [inj a ha b hb same]
  · intro unambiguous a ha b hb same
    have source := unambiguous a ha b hb same
    cases a
    cases b
    cases same
    cases source
    rfl

end Naming

open Naming

/-- What a language says about two names that clash. -/
def clashOf (backend : String) (a b : Naming) : CodegenError :=
  .nameClash backend b.ident a.source b.source

/-- The scopes of a file: the outermost one, with the identifiers that are in every file, and
one inside each declaration. -/
def scopesOf (reserved : List String) (declarations : List Declaration) : List (List Naming) :=
  (reserved.map (⟨·, reservedSource⟩) ++ declarations.map (·.naming))
    :: declarations.map (·.members)

namespace Scope

/-- A scope after names were claimed that do not clash. -/
def Holds (scope : Scope) (ns : List Naming) : Prop :=
  ∀ ident source, scope.find? ident = some source ↔ ⟨ident, source⟩ ∈ ns

variable {backend : String} {scope : Scope} {ns : List Naming}

theorem holds_nothing : Holds ∅ [] := by
  intro ident source
  exact iff_of_false nofun List.not_mem_nil

theorem Holds.unambiguous (h : scope.Holds ns) : Unambiguous ns := by
  intro a ha b hb same
  have first := (h a.ident a.source).2 ha
  have second := (h b.ident b.source).2 hb
  rw [same, second] at first
  exact (Option.some.inj first).symm

/-- **What becomes of one name.**  It is claimed, or an earlier name clashes with it. -/
theorem claim_outcome (h : scope.Holds ns) (n : Naming) :
    (∃ scope', scope.claim backend n = .ok scope' ∧ scope'.Holds (ns ++ [n])) ∨
      ∃ a, Clash (ns ++ [n]) a n ∧ scope.claim backend n = .error (clashOf backend a n) := by
  unfold claim
  cases found : scope.find? n.ident with
  | none =>
    refine .inl ⟨_, rfl, fun ident source => ?_⟩
    rw [Dictionary.find?_insert, List.mem_append, List.mem_singleton]
    split
    · next same =>
      subst same
      have free : (⟨n.ident, source⟩ : Naming) ∉ ns := fun taken => by
        rw [(h _ _).2 taken] at found
        cases found
      cases n
      simp [free, eq_comm]
    · next other =>
      have not_new : (⟨ident, source⟩ : Naming) ≠ n := fun same => other (same ▸ rfl)
      rw [h ident source, or_iff_left not_new]
  | some first =>
    have there : (⟨n.ident, first⟩ : Naming) ∈ ns := (h _ _).1 found
    by_cases same : first = n.source
    · refine .inl ⟨scope, if_pos same, fun ident source => ?_⟩
      have known : n ∈ ns := by rwa [same] at there
      rw [h ident source, List.mem_append, List.mem_singleton, or_iff_left_of_imp]
      rintro rfl
      exact known
    · refine .inr ⟨⟨n.ident, first⟩, ⟨?_, rfl, same⟩, if_neg same⟩
      exact (List.singleton_sublist.2 there).append (List.Sublist.refl [n])

/-- **Names one after another** are claimed, or two of them clash. -/
theorem foldlM_claim_outcome (h : scope.Holds ns) (new : List Naming) :
    (∃ scope', new.foldlM (claim backend) scope = .ok scope' ∧ scope'.Holds (ns ++ new)) ∨
      ∃ a b, Clash (ns ++ new) a b ∧
        new.foldlM (claim backend) scope = .error (clashOf backend a b) := by
  induction new generalizing scope ns with
  | nil => exact .inl ⟨scope, rfl, (List.append_nil ns).symm ▸ h⟩
  | cons n new ih =>
    rw [List.foldlM_cons, List.append_cons]
    rcases claim_outcome h n with ⟨next, claimed, holds⟩ | ⟨a, clash, refused⟩
    · rw [claimed]
      exact ih holds
    · rw [refused]
      exact .inr ⟨a, n, clash.mono (List.sublist_append_left _ new), rfl⟩

/-- **What becomes of a declaration.** -/
theorem declare_outcome (h : scope.Holds ns) (d : Declaration) :
    (∃ scope', scope.declare backend d = .ok scope' ∧ scope'.Holds (ns ++ [d.naming]) ∧
        Unambiguous d.members) ∨
      ∃ a b, (Clash (ns ++ [d.naming]) a b ∨ Clash d.members a b) ∧
        scope.declare backend d = .error (clashOf backend a b) := by
  unfold declare
  rcases claim_outcome h d.naming with ⟨next, claimed, holds⟩ | ⟨a, clash, refused⟩
  · rw [claimed]
    rcases foldlM_claim_outcome holds_nothing d.members with
      ⟨inner, members, own⟩ | ⟨a, b, clash, refused⟩
    · refine .inl ⟨next, ?_, holds, own.unambiguous⟩
      show (d.members.foldlM (claim backend) ∅ >>= fun _ => pure next) = .ok next
      rw [members]
      rfl
    · refine .inr ⟨a, b, .inr clash, ?_⟩
      show (d.members.foldlM (claim backend) ∅ >>= fun _ => pure next) = .error _
      rw [refused]
      rfl
  · rw [refused]
    exact .inr ⟨a, d.naming, .inl clash, rfl⟩

/-- **Declarations one after another.** -/
theorem foldlM_declare_outcome (h : scope.Holds ns) (ds : List Declaration) :
    (∃ scope', ds.foldlM (declare backend) scope = .ok scope' ∧
        scope'.Holds (ns ++ ds.map (·.naming)) ∧ ∀ d ∈ ds, Unambiguous d.members) ∨
      ∃ a b, (Clash (ns ++ ds.map (·.naming)) a b ∨ ∃ d ∈ ds, Clash d.members a b) ∧
        ds.foldlM (declare backend) scope = .error (clashOf backend a b) := by
  induction ds generalizing scope ns with
  | nil => exact .inl ⟨scope, rfl, (List.append_nil ns).symm ▸ h, nofun⟩
  | cons d ds ih =>
    rw [List.foldlM_cons, List.map_cons, List.append_cons]
    rcases declare_outcome h d with ⟨next, declared, holds, own⟩ | ⟨a, b, clash, refused⟩
    · rw [declared]
      rcases ih holds with ⟨last, all, holds, others⟩ | ⟨a, b, clash, refused⟩
      · exact .inl ⟨last, all, holds, List.forall_mem_cons.2 ⟨own, others⟩⟩
      · refine .inr ⟨a, b, clash.imp_right ?_, refused⟩
        rintro ⟨d', hd', clash⟩
        exact ⟨d', List.mem_cons_of_mem d hd', clash⟩
    · rw [refused]
      refine .inr ⟨a, b, ?_, rfl⟩
      rcases clash with outside | inside
      · exact .inl (outside.mono (List.sublist_append_left _ _))
      · exact .inr ⟨d, List.mem_cons_self, inside⟩

theorem holds_reserved {idents : List String} (different : idents.Nodup) :
    (Scope.reserved idents).Holds (idents.map (⟨·, reservedSource⟩)) := by
  intro ident source
  rw [List.mem_map]
  constructor
  · intro found
    obtain ⟨i, hi, same⟩ := List.mem_map.1 (Dictionary.mem_of_find?_ofList found)
    cases same
    exact ⟨ident, hi, rfl⟩
  · rintro ⟨i, hi, same⟩
    cases same
    refine Dictionary.find?_ofList_of_mem ?_ (List.mem_map_of_mem hi)
    rw [List.pairwise_map]
    exact different

/-- **What becomes of a file.**  Its names are accepted if no identifier of any scope stands
for two things; otherwise two names of one scope clash, and the error is about them. -/
theorem check_outcome {reserved : List String} (different : reserved.Nodup)
    (ds : List Declaration) :
    (check backend reserved ds = .ok () ∧ ∀ ns ∈ scopesOf reserved ds, Unambiguous ns) ∨
      ∃ ns ∈ scopesOf reserved ds, ∃ a b, Clash ns a b ∧
        check backend reserved ds = .error (clashOf backend a b) := by
  unfold check
  rcases foldlM_declare_outcome (holds_reserved different) ds with
    ⟨scope, declared, holds, inside⟩ | ⟨a, b, clash, refused⟩
  · rw [declared]
    exact .inl ⟨rfl, List.forall_mem_cons.2 ⟨holds.unambiguous, List.forall_mem_map.2 inside⟩⟩
  · rw [refused]
    rcases clash with outside | ⟨d, hd, inside⟩
    · exact .inr ⟨_, List.mem_cons_self, a, b, outside, rfl⟩
    · exact .inr ⟨_, List.mem_cons_of_mem _ (List.mem_map_of_mem hd), a, b, inside, rfl⟩

theorem check_eq_ok_iff {reserved : List String} (different : reserved.Nodup)
    {ds : List Declaration} :
    check backend reserved ds = .ok () ↔ ∀ ns ∈ scopesOf reserved ds, Unambiguous ns := by
  rcases check_outcome different ds with ⟨accepted, unambiguous⟩ | ⟨ns, mem, a, b, clash, refused⟩
  · exact iff_of_true accepted unambiguous
  · refine iff_of_false ?_ fun unambiguous => clash.not_unambiguous (unambiguous ns mem)
    rw [refused]
    exact nofun

variable {α : Type}

/-- **What becomes of what is made** of a file whose names are accepted. -/
theorem map_check_outcome {reserved : List String} (different : reserved.Nodup)
    (ds : List Declaration) (made : α) :
    ((check backend reserved ds).map (fun _ => made) = .ok made ∧
        ∀ ns ∈ scopesOf reserved ds, Unambiguous ns) ∨
      ∃ ns ∈ scopesOf reserved ds, ∃ a b, Clash ns a b ∧
        (check backend reserved ds).map (fun _ => made) = .error (clashOf backend a b) := by
  rcases check_outcome different ds with
    ⟨accepted, unambiguous⟩ | ⟨ns, mem, a, b, clash, refused⟩
  · rw [accepted]
    exact .inl ⟨rfl, unambiguous⟩
  · rw [refused]
    exact .inr ⟨ns, mem, a, b, clash, rfl⟩

theorem map_check_eq_ok_iff {reserved : List String} (different : reserved.Nodup)
    {ds : List Declaration} {made : α} :
    (check backend reserved ds).map (fun _ => made) = .ok made ↔
      ∀ ns ∈ scopesOf reserved ds, Unambiguous ns := by
  rw [← check_eq_ok_iff different]
  cases check backend reserved ds with
  | ok => exact iff_of_true rfl rfl
  | error => exact iff_of_false nofun nofun

end Scope

end Mavlink.Codegen
