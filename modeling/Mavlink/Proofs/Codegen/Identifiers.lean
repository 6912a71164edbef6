import Mathlib
import Mavlink.Codegen.RustModule
import Mavlink.Proofs.Schema.LayoutOrder

/-!
# Identifiers

A name becomes an identifier by a change of letter case, and a module is only made if no
identifier has to stand for two things.  So identifiers are spelled with the characters of
names, whatever the tables of letter case hold, and the fields of a structure are told apart
by theirs.

* `isNameChar_upperChar`, `isNameChar_lowerChar` --- a change of case stays among the
  characters of names;
* `isIdentifier_pascalCase`, `isIdentifier_identOf` --- the identifiers of messages and fields;
* `Scope.source_eq_of_foldlM_declare` --- what an accepted scope says of its identifiers;
* `RustModule.identOf_injOn` --- two fields of a message have two identifiers.
-/

namespace Mavlink
namespace Codegen

open Text CaseTable

/-! ## Characters -/

/-- Whether a character can stand in an identifier: a letter, a digit or an underscore, or
anything that is not ASCII. -/
def isNameChar (c : Char) : Bool := c.isAlphanum || c = '_' || 0x80 ≤ c.toNat

section Case

variable {p : Char → Bool} {runs : List Run} {many : List (Nat × List Nat)}

/-- Every code point of a run moves to a character with a property. -/
def Stays (p : Char → Bool) (runs : List Run) : Prop :=
  ∀ run ∈ runs, ∀ k < run.last + 1 - run.first,
    p (Char.ofNat (Int.toNat ((run.first + k : Nat) + run.shift))) = true

instance (p : Char → Bool) (runs : List Run) : Decidable (Stays p runs) := by
  unfold Stays
  infer_instance

theorem mem_of_lookup_eq_some {n : Nat} {image : List Nat} (h : many.lookup n = some image) :
    (n, image) ∈ many := by
  obtain ⟨before, after, rfl, -⟩ := List.lookup_eq_some_iff.1 h
  exact List.mem_append_right _ List.mem_cons_self

/-- What a table of letter case leads to has the property. -/
theorem Stays.of_moved (stays : Stays p runs) {n k : Nat} (h : moved? n runs = some k) :
    p (Char.ofNat k) = true := by
  induction runs with
  | nil => cases h
  | cons run runs ih =>
    unfold moved? at h
    split at h
    · next within =>
      cases h
      simp only [Bool.and_eq_true, decide_eq_true_eq] at within
      obtain ⟨⟨low, high⟩, -⟩ := within
      have image := stays run List.mem_cons_self (n - run.first) (by omega)
      rwa [Nat.add_sub_cancel' low] at image
    · exact ih (fun r hr => stays r (List.mem_cons_of_mem _ hr)) h

/-- A change of case leads to characters with a property, if one that stays has it. -/
theorem Stays.of_mem_mapCase (stays : Stays p runs)
    (images : ∀ q ∈ many, ∀ n ∈ q.2, p (Char.ofNat n) = true) {c d : Char}
    (unmoved : moved? c.toNat runs = none → p c = true) (hd : d ∈ mapCase runs many c) :
    p d = true := by
  unfold mapCase at hd
  split at hd
  · next image found =>
    obtain ⟨n, hn, rfl⟩ := List.mem_map.1 hd
    exact images _ (mem_of_lookup_eq_some found) n hn
  · obtain rfl := List.mem_singleton.1 hd
    cases moved : moved? c.toNat runs with
    | none => exact unmoved moved
    | some k => exact stays.of_moved moved

/-- A text in small letters has characters with a property, if those that stay have it. -/
theorem Stays.of_mem_lowerFrom (stays : Stays p lowerRuns)
    (images : ∀ q ∈ lowerMany, ∀ n ∈ q.2, p (Char.ofNat n) = true)
    (sigma : p 'ς' = true ∧ p 'σ' = true) {before cs : List Char}
    (unmoved : ∀ c ∈ cs, moved? c.toNat lowerRuns = none → p c = true) :
    ∀ d ∈ lowerFrom before cs, p d = true := by
  induction cs generalizing before with
  | nil => exact fun _ hd => absurd hd List.not_mem_nil
  | cons c cs ih =>
    obtain ⟨first, others⟩ := List.forall_mem_cons.1 unmoved
    intro d hd
    rw [lowerFrom] at hd
    rcases List.mem_append.1 hd with here | later
    · split at here
      · split at here
        · rw [List.mem_singleton.1 here]
          exact sigma.1
        · rw [List.mem_singleton.1 here]
          exact sigma.2
      · exact stays.of_mem_mapCase images first here
    · exact ih others d later

end Case

theorem stays_lower : Stays isNameChar lowerRuns := by decide +kernel

theorem stays_upper : Stays isNameChar upperRuns := by decide +kernel

theorem isNameChar_many : ∀ p ∈ upperMany ++ lowerMany, ∀ n ∈ p.2,
    isNameChar (Char.ofNat n) = true := by decide +kernel

theorem isNameChar_upperChar {c d : Char} (h : isNameChar c = true) (hd : d ∈ upperChar c) :
    isNameChar d = true :=
  stays_upper.of_mem_mapCase (fun p hp => isNameChar_many p (List.mem_append_left _ hp))
    (fun _ => h) hd

theorem isNameChar_lowerChar {c d : Char} (h : isNameChar c = true) (hd : d ∈ lowerChar c) :
    isNameChar d = true :=
  stays_lower.of_mem_mapCase (fun p hp => isNameChar_many p (List.mem_append_right _ hp))
    (fun _ => h) hd

theorem isNameChar_lowerFrom {before cs : List Char} (h : ∀ c ∈ cs, isNameChar c = true) :
    ∀ d ∈ lowerFrom before cs, isNameChar d = true :=
  stays_lower.of_mem_lowerFrom (fun p hp => isNameChar_many p (List.mem_append_right _ hp))
    (by decide) (fun c hc _ => h c hc)

/-! ## Names and identifiers -/

/-- A name that can be spelled as an identifier. -/
structure IsName (s : String) : Prop where
  nonempty : s.toList ≠ []
  chars : ∀ c ∈ s.toList, isNameChar c = true

/-- An identifier: a name that does not begin with a digit. -/
structure IsIdentifier (s : String) : Prop where
  head : ∃ c cs, s.toList = c :: cs ∧ c.isDigit = false
  chars : ∀ c ∈ s.toList, isNameChar c = true

theorem IsIdentifier.isName {s : String} (h : IsIdentifier s) : IsName s := by
  obtain ⟨⟨c, cs, spelled, -⟩, chars⟩ := h
  exact ⟨spelled ▸ List.cons_ne_nil c cs, chars⟩

theorem isIdentifier_identifier {cs : List Char} (h : ∀ c ∈ cs, isNameChar c = true) :
    IsIdentifier (identifier cs) := by
  cases cs with
  | nil => exact ⟨⟨'_', [], rfl, rfl⟩, fun c hc => by obtain rfl := List.mem_singleton.1 hc; rfl⟩
  | cons c cs =>
    unfold identifier
    by_cases digit : c.isDigit = true
    · simp only [digit, if_true]
      refine ⟨⟨'_', c :: cs, String.toList_ofList, rfl⟩, ?_⟩
      rw [String.toList_ofList, List.forall_mem_cons]
      exact ⟨rfl, h⟩
    · simp only [digit]
      exact ⟨⟨c, cs, String.toList_ofList, Bool.eq_false_of_not_eq_true digit⟩,
        String.toList_ofList ▸ h⟩

theorem intercalate_append {α : Type} {sep : List α} {a b : List (List α)} (ha : a ≠ [])
    (hb : b ≠ []) : sep.intercalate (a ++ b) = sep.intercalate a ++ sep ++ sep.intercalate b := by
  induction a with
  | nil => exact absurd rfl ha
  | cons l a ih =>
    rw [List.cons_append, List.intercalate_cons_of_ne_nil (List.append_ne_nil_of_right_ne_nil a hb)]
    rcases eq_or_ne a [] with rfl | more
    · rw [List.nil_append, List.intercalate_singleton]
    · rw [ih more, List.intercalate_cons_of_ne_nil more]
      simp only [List.append_assoc]

/-- Lists that follow one another among others, with a separator between each two. -/
theorem exists_intercalate_append_eq {α : Type} {sep : List α} (a : List (List α))
    {ls : List (List α)} (b : List (List α)) (some_list : ls ≠ []) :
    ∃ before after, sep.intercalate (a ++ ls ++ b) = before ++ sep.intercalate ls ++ after := by
  obtain ⟨after, behind⟩ : ∃ after, sep.intercalate (ls ++ b) = sep.intercalate ls ++ after := by
    rcases eq_or_ne b [] with rfl | hb
    · exact ⟨[], by rw [List.append_nil, List.append_nil]⟩
    · exact ⟨sep ++ sep.intercalate b, by rw [intercalate_append some_list hb, List.append_assoc]⟩
  rw [List.append_assoc]
  rcases eq_or_ne a [] with rfl | ha
  · exact ⟨[], after, behind⟩
  · refine ⟨sep.intercalate a ++ sep, after, ?_⟩
    rw [intercalate_append ha (List.append_ne_nil_of_left_ne_nil some_list b), behind,
      List.append_assoc (_ ++ _)]

/-- A list that stands among others with a separator between each two. -/
theorem exists_intercalate_eq {α : Type} {sep l : List α} {ls : List (List α)} (h : l ∈ ls) :
    ∃ before after, sep.intercalate ls = before ++ l ++ after := by
  obtain ⟨a, b, rfl⟩ := List.append_of_mem h
  obtain ⟨before, after, whole⟩ :
      ∃ before after, sep.intercalate (a ++ [l] ++ b) = before ++ sep.intercalate [l] ++ after :=
    exists_intercalate_append_eq a b (List.cons_ne_nil l [])
  rw [List.intercalate_singleton, List.append_assoc a, List.singleton_append] at whole
  exact ⟨before, after, whole⟩

theorem mem_of_mem_intercalate {α : Type} {sep : List α} {ls : List (List α)} {x : α}
    (h : x ∈ sep.intercalate ls) : x ∈ sep ∨ ∃ l ∈ ls, x ∈ l := by
  induction ls with
  | nil => exact absurd h List.not_mem_nil
  | cons first ls ih =>
    cases ls with
    | nil => exact .inr ⟨first, List.mem_cons_self, by simpa [List.intercalate] using h⟩
    | cons second ls =>
      rw [List.intercalate_cons_cons] at h
      rcases List.mem_append.1 h with h | h
      · rcases List.mem_append.1 h with h | h
        · exact .inr ⟨first, List.mem_cons_self, h⟩
        · exact .inl h
      · exact (ih h).imp_right fun ⟨l, hl, hx⟩ => ⟨l, List.mem_cons_of_mem _ hl, hx⟩

/-- The words of a name are made of its characters. -/
theorem mem_of_mem_nameWords {s : String} {w : List Char} (hw : w ∈ nameWords s) {c : Char}
    (hc : c ∈ w) : c ∈ s.toList := by
  have whole : ['_'].intercalate (s.toList.splitOn '_') = s.toList := List.intercalate_splitOn '_'
  obtain ⟨before, after, same⟩ := exists_intercalate_eq (List.mem_filter.1 hw).1
  rw [← whole, same]
  exact List.mem_append_left _ (List.mem_append_right _ hc)

theorem isNameChar_nameWords {s : String} (h : ∀ c ∈ s.toList, isNameChar c = true) :
    ∀ w ∈ nameWords s, ∀ c ∈ w, isNameChar c = true :=
  fun _ hw c hc => h c (mem_of_mem_nameWords hw hc)

theorem isIdentifier_pascalCase {name : String} (h : IsName name) :
    IsIdentifier (pascalCase name) := by
  refine isIdentifier_identifier fun d hd => ?_
  obtain ⟨w, hw, hd⟩ := List.mem_flatMap.1 hd
  have word := isNameChar_nameWords h.chars w hw
  cases w with
  | nil => exact absurd hd List.not_mem_nil
  | cons c cs =>
    obtain ⟨first, others⟩ := List.forall_mem_cons.1 word
    rcases List.mem_append.1 hd with here | later
    · exact isNameChar_upperChar first here
    · obtain ⟨e, he, hd⟩ := List.mem_flatMap.1 later
      exact isNameChar_lowerChar (others e he) hd

theorem isIdentifier_snakeCase {name : String} (h : IsName name) :
    IsIdentifier (snakeCase name) := by
  refine isIdentifier_identifier fun d hd => ?_
  rcases mem_of_mem_intercalate hd with underscore | ⟨l, hl, hd⟩
  · obtain rfl := List.mem_singleton.1 underscore
    rfl
  · obtain ⟨w, hw, rfl⟩ := List.mem_map.1 hl
    exact isNameChar_lowerFrom (isNameChar_nameWords h.chars w hw) d hd

theorem isIdentifier_escaped {keywords : List String} {ident : String} (h : IsIdentifier ident) :
    IsIdentifier (escaped keywords ident) := by
  unfold escaped
  split
  · obtain ⟨⟨c, cs, spelled, letter⟩, chars⟩ := h
    rw [spelled, List.forall_mem_cons] at chars
    refine ⟨⟨c, cs ++ ['_'], by rw [String.toList_append, spelled]; rfl, letter⟩, ?_⟩
    rw [String.toList_append, spelled, List.forall_mem_append, List.forall_mem_cons]
    exact ⟨chars, by simp; rfl⟩
  · exact h

theorem isIdentifier_identOf {name : String} (h : IsName name) :
    IsIdentifier (RustModule.identOf name) :=
  isIdentifier_escaped (isIdentifier_snakeCase h)

/-! ## Scopes -/

namespace Scope

variable {backend : String} {scope scope' : Scope}

/-- What is claimed stands for what it was claimed for, and nothing else changes. -/
theorem find?_of_claim {n : Naming} (h : claim backend scope n = .ok scope') :
    scope'.find? n.ident = some n.source ∧
      ∀ ident source, scope.find? ident = some source → scope'.find? ident = some source := by
  unfold claim at h
  split at h
  · next free =>
    cases h
    refine ⟨by rw [Dictionary.find?_insert, if_pos rfl], fun ident source taken => ?_⟩
    rw [Dictionary.find?_insert, if_neg]
    · exact taken
    · rintro rfl
      rw [free] at taken
      cases taken
  · next first found =>
    split at h
    · next same =>
      cases h
      exact ⟨same ▸ found, fun _ _ taken => taken⟩
    · cases h

theorem find?_of_foldlM_claim {ns : List Naming}
    (h : ns.foldlM (claim backend) scope = .ok scope') :
    (∀ n ∈ ns, scope'.find? n.ident = some n.source) ∧
      ∀ ident source, scope.find? ident = some source → scope'.find? ident = some source := by
  induction ns generalizing scope with
  | nil =>
    cases h
    exact ⟨fun _ hn => absurd hn List.not_mem_nil, fun _ _ taken => taken⟩
  | cons n ns ih =>
    rw [List.foldlM_cons] at h
    obtain ⟨next, claimed, h⟩ := exists_of_bind_eq_ok h
    obtain ⟨own, stay⟩ := find?_of_claim claimed
    obtain ⟨others, stays⟩ := ih h
    exact ⟨List.forall_mem_cons.2 ⟨stays _ _ own, others⟩,
      fun ident source taken => stays _ _ (stay _ _ taken)⟩

/-- The members of a declaration that was accepted stand for one thing each. -/
theorem source_eq_of_foldlM_declare {ds : List Declaration}
    (h : ds.foldlM (declare backend) scope = .ok scope') {d : Declaration} (hd : d ∈ ds)
    {a b : Naming} (ha : a ∈ d.members) (hb : b ∈ d.members) (same : a.ident = b.ident) :
    a.source = b.source := by
  induction ds generalizing scope with
  | nil => exact absurd hd List.not_mem_nil
  | cons first ds ih =>
    rw [List.foldlM_cons] at h
    obtain ⟨next, declared, h⟩ := exists_of_bind_eq_ok h
    rcases List.mem_cons.1 hd with rfl | hd
    · obtain ⟨_, -, declared⟩ := exists_of_bind_eq_ok declared
      obtain ⟨inner, claimed, -⟩ := exists_of_bind_eq_ok declared
      obtain ⟨each, -⟩ := find?_of_foldlM_claim claimed
      exact Option.some.inj ((each a ha).symm.trans (same ▸ each b hb))
    · exact ih h hd

end Scope

namespace RustModule

theorem of_ofDialect {d : Dialect} {m : RustModule} (h : ofDialect d = .ok m) :
    m = ⟨d, d.enums.values.map enumOf, d.messages.values.map structOf⟩ ∧
      Scope.check backend reserved m.declarations = .ok () := by
  obtain ⟨_, checked, h⟩ := exists_of_bind_eq_ok h
  cases h
  exact ⟨rfl, checked⟩

/-- **The fields of a structure are told apart**: two fields of a message have two identifiers. -/
theorem identOf_injOn {d : Dialect} {module : RustModule} (accepted : ofDialect d = .ok module)
    {m : Message} (hm : m ∈ d.messages.values) {f g : Field} (hf : f ∈ m.fields)
    (hg : g ∈ m.fields) (same : identOf f.name = identOf g.name) : f.name = g.name := by
  obtain ⟨rfl, checked⟩ := of_ofDialect accepted
  obtain ⟨scope, checked, -⟩ := exists_of_bind_eq_ok checked
  have declared : (⟨⟨pascalCase m.name, m.name⟩, m.fields.map fun f =>
      ⟨identOf f.name, m.name ++ "." ++ f.name⟩⟩ : Declaration) ∈ declarations
        ⟨d, d.enums.values.map enumOf, d.messages.values.map structOf⟩ := by
    refine List.mem_append_right _ (List.mem_map.2 ⟨structOf m, List.mem_map_of_mem hm, ?_⟩)
    simp only [structOf, List.map_map]
    rfl
  have sources := Scope.source_eq_of_foldlM_declare checked declared
    (List.mem_map_of_mem hf) (List.mem_map_of_mem hg) same
  simpa using sources

end RustModule

end Codegen
end Mavlink
