/-!
# Dictionaries in key order

A dictionary is the list of its bindings in increasing order of key.  The order
is part of the type, so two dictionaries with the same bindings are the same
value, and going through the bindings needs no choice of order.

* `find?_insert` --- what a dictionary answers after an insertion;
* `find?_eq_some_iff` --- what it answers is exactly what its list holds;
* `find?_ofList_of_mem`, `mem_of_find?_ofList` --- what the dictionary of a list answers;
* `pairwise_values` --- its values are told apart by what no two keys share;
* `keys_eq_of_isSome`, `find?_keys_insert` --- what its keys depend on;
* `ext_find?` --- a dictionary is determined by what it answers.
-/

namespace Mavlink

/-- Bindings of keys to values, each key once, in increasing order of key. -/
structure Dictionary (κ : Type) (ν : Type) [Ord κ] where
  /-- The bindings in order. -/
  toList : List (κ × ν)
  /-- Each key is less than every later one. -/
  sorted : toList.Pairwise fun a b => compare a.1 b.1 = .lt

namespace Dictionary

variable {κ ν : Type} [Ord κ]

/-- No binding at all. -/
def empty : Dictionary κ ν := ⟨[], List.Pairwise.nil⟩

instance : EmptyCollection (Dictionary κ ν) := ⟨empty⟩

instance : Inhabited (Dictionary κ ν) := ⟨empty⟩

theorem ext_toList {a b : Dictionary κ ν} (h : a.toList = b.toList) : a = b := by
  cases a; cases b; cases h; rfl

instance [DecidableEq κ] [DecidableEq ν] : DecidableEq (Dictionary κ ν) := fun a b =>
  decidable_of_iff (a.toList = b.toList) ⟨ext_toList, congrArg toList⟩

/-- Puts a binding at its place; a binding of an equal key is replaced. -/
def put (k : κ) (v : ν) : List (κ × ν) → List (κ × ν)
  | [] => [(k, v)]
  | b :: r =>
    match compare k b.1 with
    | .lt => (k, v) :: b :: r
    | .eq => (k, v) :: r
    | .gt => b :: put k v r

/-- The value of a key in a list of bindings. -/
def look (k : κ) : List (κ × ν) → Option ν
  | [] => none
  | b :: r => if compare k b.1 = .eq then some b.2 else look k r

/-- The value bound to a key. -/
def find? (d : Dictionary κ ν) (k : κ) : Option ν := look k d.toList

/-- Whether a key is bound. -/
def contains (d : Dictionary κ ν) (k : κ) : Bool := (d.find? k).isSome

/-- The keys in order. -/
def keys (d : Dictionary κ ν) : List κ := d.toList.map (·.1)

/-- The values in order of key. -/
def values (d : Dictionary κ ν) : List ν := d.toList.map (·.2)

theorem mem_put {k : κ} {v : ν} {b : κ × ν} {l : List (κ × ν)} (h : b ∈ put k v l) :
    b = (k, v) ∨ b ∈ l := by
  induction l with
  | nil => simpa [put] using h
  | cons a r ih =>
    unfold put at h
    split at h
    · simpa using h
    · rcases List.mem_cons.1 h with h | h
      · exact .inl h
      · exact .inr (List.mem_cons_of_mem _ h)
    · rcases List.mem_cons.1 h with h | h
      · exact .inr (h ▸ List.mem_cons_self)
      · exact (ih h).imp_right (List.mem_cons_of_mem _)

@[simp] theorem find?_empty (k : κ) : (empty : Dictionary κ ν).find? k = none := rfl

/-- A search that passes over a key does not see it put. -/
theorem find?_keys_put [Std.LawfulEqOrd κ] {p : κ → Bool} {k : κ} (passed : p k = false) (v : ν)
    (l : List (κ × ν)) : ((put k v l).map (·.1)).find? p = (l.map (·.1)).find? p := by
  induction l with
  | nil => simp [put, passed]
  | cons a r ih =>
    unfold put
    split
    case h_1 => simp [passed]
    case h_2 hk =>
      have same : k = a.1 := Std.LawfulEqCmp.compare_eq_iff_eq.1 hk
      simp [← same, passed]
    case h_3 => simp only [List.map_cons, List.find?_cons, ih]

theorem look_put [Std.LawfulEqOrd κ] [DecidableEq κ] (k k' : κ) (v : ν) (l : List (κ × ν)) :
    look k' (put k v l) = if k' = k then some v else look k' l := by
  induction l with
  | nil => simp [put, look, Std.LawfulEqCmp.compare_eq_iff_eq]
  | cons a r ih =>
    unfold put
    split
    case h_1 hk => simp [look, Std.LawfulEqCmp.compare_eq_iff_eq]
    case h_2 hk =>
      have hk := Std.LawfulEqCmp.compare_eq_iff_eq.1 hk
      by_cases h : k' = k <;> simp_all [look, Std.LawfulEqCmp.compare_eq_iff_eq]
    case h_3 hk =>
      have hne : k ≠ a.1 := fun e => by simp [e] at hk
      by_cases h : k' = k
      · subst h; simp [look, Std.LawfulEqCmp.compare_eq_iff_eq, hne, ih]
      · by_cases h' : k' = a.1 <;> simp_all [look, Std.LawfulEqCmp.compare_eq_iff_eq]

theorem look_eq_some_iff [Std.LawfulEqOrd κ] {k : κ} {v : ν} {l : List (κ × ν)}
    (h : l.Pairwise fun a b => compare a.1 b.1 = .lt) :
    look k l = some v ↔ (k, v) ∈ l := by
  induction l with
  | nil => simp [look]
  | cons a r ih =>
    obtain ⟨ha, hr⟩ := List.pairwise_cons.1 h
    by_cases hk : k = a.1
    · subst hk
      simp only [look, Std.ReflCmp.compare_self, if_true, Option.some.injEq, List.mem_cons]
      constructor
      · rintro rfl; exact .inl rfl
      · rintro (h | h)
        · rw [← h]
        · have := ha _ h; simp [Std.ReflCmp.compare_self] at this
    · have hne : (k, v) ≠ a := fun e => hk (e ▸ rfl)
      simp [look, Std.LawfulEqCmp.compare_eq_iff_eq, hk, ih hr, hne]

/-- A dictionary answers exactly the bindings in its list. -/
theorem find?_eq_some_iff [Std.LawfulEqOrd κ] {d : Dictionary κ ν} {k : κ} {v : ν} :
    d.find? k = some v ↔ (k, v) ∈ d.toList :=
  look_eq_some_iff d.sorted

/-- The keys are what the dictionary has an answer for. -/
theorem mem_keys_iff [Std.LawfulEqOrd κ] {d : Dictionary κ ν} {k : κ} :
    k ∈ d.keys ↔ ∃ v, d.find? k = some v := by
  constructor
  · intro h
    obtain ⟨b, bound, rfl⟩ := List.mem_map.1 h
    exact ⟨b.2, find?_eq_some_iff.2 bound⟩
  · rintro ⟨v, h⟩
    exact List.mem_map.2 ⟨(k, v), find?_eq_some_iff.1 h, rfl⟩

/-- Values that are told apart by something that no two keys share. -/
theorem pairwise_values [Std.LawfulEqOrd κ] {μ : Type} {d : Dictionary κ ν} {f : ν → μ}
    (distinct : ∀ i j a b, d.find? i = some a → d.find? j = some b → f a = f b → i = j) :
    d.values.Pairwise fun a b => f a ≠ f b := by
  rw [values, List.pairwise_map]
  refine d.sorted.imp_of_mem fun {a b} ha hb before same => ?_
  have one := distinct a.1 b.1 a.2 b.2 (find?_eq_some_iff.2 ha) (find?_eq_some_iff.2 hb) same
  have itself : compare b.1 b.1 = .eq := Std.ReflCmp.compare_self
  rw [one, itself] at before
  cases before

variable [Std.TransOrd κ]

theorem sorted_put (k : κ) (v : ν) {l : List (κ × ν)}
    (h : l.Pairwise fun a b => compare a.1 b.1 = .lt) :
    (put k v l).Pairwise fun a b => compare a.1 b.1 = .lt := by
  induction l with
  | nil => simp [put]
  | cons a r ih =>
    obtain ⟨ha, hr⟩ := List.pairwise_cons.1 h
    unfold put
    split
    case h_1 hk =>
      refine List.pairwise_cons.2 ⟨fun b hb => ?_, h⟩
      rcases List.mem_cons.1 hb with rfl | hb
      · exact hk
      · exact Std.TransCmp.lt_trans hk (ha b hb)
    case h_2 hk =>
      exact List.pairwise_cons.2 ⟨fun b hb => Std.TransCmp.lt_of_eq_of_lt hk (ha b hb), hr⟩
    case h_3 hk =>
      refine List.pairwise_cons.2 ⟨fun b hb => ?_, ih hr⟩
      rcases mem_put hb with rfl | hb
      · exact Std.OrientedCmp.gt_iff_lt.1 hk
      · exact ha b hb

/-- Binds a key, replacing the binding it had. -/
def insert (d : Dictionary κ ν) (k : κ) (v : ν) : Dictionary κ ν :=
  ⟨put k v d.toList, sorted_put k v d.sorted⟩

/-- The bindings of a list, a later one replacing an earlier one of the same key. -/
def ofList (l : List (κ × ν)) : Dictionary κ ν :=
  l.foldl (fun d b => d.insert b.1 b.2) empty

variable [Std.LawfulEqOrd κ]

/-- After an insertion the key answers the new value, every other key what it did. -/
theorem find?_insert [DecidableEq κ] (d : Dictionary κ ν) (k k' : κ) (v : ν) :
    (d.insert k v).find? k' = if k' = k then some v else d.find? k' :=
  look_put k k' v d.toList

theorem mem_of_find?_foldl_insert [DecidableEq κ] {l : List (κ × ν)} {d : Dictionary κ ν} {k : κ}
    {v : ν} (h : (l.foldl (fun d b => d.insert b.1 b.2) d).find? k = some v) :
    (k, v) ∈ l ∨ d.find? k = some v := by
  induction l generalizing d with
  | nil => exact .inr h
  | cons b l ih =>
    rcases ih h with later | before
    · exact .inl (List.mem_cons_of_mem _ later)
    · rw [find?_insert] at before
      split at before
      · next same =>
        cases before
        exact .inl (same ▸ List.mem_cons_self)
      · exact .inr before

/-- What the dictionary of a list answers is in the list. -/
theorem mem_of_find?_ofList [DecidableEq κ] {l : List (κ × ν)} {k : κ} {v : ν}
    (h : (ofList l).find? k = some v) : (k, v) ∈ l :=
  (mem_of_find?_foldl_insert h).resolve_right nofun

theorem mem_keys_ofList [DecidableEq κ] {l : List (κ × ν)} {k : κ} (h : k ∈ (ofList l).keys) :
    k ∈ l.map (·.1) := by
  obtain ⟨v, found⟩ := mem_keys_iff.1 h
  exact List.mem_map.2 ⟨(k, v), mem_of_find?_ofList found, rfl⟩

/-- The dictionary of a list in which each key stands once answers what is in the list. -/
theorem find?_ofList_of_mem [DecidableEq κ] {l : List (κ × ν)}
    (distinct : l.Pairwise fun a b => a.1 ≠ b.1) {k : κ} {v : ν} (h : (k, v) ∈ l) :
    (ofList l).find? k = some v := by
  have bound : ∀ d : Dictionary κ ν, (k, v) ∈ l ∨ d.find? k = some v ∧ (∀ b ∈ l, b.1 ≠ k) →
      (l.foldl (fun d b => d.insert b.1 b.2) d).find? k = some v := by
    clear h
    induction l with
    | nil => exact fun d h => (h.resolve_left List.not_mem_nil).1
    | cons b l ih =>
      obtain ⟨first, distinct⟩ := List.pairwise_cons.1 distinct
      intro d h
      apply ih distinct
      rcases h with h | ⟨before, others⟩
      · rcases List.mem_cons.1 h with rfl | h
        · refine .inr ⟨?_, fun b hb => (first b hb).symm⟩
          rw [find?_insert, if_pos rfl]
        · exact .inl h
      · refine .inr ⟨?_, fun c hc => others c (List.mem_cons_of_mem _ hc)⟩
        rw [find?_insert, if_neg (others b List.mem_cons_self).symm]
        exact before
  exact bound empty (.inl h)

theorem ext_sorted {l m : List (κ × ν)}
    (hl : l.Pairwise fun a b => compare a.1 b.1 = .lt)
    (hm : m.Pairwise fun a b => compare a.1 b.1 = .lt)
    (h : ∀ b, b ∈ l ↔ b ∈ m) : l = m := by
  induction l generalizing m with
  | nil =>
    cases m with
    | nil => rfl
    | cons b m => exact absurd ((h b).2 List.mem_cons_self) List.not_mem_nil
  | cons a l ih =>
    cases m with
    | nil => exact absurd ((h a).1 List.mem_cons_self) List.not_mem_nil
    | cons b m =>
      obtain ⟨ha, hl'⟩ := List.pairwise_cons.1 hl
      obtain ⟨hb, hm'⟩ := List.pairwise_cons.1 hm
      have irrefl : ∀ {x : κ}, compare x x ≠ .lt := by simp [Std.ReflCmp.compare_self]
      have asymm : ∀ {x y : κ}, compare x y = .lt → compare y x = .lt → False :=
        fun p q => irrefl (Std.TransCmp.lt_trans p q)
      have hab : a = b := by
        rcases List.mem_cons.1 ((h a).1 List.mem_cons_self) with e | ma
        · exact e
        · rcases List.mem_cons.1 ((h b).2 List.mem_cons_self) with e | mb
          · exact e.symm
          · exact (asymm (hb a ma) (ha b mb)).elim
      subst hab
      congr 1
      refine ih hl' hm' fun c => ⟨fun hc => ?_, fun hc => ?_⟩
      · rcases List.mem_cons.1 ((h c).1 (List.mem_cons_of_mem _ hc)) with e | e
        · exact (irrefl (e ▸ ha c hc)).elim
        · exact e
      · rcases List.mem_cons.1 ((h c).2 (List.mem_cons_of_mem _ hc)) with e | e
        · exact (irrefl (e ▸ hb c hc)).elim
        · exact e

/-- The keys are determined by what is bound. -/
theorem keys_eq_of_isSome {a b : Dictionary κ ν}
    (h : ∀ k, (a.find? k).isSome = (b.find? k).isSome) : a.keys = b.keys := by
  have sorted (d : Dictionary κ ν) :
      (d.keys.map (·, ())).Pairwise fun a b : κ × Unit => compare a.1 b.1 = .lt :=
    List.pairwise_map.2 (List.pairwise_map.2 d.sorted)
  have bound (d : Dictionary κ ν) (p : κ × Unit) :
      p ∈ d.keys.map (·, ()) ↔ (d.find? p.1).isSome = true := by
    rw [Option.isSome_iff_exists, ← mem_keys_iff, List.mem_map]
    exact ⟨fun ⟨k, hk, same⟩ => same ▸ hk, fun hk => ⟨p.1, hk, rfl⟩⟩
  have same := ext_sorted (sorted a) (sorted b) fun p => by rw [bound, bound, h]
  have keys (d : Dictionary κ ν) : (d.keys.map (·, ())).map (·.1) = d.keys := by
    rw [List.map_map]
    exact List.map_id _
  rw [← keys a, same, keys]

/-- A search that passes over a key does not see it bound. -/
theorem find?_keys_insert {p : κ → Bool} (d : Dictionary κ ν) {k : κ} (passed : p k = false)
    (v : ν) : (d.insert k v).keys.find? p = d.keys.find? p :=
  find?_keys_put passed v d.toList

/-- A dictionary is determined by what it answers. -/
theorem ext_find? {a b : Dictionary κ ν} (h : ∀ k, a.find? k = b.find? k) : a = b :=
  ext_toList <| ext_sorted a.sorted b.sorted fun p => by
    rw [← find?_eq_some_iff (d := a), ← find?_eq_some_iff (d := b), h]

end Dictionary
end Mavlink
