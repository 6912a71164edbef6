import Mathlib
import Mavlink.Proofs.Codegen.Identifiers

/-!
# The spelling of ASCII names

The letter case of other alphabets needs tables and can turn one letter into three, or a letter
into one that has no case.  An ASCII name is spelled letter by letter, so that the way it begins
and the case of its letters tell the three spellings apart.

* `upper_of_ascii`, `lower_of_ascii` --- what the tables of letter case say of ASCII;
* `IsAsciiName.exists_nameWords` --- a name that begins with a letter has a first word that does;
* `IsAsciiName.beginsCapital_pascalCase`, `IsAsciiName.beginsSmall_snakeCase` --- one spelling
  begins with a capital letter, another with a small one;
* `IsAsciiName.isLower_upperSnakeCase` --- and in the third there are no small letters.
-/

namespace Mavlink.Codegen

open Text CaseTable

/-! ## Letters -/

theorem toNat_lt_of_isAlphanum {c : Char} (h : c.isAlphanum = true) : c.toNat < 0x80 := by
  simp only [Char.isAlphanum, Char.isAlpha, Char.isUpper, Char.isLower, Char.isDigit,
    Bool.or_eq_true, Bool.and_eq_true, decide_eq_true_eq, UInt32.le_iff_toNat_le, ge_iff_le] at h
  change (((65 ≤ c.toNat ∧ c.toNat ≤ 90) ∨ (97 ≤ c.toNat ∧ c.toNat ≤ 122)) ∨
    (48 ≤ c.toNat ∧ c.toNat ≤ 57)) at h
  omega

theorem isDigit_of_isAlpha {c : Char} (h : c.isAlpha = true) : c.isDigit = false := by
  simp only [Char.isAlpha, Char.isUpper, Char.isLower, Bool.or_eq_true, Bool.and_eq_true,
    decide_eq_true_eq, UInt32.le_iff_toNat_le, ge_iff_le] at h
  change (65 ≤ c.toNat ∧ c.toNat ≤ 90) ∨ (97 ≤ c.toNat ∧ c.toNat ≤ 122) at h
  rw [Char.isDigit, Bool.and_eq_false_iff, decide_eq_false_iff_not, decide_eq_false_iff_not,
    UInt32.le_iff_toNat_le, ge_iff_le, UInt32.le_iff_toNat_le]
  change ¬ 48 ≤ c.toNat ∨ ¬ c.toNat ≤ 57
  omega

theorem moved?_eq_none {runs : List Run} {n : Nat} (far : ∀ run ∈ runs, n < run.first) :
    moved? n runs = none := by
  induction runs with
  | nil => rfl
  | cons run runs ih =>
    obtain ⟨first, others⟩ := List.forall_mem_cons.1 far
    rw [moved?, if_neg, ih others]
    simp only [Bool.and_eq_true, decide_eq_true_eq, not_and]
    omega

/-- Of a table of letter case, only the first run is about ASCII. -/
theorem mapCase_of_ascii {run : Run} {runs : List Run} {many : List (Nat × List Nat)}
    (far : ∀ run ∈ runs, 0x80 ≤ run.first) (many_far : ∀ p ∈ many, 0x80 ≤ p.1) {c : Char}
    (h : c.toNat < 0x80) : mapCase (run :: runs) many c = mapCase [run] [] c := by
  have none_many : many.lookup c.toNat = none := by
    rw [List.lookup_eq_none_iff]
    exact fun p hp => bne_iff_ne.2 (h.trans_le (many_far p hp)).ne
  have none_other : moved? c.toNat runs = none :=
    moved?_eq_none fun r hr => h.trans_le (far r hr)
  rw [mapCase, mapCase, none_many, moved?, none_other]
  rfl

theorem case_of_ascii : ∀ n < 0x80,
    mapCase [⟨0x61, 0x7A, 1, -32⟩] [] (Char.ofNat n) = [(Char.ofNat n).toUpper] ∧
    mapCase [⟨0x41, 0x5A, 1, 32⟩] [] (Char.ofNat n) = [(Char.ofNat n).toLower] ∧
    (Char.ofNat n).toLower.toNat < 0x80 := by decide +kernel

theorem upperChar_of_ascii {c : Char} (h : c.toNat < 0x80) : upperChar c = [c.toUpper] := by
  have table : upperRuns = ⟨0x61, 0x7A, 1, -32⟩ :: upperRuns.tail := rfl
  rw [upperChar, table, mapCase_of_ascii (by decide +kernel) (by decide +kernel) h]
  simpa only [Char.ofNat_toNat] using (case_of_ascii c.toNat h).1

theorem lowerChar_of_ascii {c : Char} (h : c.toNat < 0x80) : lowerChar c = [c.toLower] := by
  have table : lowerRuns = ⟨0x41, 0x5A, 1, 32⟩ :: lowerRuns.tail := rfl
  rw [lowerChar, table, mapCase_of_ascii (by decide +kernel) (by decide +kernel) h]
  simpa only [Char.ofNat_toNat] using (case_of_ascii c.toNat h).2.1

theorem toNat_toLower_lt {c : Char} (h : c.toNat < 0x80) : c.toLower.toNat < 0x80 := by
  simpa only [Char.ofNat_toNat] using (case_of_ascii c.toNat h).2.2

/-! ## Texts -/

variable {cs : List Char}

theorem lowerFrom_of_ascii {before : List Char} (h : ∀ c ∈ cs, c.toNat < 0x80) :
    lowerFrom before cs = cs.map Char.toLower := by
  induction cs generalizing before with
  | nil => rfl
  | cons c cs ih =>
    obtain ⟨first, others⟩ := List.forall_mem_cons.1 h
    have not_sigma : c ≠ 'Σ' := by
      rintro rfl
      exact absurd first (by decide)
    rw [lowerFrom, ih others, if_neg not_sigma, lowerChar_of_ascii first]
    rfl

/-- Small letters, letter by letter. -/
theorem lower_of_ascii (h : ∀ c ∈ cs, c.toNat < 0x80) : lower cs = cs.map Char.toLower :=
  lowerFrom_of_ascii h

/-- Capital letters, letter by letter. -/
theorem upper_of_ascii (h : ∀ c ∈ cs, c.toNat < 0x80) : upper cs = cs.map Char.toUpper := by
  rw [upper, List.flatMap_congr fun c hc => upperChar_of_ascii (h c hc)]
  exact List.map_eq_flatMap.symm

/-- What begins with a letter is an identifier as it stands. -/
theorem identifier_cons {c : Char} (h : c.isAlpha = true) :
    identifier (c :: cs) = String.ofList (c :: cs) := by
  simp [identifier, isDigit_of_isAlpha h]

/-- An identifier has no characters of its own but an underscore. -/
theorem forall_mem_identifier {p : Char → Prop} (underscore : p '_') (h : ∀ c ∈ cs, p c) :
    ∀ c ∈ (identifier cs).toList, p c := by
  unfold identifier
  split
  · simpa using underscore
  · split
    · rw [String.toList_ofList, List.forall_mem_cons]
      exact ⟨underscore, h⟩
    · rwa [String.toList_ofList]

theorem exists_intercalate_cons {α : Type} (sep : List α) (x : α) (xs : List α)
    (ls : List (List α)) : ∃ rest, sep.intercalate ((x :: xs) :: ls) = x :: rest := by
  cases ls with
  | nil => exact ⟨xs, by simp⟩
  | cons l ls => exact ⟨_, List.intercalate_cons_cons ..⟩

/-! ## Beginnings -/

/-- Whether a text begins with a small letter. -/
def beginsSmall (s : String) : Bool := s.toList.head?.any Char.isLower

/-- Whether a text begins with a capital letter. -/
def beginsCapital (s : String) : Bool := s.toList.head?.any Char.isUpper

theorem beginsSmall_eq_false {s : String} (h : beginsCapital s = true) :
    beginsSmall s = false := by
  obtain ⟨c, first, capital⟩ := (Option.any_eq_true ..).1 h
  rw [beginsSmall, first, Option.any_some]
  exact Bool.eq_false_of_not_eq_true (Char.not_isLower_of_isUpper capital)

theorem ne_of_begins {s t : String} (small : beginsSmall s = true)
    (capital : beginsCapital t = true) : s ≠ t := by
  rintro rfl
  rw [beginsSmall_eq_false capital] at small
  cases small

/-! ## Names -/

/-- A name made of ASCII letters, digits and underscores that begins with a letter. -/
structure IsAsciiName (s : String) : Prop where
  head : s.toList.head?.any Char.isAlpha = true
  chars : ∀ c ∈ s.toList, c.isAlphanum = true ∨ c = '_'

instance (s : String) : Decidable (IsAsciiName s) :=
  decidable_of_iff (s.toList.head?.any Char.isAlpha = true ∧
      s.toList.all (fun c => c.isAlphanum || c = '_') = true)
    ⟨fun h => ⟨h.1, by simpa using h.2⟩, fun h => ⟨h.1, by simpa using h.2⟩⟩

namespace IsAsciiName

variable {s : String}

theorem toNat_lt (h : IsAsciiName s) : ∀ c ∈ s.toList, c.toNat < 0x80 := by
  intro c hc
  rcases h.chars c hc with alphanum | rfl
  · exact toNat_lt_of_isAlphanum alphanum
  · decide

theorem toNat_lt_of_mem_nameWords (h : IsAsciiName s) {w : List Char} (hw : w ∈ nameWords s) :
    ∀ c ∈ w, c.toNat < 0x80 :=
  fun c hc => h.toNat_lt c (mem_of_mem_nameWords hw hc)

/-- The first word begins with the first letter. -/
theorem exists_nameWords (h : IsAsciiName s) :
    ∃ c w ws, nameWords s = (c :: w) :: ws ∧ c.isAlpha = true := by
  obtain ⟨c, first, letter⟩ := (Option.any_eq_true ..).1 h.head
  obtain ⟨cs, spelled⟩ := List.head?_eq_some_iff.1 first
  have not_underscore : c ≠ '_' := by
    rintro rfl
    exact absurd letter (by decide)
  obtain ⟨w, ws, split⟩ := List.exists_cons_of_ne_nil (List.splitOn_ne_nil '_' cs)
  refine ⟨c, w, ws.filter (· ≠ []), ?_, letter⟩
  rw [nameWords, spelled, List.splitOn_cons_eq_if_modifyHead, if_neg (by simpa), split,
    List.modifyHead_cons]
  rfl

/-- In words with capital letters at their beginnings, a name begins with one. -/
theorem beginsCapital_pascalCase (h : IsAsciiName s) : beginsCapital (pascalCase s) = true := by
  obtain ⟨c, w, ws, words, letter⟩ := h.exists_nameWords
  have ascii := h.toNat_lt_of_mem_nameWords (words ▸ List.mem_cons_self) c List.mem_cons_self
  have capital : c.toUpper.isUpper = true := (Char.isUpper_toUpper_eq_isAlpha c).trans letter
  have letter' : c.toUpper.isAlpha = true := by rw [Char.isAlpha, capital, Bool.true_or]
  rw [pascalCase, words, List.flatMap_cons, capitalized, upperChar_of_ascii ascii,
    List.singleton_append, List.cons_append, identifier_cons letter', beginsCapital,
    String.toList_ofList]
  exact capital

/-- In small letters, a name begins with one. -/
theorem beginsSmall_snakeCase (h : IsAsciiName s) : beginsSmall (snakeCase s) = true := by
  obtain ⟨c, w, ws, words, letter⟩ := h.exists_nameWords
  have small : c.toLower.isLower = true := (Char.isLower_toLower_eq_isAlpha c).trans letter
  have first : lower (c :: w) = c.toLower :: w.map Char.toLower :=
    lower_of_ascii (h.toNat_lt_of_mem_nameWords (words ▸ List.mem_cons_self))
  obtain ⟨rest, joined⟩ :=
    exists_intercalate_cons ['_'] c.toLower (w.map Char.toLower) (ws.map lower)
  have letter' : c.toLower.isAlpha = true := by rw [Char.isAlpha, small, Bool.or_true]
  rw [snakeCase, words, List.map_cons, first, joined, identifier_cons letter', beginsSmall,
    String.toList_ofList]
  exact small

theorem toNat_lt_snakeCase (h : IsAsciiName s) : ∀ c ∈ (snakeCase s).toList, c.toNat < 0x80 := by
  refine forall_mem_identifier (p := fun c => c.toNat < 0x80) (by decide) fun c hc => ?_
  rcases mem_of_mem_intercalate hc with underscore | ⟨l, hl, hc⟩
  · obtain rfl := List.mem_singleton.1 underscore
    decide
  · obtain ⟨w, hw, rfl⟩ := List.mem_map.1 hl
    have ascii := h.toNat_lt_of_mem_nameWords hw
    rw [lower_of_ascii ascii] at hc
    obtain ⟨b, hb, rfl⟩ := List.mem_map.1 hc
    exact toNat_toLower_lt (ascii b hb)

/-- In capital letters, a name has no small ones. -/
theorem isLower_upperSnakeCase (h : IsAsciiName s) :
    ∀ d ∈ (upperSnakeCase s).toList, d.isLower = false := by
  intro d hd
  rw [upperSnakeCase, String.toList_ofList, upper_of_ascii h.toNat_lt_snakeCase] at hd
  obtain ⟨c, -, rfl⟩ := List.mem_map.1 hd
  exact Char.isLower_toUpper_eq_false c

end IsAsciiName

end Mavlink.Codegen
