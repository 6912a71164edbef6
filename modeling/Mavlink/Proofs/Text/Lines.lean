import Mathlib
import Mavlink.Text.Blank
import Mavlink.Text.Numeral

/-!
# Lines, words and numbers

What is joined with blanks is cut again at the blanks, and what is ended with line feeds is cut
again at the line feeds.  A word has no blank in it and is not empty; a line has no line feed in
it, and no carriage return before its end.

* `decimal?_toString` --- a number is read as it is written;
* `words_intercalate` --- words with a blank between any two;
* `words_trim` --- words are the same without the blanks around a text;
* `trim_eq_self`, `trim_trim`, `trim_intercalate` --- texts that have no blanks around them;
* `lines_flatMap` --- lines, each with its line feed;
* `feed_notMem_of_mem_lines` --- no line has a line feed in it;
* `exists_eq_of_trim` --- in front of a line, without the blanks around it, there is a blank.
-/

namespace Mavlink.Text

/-! ## Numbers -/

theorem digit?_of_isDigit {c : Char} (h : c.isDigit = true) :
    digit? 10 c = some (c.toNat - '0'.toNat) := by
  obtain ⟨low, high⟩ : 0x30 ≤ c.toNat ∧ c.toNat ≤ 0x39 := by
    simpa [Char.isDigit, UInt32.le_iff_toNat_le] using h
  have small : c.toNat - 0x30 < 10 := by omega
  simp only [digit?, low, high, and_self, if_true]
  exact Option.filter_some_pos (by simpa using small)

theorem digitsFrom?_of_isDigit {cs : List Char} (h : ∀ c ∈ cs, c.isDigit = true) (acc : Nat) :
    digitsFrom? 10 acc cs = some (Nat.ofDigitChars 10 cs acc) := by
  induction cs generalizing acc with
  | nil => rfl
  | cons c cs ih =>
    obtain ⟨first, others⟩ := List.forall_mem_cons.1 h
    rw [digitsFrom?, digit?_of_isDigit first]
    simp only [ih others, Nat.mul_comm acc 10]
    rfl

theorem toList_toString (n : Nat) : (toString n).toList = Nat.toDigits 10 n := by
  rw [Nat.toString_eq_repr, Nat.repr_eq_ofList_toDigits, String.toList_ofList]

theorem isDigit_of_mem_toDigits {n : Nat} {c : Char} (h : c ∈ Nat.toDigits 10 n) :
    c.isDigit = true :=
  Nat.isDigit_of_mem_toDigits (by decide) (by decide) h

theorem digits?_toString (n : Nat) : digits? 10 (toString n).toList = some n := by
  have value : Nat.ofDigitChars 10 (Nat.toDigits 10 n) 0 = n :=
    Nat.ofDigitChars_toDigits (by decide) (by decide)
  rw [toList_toString, digits?, if_neg (by simp [Nat.toDigits_ne_nil]),
    digitsFrom?_of_isDigit fun _ => isDigit_of_mem_toDigits, value]

/-- A number is read as it is written. -/
theorem decimal?_toString {n limit : Nat} (fits : n ≤ limit) :
    decimal? limit (toString n).toList = some n := by
  have unsigned (r : List Char) : (toString n).toList ≠ '+' :: r := by
    intro signed
    have digit : '+'.isDigit = true :=
      isDigit_of_mem_toDigits (n := n) (by rw [← toList_toString, signed]; simp)
    exact absurd digit (by decide)
  unfold decimal? whole?
  split
  · exact absurd ‹_› (unsigned _)
  · rw [digits?_toString]
    exact Option.filter_some_pos (by simpa using fits)

/-- A number that is read is within its limit. -/
theorem le_of_decimal? {n limit : Nat} {cs : List Char} (h : decimal? limit cs = some n) :
    n ≤ limit := by
  have within := Option.filter_eq_some_iff.1 h
  exact of_decide_eq_true within.2

/-! ## Words -/

/-- A text that is not cut at blanks. -/
structure IsWord (cs : List Char) : Prop where
  nonempty : cs ≠ []
  unbroken : ∀ c ∈ cs, isBlank c = false

theorem isBlank_of_isDigit {c : Char} (h : c.isDigit = true) : isBlank c = false := by
  obtain ⟨low, high⟩ : 0x30 ≤ c.toNat ∧ c.toNat ≤ 0x39 := by
    simpa [Char.isDigit, UInt32.le_iff_toNat_le] using h
  simp only [isBlank, Bool.or_eq_false_iff, Bool.and_eq_false_iff, decide_eq_false_iff_not,
    beq_eq_false_iff_ne]
  omega

theorem isWord_toString (n : Nat) : IsWord (toString n).toList := by
  rw [toList_toString]
  exact ⟨Nat.toDigits_ne_nil, fun _ h => isBlank_of_isDigit (isDigit_of_mem_toDigits h)⟩

variable {b : Char}

theorem words_blank (blank : isBlank b = true) (rest : List Char) :
    words (b :: rest) = words rest := by
  cases rest <;> simp [words, blank]

/-- A word ends at a blank or at the end of the text. -/
theorem words_append {w rest : List Char} (word : IsWord w)
    (stop : ∀ c ∈ rest.head?, isBlank c = true) : words (w ++ rest) = w :: words rest := by
  induction w with
  | nil => exact absurd rfl word.nonempty
  | cons c w ih =>
    have first : isBlank c = false := word.unbroken c List.mem_cons_self
    cases w with
    | nil =>
      cases rest with
      | nil => simp [words, first]
      | cons b rest => simp [words, first, stop b rfl, words_blank]
    | cons d w =>
      have others : IsWord (d :: w) :=
        ⟨List.cons_ne_nil d w, fun x h => word.unbroken x (List.mem_cons_of_mem c h)⟩
      have second : isBlank d = false := others.unbroken d List.mem_cons_self
      rw [List.cons_append] at ih
      simp only [List.cons_append, words, first, second, ih others, Bool.false_eq_true, if_false]

/-- Words that are joined with a blank are cut again. -/
theorem words_intercalate {ws : List (List Char)} (each : ∀ w ∈ ws, IsWord w)
    (blank : isBlank b = true) : words (List.intercalate [b] ws) = ws := by
  induction ws with
  | nil => rfl
  | cons w ws ih =>
    obtain ⟨word, others⟩ := List.forall_mem_cons.1 each
    cases ws with
    | nil =>
      have alone : words (w ++ []) = w :: words [] := words_append word (by simp)
      rw [List.append_nil] at alone
      rw [List.intercalate_singleton, alone, words]
    | cons v ws =>
      rw [List.intercalate_cons_cons, List.append_assoc, List.singleton_append,
        words_append word (by simpa using blank), words_blank blank, ih others]

theorem words_append_blank (blank : isBlank b = true) (cs : List Char) :
    words (cs ++ [b]) = words cs := by
  fun_induction words cs with
  | case1 => simp [words, blank]
  | case2 c first => simp [words, first, blank]
  | case3 c first => simp [words, first, blank]
  | case4 c d cs first ih => simpa [words, first] using ih
  | case5 c d cs first second ih => simpa [words, first, second] using ih
  | case6 c d cs first second nothing ih => simp_all [words]
  | case7 c d cs first second w ws found ih => simp_all [words]

/-! ## Blanks around a text -/

theorem trim_blank (blank : isBlank b = true) (cs : List Char) : trim (b :: cs) = trim cs := by
  rw [trim, List.dropWhile_cons_of_pos blank, ← trim]

theorem words_trimEnd (cs : List Char) : words (trimEnd cs) = words cs := by
  show words (cs.rdropWhile isBlank) = words cs
  induction cs using List.reverseRecOn with
  | nil => rfl
  | append_singleton cs b ih =>
    by_cases blank : isBlank b = true
    · rw [List.rdropWhile_concat_pos _ _ _ blank, ih, words_append_blank blank]
    · rw [List.rdropWhile_concat_neg _ _ _ blank]

/-- Blanks around a text do not matter to its words. -/
theorem words_trim (cs : List Char) : words (trim cs) = words cs := by
  rw [trim, words_trimEnd]
  induction cs with
  | nil => rfl
  | cons b cs ih =>
    by_cases blank : isBlank b = true
    · rw [List.dropWhile_cons_of_pos blank, ih, words_blank blank]
    · rw [List.dropWhile_cons_of_neg blank]

/-- A text of which nothing is left without the blanks around it. -/
theorem trim_eq_nil_iff {cs : List Char} : trim cs = [] ↔ ∀ c ∈ cs, isBlank c = true := by
  show (cs.dropWhile isBlank).rdropWhile isBlank = [] ↔ _
  rw [List.rdropWhile_eq_nil_iff]
  refine ⟨fun blank => ?_, fun blank => ?_⟩
  · have stopped := List.head?_dropWhile_not isBlank cs
    cases left : cs.dropWhile isBlank with
    | nil => exact List.dropWhile_eq_nil_iff.1 left
    | cons c rest =>
      rw [left] at blank stopped
      have first := blank c List.mem_cons_self
      simp [first] at stopped
  · rw [List.dropWhile_eq_nil_iff.2 blank]
    nofun

/-- A text that has no blanks around it. -/
theorem trim_eq_self {cs : List Char} (first : ∀ c ∈ cs.head?, isBlank c = false)
    (last : ∀ c ∈ cs.getLast?, isBlank c = false) : trim cs = cs := by
  have keep {cs : List Char} (first : ∀ c ∈ cs.head?, isBlank c = false) :
      cs.dropWhile isBlank = cs := by
    cases cs with
    | nil => rfl
    | cons c cs => exact List.dropWhile_cons_of_neg (by simp [first c rfl])
  rw [trim, keep first, trimEnd, keep (by rwa [List.head?_reverse]), List.reverse_reverse]

theorem isBlank_getLast?_trim (cs : List Char) : ∀ c ∈ (trim cs).getLast?, isBlank c = false := by
  intro c hc
  rw [trim, trimEnd, List.getLast?_reverse] at hc
  have stopped := List.head?_dropWhile_not isBlank (cs.dropWhile isBlank).reverse
  rwa [Option.mem_def.1 hc] at stopped

theorem trimEnd_isPrefix (cs : List Char) : trimEnd cs <+: cs := List.rdropWhile_prefix isBlank cs

theorem trim_trim (cs : List Char) : trim (trim cs) = trim cs := by
  refine trim_eq_self (fun c hc => ?_) (isBlank_getLast?_trim cs)
  have stopped := List.head?_dropWhile_not isBlank cs
  obtain ⟨rest, whole⟩ := trimEnd_isPrefix (cs.dropWhile isBlank)
  obtain ⟨kept, first⟩ := List.head?_eq_some_iff.1 hc
  have first : trimEnd (cs.dropWhile isBlank) = c :: kept := first
  rw [first] at whole
  rwa [← whole] at stopped

theorem mem_of_mem_trim {c : Char} {cs : List Char} (h : c ∈ trim cs) : c ∈ cs :=
  (List.dropWhile_sublist isBlank).subset ((trimEnd_isPrefix _).subset h)

/-! ## Words with a blank between any two -/

section Intercalate

variable {ws : List (List Char)}

theorem intercalate_ne_nil {w : List Char} (word : IsWord w) :
    List.intercalate [b] (w :: ws) ≠ [] := by
  cases ws <;> simp [List.intercalate_cons_cons, word.nonempty]

theorem eq_or_mem_of_mem_intercalate {c : Char} (h : c ∈ List.intercalate [b] ws) :
    c = b ∨ ∃ w ∈ ws, c ∈ w := by
  induction ws with
  | nil => exact absurd h List.not_mem_nil
  | cons w ws ih =>
    cases ws with
    | nil => exact .inr ⟨w, List.mem_cons_self, by rwa [List.intercalate_singleton] at h⟩
    | cons v ws =>
      rw [List.intercalate_cons_cons, List.append_assoc, List.singleton_append, List.mem_append,
        List.mem_cons] at h
      rcases h with first | between | later
      · exact .inr ⟨w, List.mem_cons_self, first⟩
      · exact .inl between
      · obtain between | ⟨u, hu, hc⟩ := ih later
        · exact .inl between
        · exact .inr ⟨u, List.mem_cons_of_mem w hu, hc⟩

theorem isBlank_getLast?_intercalate (each : ∀ w ∈ ws, IsWord w) :
    ∀ c ∈ (List.intercalate [b] ws).getLast?, isBlank c = false := by
  induction ws with
  | nil => exact fun _ h => absurd h (by simp [List.intercalate])
  | cons w ws ih =>
    obtain ⟨word, others⟩ := List.forall_mem_cons.1 each
    cases ws with
    | nil =>
      rw [List.intercalate_singleton]
      exact fun c hc => word.unbroken c (List.mem_of_mem_getLast? hc)
    | cons v ws =>
      have next : IsWord v := others v List.mem_cons_self
      rw [List.intercalate_cons_cons, List.getLast?_append_of_ne_nil _ (intercalate_ne_nil next)]
      exact ih others

/-- Words have no blanks around them. -/
theorem trim_intercalate (each : ∀ w ∈ ws, IsWord w) :
    trim (List.intercalate [b] ws) = List.intercalate [b] ws := by
  refine trim_eq_self ?_ (isBlank_getLast?_intercalate each)
  rcases ws with _ | ⟨w, _ | ⟨v, ws⟩⟩
  · exact fun _ h => absurd h (by simp [List.intercalate])
  · have word : IsWord w := each w List.mem_cons_self
    rw [List.intercalate_singleton]
    exact fun c hc => word.unbroken c (List.mem_of_mem_head? hc)
  · have word : IsWord w := each w List.mem_cons_self
    rw [List.intercalate_cons_cons, List.append_assoc, List.head?_append_of_ne_nil _ word.nonempty]
    exact fun c hc => word.unbroken c (List.mem_of_mem_head? hc)

end Intercalate

/-! ## Lines -/

/-- A text that is not cut at line feeds, and that ends where the line feed is. -/
structure IsLine (cs : List Char) : Prop where
  unbroken : '\n' ∉ cs
  ended : cs.getLast? ≠ some '\r'

theorem IsLine.of_not_blank {cs : List Char} (unbroken : '\n' ∉ cs)
    (last : ∀ c ∈ cs.getLast?, isBlank c = false) : IsLine cs where
  unbroken := unbroken
  ended cut := absurd (last '\r' cut) (by decide)

theorem isLine_intercalate {ws : List (List Char)} (each : ∀ w ∈ ws, IsWord w) (within : b ≠ '\n') :
    IsLine (List.intercalate [b] ws) := by
  refine .of_not_blank (fun feed => ?_) (isBlank_getLast?_intercalate each)
  obtain between | ⟨w, hw, inside⟩ := eq_or_mem_of_mem_intercalate feed
  · exact within between.symm
  · exact absurd ((each w hw).unbroken '\n' inside) (by decide)

/-- A line that its line feed follows is the first. -/
theorem lines_append {l : List Char} (line : IsLine l) (rest : List Char) :
    lines (l ++ '\n' :: rest) = l :: lines rest := by
  induction l with
  | nil => rw [List.nil_append, lines]
  | cons c l ih =>
    have feed : c ≠ '\n' := fun h => line.unbroken (h ▸ List.mem_cons_self)
    cases l with
    | nil =>
      have cut : c ≠ '\r' := fun h => line.ended (congrArg some h)
      rw [List.singleton_append, lines, lines]
      · exact feed
      · exact fun h _ => cut h
    | cons d l =>
      have others : IsLine (d :: l) :=
        ⟨fun h => line.unbroken (List.mem_cons_of_mem c h), line.ended⟩
      have second : d ≠ '\n' := fun h => others.unbroken (h ▸ List.mem_cons_self)
      have ih := ih others
      rw [List.cons_append] at ih
      rw [List.cons_append, List.cons_append, lines, ih]
      · exact feed
      · exact fun _ h => second h

/-- Lines that are ended with line feeds are cut again. -/
theorem lines_flatMap {ls : List (List Char)} (each : ∀ l ∈ ls, IsLine l) :
    lines (ls.flatMap (· ++ ['\n'])) = ls := by
  induction ls with
  | nil => rfl
  | cons l ls ih =>
    obtain ⟨line, others⟩ := List.forall_mem_cons.1 each
    rw [List.flatMap_cons, List.append_assoc, List.singleton_append, lines_append line, ih others]

/-- A line feed is in no line. -/
theorem feed_notMem_of_mem_lines {cs l : List Char} (h : l ∈ lines cs) : '\n' ∉ l := by
  fun_induction lines cs generalizing l with
  | case1 => cases h
  | case2 r ih =>
    rcases List.mem_cons.1 h with rfl | later
    · exact List.not_mem_nil
    · exact ih later
  | case3 r ih =>
    rcases List.mem_cons.1 h with rfl | later
    · exact List.not_mem_nil
    · exact ih later
  | case4 c feed =>
    rw [List.mem_singleton.1 h, List.mem_singleton]
    exact fun same => feed same.symm
  | case5 c d r feed cut nothing ih =>
    rw [List.mem_singleton.1 h, List.mem_singleton]
    exact fun same => feed same.symm
  | case6 c d r feed cut l' ls found ih =>
    rcases List.mem_cons.1 h with rfl | later
    · rw [List.mem_cons, not_or]
      exact ⟨fun same => feed same.symm, ih (found ▸ List.mem_cons_self)⟩
    · exact ih (found ▸ List.mem_cons_of_mem l' later)

/-- The first line is at the beginning of a text. -/
theorem prefix_of_head?_lines {cs l : List Char} (h : l ∈ (lines cs).head?) : l <+: cs := by
  fun_induction lines cs generalizing l with
  | case1 => cases h
  | case2 r ih =>
    obtain rfl : [] = l := Option.some.inj h
    exact List.nil_prefix
  | case3 r ih =>
    obtain rfl : [] = l := Option.some.inj h
    exact List.nil_prefix
  | case4 c feed =>
    obtain rfl : [c] = l := Option.some.inj h
    exact List.prefix_rfl
  | case5 c d r feed cut nothing ih =>
    obtain rfl : [c] = l := Option.some.inj h
    exact List.prefix_append [c] (d :: r)
  | case6 c d r feed cut l' ls found ih =>
    obtain rfl : c :: l' = l := Option.some.inj h
    exact List.cons_prefix_cons.2 ⟨rfl, ih (found ▸ rfl)⟩

/-- The other lines are behind a line feed. -/
theorem infix_of_mem_tail_lines {cs l : List Char} (h : l ∈ (lines cs).tail) :
    '\n' :: l <:+: cs := by
  have next {r : List Char}
      (ih : ∀ {l : List Char}, l ∈ (lines r).tail → '\n' :: l <:+: r) {l : List Char}
      (h : l ∈ lines r) : '\n' :: l <:+: '\n' :: r := by
    cases found : lines r with
    | nil =>
      rw [found] at h
      cases h
    | cons first ls =>
      rw [found] at h
      rcases List.mem_cons.1 h with rfl | later
      · have front : l <+: r := prefix_of_head?_lines (found ▸ rfl)
        exact (List.cons_prefix_cons.2 ⟨rfl, front⟩).isInfix
      · have inside : l ∈ (lines r).tail := found ▸ later
        exact (ih inside).trans (List.suffix_cons '\n' r).isInfix
  fun_induction lines cs generalizing l with
  | case1 => cases h
  | case2 r ih => exact next ih h
  | case3 r ih => exact (next ih h).trans (List.suffix_cons '\r' ('\n' :: r)).isInfix
  | case4 c feed => cases h
  | case5 c d r feed cut nothing ih => cases h
  | case6 c d r feed cut l' ls found ih =>
    have later : l ∈ (lines (d :: r)).tail := found ▸ h
    exact (ih later).trans (List.suffix_cons c (d :: r)).isInfix

/-- A line without the blanks around it is behind blanks of the text, or at its beginning. -/
theorem exists_eq_of_trim {cs l : List Char} (h : l ∈ lines cs) :
    ∃ before after, cs = before ++ trim l ++ after ∧ ∀ c ∈ before.getLast?, isBlank c = true := by
  obtain ⟨before, after, whole, last⟩ :
      ∃ before after, cs = before ++ l ++ after ∧ ∀ c ∈ before.getLast?, isBlank c = true := by
    cases found : lines cs with
    | nil =>
      rw [found] at h
      cases h
    | cons first ls =>
      rw [found] at h
      rcases List.mem_cons.1 h with rfl | later
      · obtain ⟨after, whole⟩ := prefix_of_head?_lines (found ▸ rfl : l ∈ (lines cs).head?)
        exact ⟨[], after, whole.symm, nofun⟩
      · obtain ⟨before, after, whole⟩ :=
          infix_of_mem_tail_lines (found ▸ later : l ∈ (lines cs).tail)
        refine ⟨before ++ ['\n'], after, by simp [← whole], fun c hc => ?_⟩
        rw [List.getLast?_concat] at hc
        obtain rfl : '\n' = c := Option.some.inj hc
        rfl
  obtain ⟨rest, ended⟩ := trimEnd_isPrefix (l.dropWhile isBlank)
  refine ⟨before ++ l.takeWhile isBlank, rest ++ after, ?_, fun c hc => ?_⟩
  · have parts : l.takeWhile isBlank ++ (trim l ++ rest) = l := by
      rw [trim, ended, List.takeWhile_append_dropWhile]
    calc cs = before ++ l ++ after := whole
      _ = before ++ (l.takeWhile isBlank ++ (trim l ++ rest)) ++ after := by rw [parts]
      _ = before ++ l.takeWhile isBlank ++ trim l ++ (rest ++ after) := by
        simp only [List.append_assoc]
  · rw [List.getLast?_append] at hc
    cases blanks : (l.takeWhile isBlank).getLast? with
    | none =>
      rw [blanks] at hc
      exact last c hc
    | some b =>
      rw [blanks] at hc
      obtain rfl : b = c := Option.some.inj hc
      exact List.mem_takeWhile_imp (List.mem_of_mem_getLast? blanks)

end Mavlink.Text
