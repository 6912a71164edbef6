import Mavlink.Text.Utf8

/-!
# Reading the spelling of a text

A text that was spelled in UTF-8 is read as it was, and the byte zero stands in its
spelling only for the character of that number.  So a text that was put into a field with
zeros behind it is read up to its first zero character.

* `characters_encode` --- every text is read from its spelling;
* `decodeLossy_takeWhile_utf8` --- what is left of it before the first zero;
* `decodeLossy_takeWhile_byte` --- what a single byte is read as.
-/

namespace Mavlink.Text

theorem followers_one {n : Nat} (h : n < 0x80) : followers n = some (0x80, 0xBF, 0) := by
  rw [followers, if_pos h]

theorem followers_two {n : Nat} (low : 0xC2 ≤ n) (high : n < 0xE0) :
    followers n = some (0x80, 0xBF, 1) := by
  rw [followers, if_neg (by omega), if_neg (by omega), if_pos high]

theorem followers_three {n : Nat} (low : 0xE0 ≤ n) (high : n < 0xF0) :
    followers n = some (if n = 0xE0 then 0xA0 else 0x80, if n = 0xED then 0x9F else 0xBF, 2) := by
  rw [followers, if_neg (by omega), if_neg (by omega), if_neg (by omega)]
  by_cases first : n = 0xE0
  · rw [if_pos first, if_pos first, if_neg (by omega)]
  · rw [if_neg first, if_neg first]
    by_cases surrogate : n = 0xED
    · rw [if_pos surrogate, if_pos surrogate]
    · rw [if_neg surrogate, if_neg surrogate, if_pos high]

theorem followers_four {n : Nat} (low : 0xF0 ≤ n) (high : n ≤ 0xF4) :
    followers n = some (if n = 0xF0 then 0x90 else 0x80, if n = 0xF4 then 0x8F else 0xBF, 3) := by
  rw [followers, if_neg (by omega), if_neg (by omega), if_neg (by omega), if_neg (by omega),
    if_neg (by omega), if_neg (by omega)]
  by_cases first : n = 0xF0
  · rw [if_pos first, if_pos first, if_neg (by omega)]
  · rw [if_neg first, if_neg first]
    by_cases last : n = 0xF4
    · rw [if_neg (by omega), if_pos last, if_pos last]
    · rw [if_pos (by omega), if_neg last]

/-- A byte that continues a character adds its bits. -/
theorem continued_cons {acc lo hi n : Nat} {b : UInt8} {r : Bytes} (low : lo ≤ b.toNat)
    (high : b.toNat ≤ hi) : continued acc lo hi (n + 1) (b :: r)
      = continued (acc * 64 + b.toNat % 64) 0x80 0xBF n r := by
  rw [continued, if_pos ⟨low, high⟩]

theorem toNat_ofNat_of_lt {n : Nat} (h : n < 256) : (UInt8.ofNat n).toNat = n := by
  rw [UInt8.toNat_ofNat']
  exact Nat.mod_eq_of_lt h

/-- A character is read from its spelling. -/
theorem character_utf8EncodeChar (c : Char) :
    ∃ b s, String.utf8EncodeChar c = b :: s ∧ ∀ r, character b (s ++ r) = (some c, r) := by
  have valid : c.val.toNat < 0xD800 ∨ 0xDFFF < c.val.toNat ∧ c.val.toNat < 0x110000 := c.valid
  have same : ∀ n, n = c.val.toNat → ∀ r : Bytes, continued n 0x80 0xBF 0 r = (some c, r) := by
    intro n hn r
    rw [continued, hn]
    exact congrArg (some · , r) (Char.ofNat_toNat c)
  unfold String.utf8EncodeChar
  generalize c.val.toNat = v at valid same ⊢
  simp only
  by_cases one : v ≤ 0x7F
  · have hv : (UInt8.ofNat v).toNat = v := toNat_ofNat_of_lt (by omega)
    rw [if_pos one]
    refine ⟨_, _, rfl, fun r => ?_⟩
    rw [character, hv, followers_one (by omega)]
    exact same v rfl r
  · rw [if_neg one]
    have last : (UInt8.ofNat (v % 0x40 + 0x80)).toNat = v % 0x40 + 0x80 :=
      toNat_ofNat_of_lt (by omega)
    by_cases two : v ≤ 0x7FF
    · have lead : (UInt8.ofNat (v / 64 % 0x20 + 0xC0)).toNat = v / 64 + 0xC0 := by
        rw [toNat_ofNat_of_lt (by omega)]
        omega
      rw [if_pos two]
      refine ⟨_, _, rfl, fun r => ?_⟩
      rw [character, lead, followers_two (by omega) (by omega)]
      simp only [leadBits, List.cons_append, List.nil_append]
      rw [continued_cons (by omega) (by omega), last]
      exact same _ (by omega) r
    · rw [if_neg two]
      have next : (UInt8.ofNat (v / 64 % 0x40 + 0x80)).toNat = v / 64 % 0x40 + 0x80 :=
        toNat_ofNat_of_lt (by omega)
      by_cases three : v ≤ 0xFFFF
      · have lead : (UInt8.ofNat (v / 4096 % 0x10 + 0xE0)).toNat = v / 4096 + 0xE0 := by
          rw [toNat_ofNat_of_lt (by omega)]
          omega
        rw [if_pos three]
        refine ⟨_, _, rfl, fun r => ?_⟩
        rw [character, lead, followers_three (by omega) (by omega)]
        simp only [leadBits, List.cons_append, List.nil_append]
        rw [continued_cons (by split <;> omega) (by split <;> omega),
          continued_cons (by omega) (by omega), next, last]
        exact same _ (by omega) r
      · have lead : (UInt8.ofNat (v / 262144 % 0x08 + 0xF0)).toNat = v / 262144 + 0xF0 := by
          rw [toNat_ofNat_of_lt (by omega)]
          omega
        have second : (UInt8.ofNat (v / 4096 % 0x40 + 0x80)).toNat = v / 4096 % 0x40 + 0x80 :=
          toNat_ofNat_of_lt (by omega)
        rw [if_neg three]
        refine ⟨_, _, rfl, fun r => ?_⟩
        rw [character, lead, followers_four (by omega) (by omega)]
        simp only [leadBits, List.cons_append, List.nil_append]
        rw [continued_cons (by split <;> omega) (by split <;> omega),
          continued_cons (by omega) (by omega), continued_cons (by omega) (by omega),
          second, next, last]
        exact same _ (by omega) r

/-- **A text is read from its spelling.** -/
theorem characters_encode (cs : List Char) : characters (encode cs) = cs.map some := by
  induction cs with
  | nil =>
    show characters [] = []
    rw [characters]
  | cons c cs ih =>
    obtain ⟨b, s, spelled, read⟩ := character_utf8EncodeChar c
    have split : encode (c :: cs) = b :: (s ++ encode cs) := by
      rw [encode, List.flatMap_cons, spelled]
      rfl
    rw [split, characters, read, ih]
    rfl

theorem decodeLossy_encode (cs : List Char) : decodeLossy (encode cs) = String.ofList cs := by
  rw [decodeLossy, characters_encode, List.map_map]
  congr 1
  exact List.map_id cs

/-! ## Zeros -/

/-- A zero stands only in the spelling of the zero character, which is nothing else. -/
theorem zero_notMem_utf8EncodeChar {c : Char} (h : c ≠ '\x00') :
    ∀ b ∈ String.utf8EncodeChar c, b ≠ 0 := by
  have nonzero : 0 < c.val.toNat := by
    apply Nat.pos_of_ne_zero
    intro zero
    exact h (Char.ext (UInt32.toNat_inj.1 zero))
  have apart : ∀ n, 0 < n → n < 256 → UInt8.ofNat n ≠ 0 := by
    intro n pos small zero
    have := congrArg UInt8.toNat zero
    rw [toNat_ofNat_of_lt small] at this
    exact absurd this (Nat.ne_of_gt pos)
  intro b hb
  unfold String.utf8EncodeChar at hb
  generalize c.val.toNat = v at nonzero hb
  simp only at hb
  split at hb
  · rw [List.mem_singleton.1 hb]
    exact apart _ nonzero (by omega)
  · split at hb
    · simp only [List.mem_cons, List.not_mem_nil, or_false] at hb
      rcases hb with rfl | rfl
      · exact apart _ (by omega) (by omega)
      · exact apart _ (by omega) (by omega)
    · split at hb
      · simp only [List.mem_cons, List.not_mem_nil, or_false] at hb
        rcases hb with rfl | rfl | rfl
        · exact apart _ (by omega) (by omega)
        · exact apart _ (by omega) (by omega)
        · exact apart _ (by omega) (by omega)
      · simp only [List.mem_cons, List.not_mem_nil, or_false] at hb
        rcases hb with rfl | rfl | rfl | rfl
        · exact apart _ (by omega) (by omega)
        · exact apart _ (by omega) (by omega)
        · exact apart _ (by omega) (by omega)
        · exact apart _ (by omega) (by omega)

/-- The text before its first zero character. -/
def beforeZero (s : String) : String := String.ofList (s.toList.takeWhile (· ≠ '\x00'))

theorem takeWhile_encode (cs : List Char) :
    (encode cs).takeWhile (· ≠ 0) = encode (cs.takeWhile (· ≠ '\x00')) := by
  induction cs with
  | nil => rfl
  | cons c cs ih =>
    have split : encode (c :: cs) = String.utf8EncodeChar c ++ encode cs := List.flatMap_cons
    rw [split]
    by_cases h : c = '\x00'
    · subst h
      rfl
    · have inside : ∀ b ∈ String.utf8EncodeChar c, decide (b ≠ 0) = true :=
        fun b hb => decide_eq_true (zero_notMem_utf8EncodeChar h b hb)
      rw [List.takeWhile_append_of_pos inside, ih, List.takeWhile_cons_of_pos (by simpa using h)]
      exact List.flatMap_cons.symm

/-- **A text is read up to its first zero.** -/
theorem decodeLossy_takeWhile_utf8 (s : String) :
    decodeLossy ((utf8 s).takeWhile (· ≠ 0)) = beforeZero s := by
  rw [utf8, takeWhile_encode, decodeLossy_encode, beforeZero]

/-! ## One byte -/

/-- The text of one byte: nothing if it is zero, and a replacement character if it is the
number of no character of seven bits. -/
def ofByte (b : UInt8) : String :=
  if b = 0 then ""
  else if b.toNat < 0x80 then String.ofList [Char.ofNat b.toNat]
  else "\uFFFD"

theorem decodeLossy_takeWhile_byte (b : UInt8) :
    decodeLossy ([b].takeWhile (· ≠ 0)) = ofByte b := by
  have read : ∀ o, character b [] = (o, []) →
      decodeLossy [b] = String.ofList [o.getD '\uFFFD'] := by
    intro o ho
    rw [decodeLossy, characters, ho, characters]
    rfl
  unfold ofByte
  by_cases zero : b = 0
  · subst zero
    show decodeLossy [] = ""
    rw [decodeLossy, characters]
    rfl
  · rw [List.takeWhile_cons_of_pos (by simpa using zero), List.takeWhile_nil, if_neg zero]
    by_cases ascii : b.toNat < 0x80
    · rw [if_pos ascii]
      refine read (some (Char.ofNat b.toNat)) ?_
      rw [character, followers_one ascii]
      rfl
    · rw [if_neg ascii]
      refine read none ?_
      unfold character
      split
      · rfl
      · next lo hi n hf =>
        cases n with
        | zero =>
          have none_else : followers b.toNat ≠ some (lo, hi, 0) := by
            unfold followers
            repeat' split
            all_goals first | omega | simp
          exact absurd hf none_else
        | succ n => rfl

end Mavlink.Text
