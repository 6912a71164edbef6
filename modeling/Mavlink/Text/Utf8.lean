import Mavlink.Bytes

/-!
# UTF-8

Text travels as UTF-8.  Bytes that came over a wire need not be well formed, so
reading never fails: every maximal string of bytes that begins a character but
does not complete it, and every byte that begins none, reads as one replacement
character.  Files are read strictly instead, by `decode?`.
-/

namespace Mavlink.Text

/-- The bytes of a text. -/
def encode (cs : List Char) : Bytes := cs.flatMap String.utf8EncodeChar

/-- The bytes of a string. -/
def utf8 (s : String) : Bytes := encode s.toList

/-- The least and the greatest byte that may follow a first byte, and how many
bytes follow; `none` for a byte that cannot be first. -/
def followers (b : Nat) : Option (Nat × Nat × Nat) :=
  if b < 0x80 then some (0x80, 0xBF, 0)
  else if b < 0xC2 then none
  else if b < 0xE0 then some (0x80, 0xBF, 1)
  else if b = 0xE0 then some (0xA0, 0xBF, 2)
  else if b = 0xED then some (0x80, 0x9F, 2)
  else if b < 0xF0 then some (0x80, 0xBF, 2)
  else if b = 0xF0 then some (0x90, 0xBF, 3)
  else if b < 0xF4 then some (0x80, 0xBF, 3)
  else if b = 0xF4 then some (0x80, 0x8F, 3)
  else none

/-- Reads `n` bytes that continue a character whose bits so far are `acc`.  The
first must lie between `lo` and `hi`, the others between 80 and BF.  Answers the
character, or `none` where a byte does not continue it, and the bytes not used. -/
def continued (acc : Nat) (lo hi : Nat) : Nat → Bytes → Option Char × Bytes
  | 0, r => (some (Char.ofNat acc), r)
  | _ + 1, [] => (none, [])
  | n + 1, b :: r =>
    if lo ≤ b.toNat ∧ b.toNat ≤ hi then continued (acc * 64 + b.toNat % 64) 0x80 0xBF n r
    else (none, b :: r)

/-- The bits of a first byte that belong to the code point, by the number of
bytes that follow. -/
def leadBits (b n : Nat) : Nat :=
  match n with
  | 0 => b
  | 1 => b % 32
  | 2 => b % 16
  | _ => b % 8

/-- Reads one character after its first byte, `none` if it is not well formed. -/
def character (b : UInt8) (r : Bytes) : Option Char × Bytes :=
  match followers b.toNat with
  | none => (none, r)
  | some (lo, hi, n) => continued (leadBits b.toNat n) lo hi n r

theorem length_continued (acc lo hi n : Nat) (r : Bytes) :
    (continued acc lo hi n r).2.length ≤ r.length := by
  induction n generalizing acc lo hi r with
  | zero => simp [continued]
  | succ n ih =>
    cases r with
    | nil => simp [continued]
    | cons b r =>
      unfold continued
      split
      · exact Nat.le_succ_of_le (ih ..)
      · simp

theorem length_character (b : UInt8) (r : Bytes) : (character b r).2.length ≤ r.length := by
  unfold character
  split
  · simp
  · exact length_continued ..

/-- The characters of a string of bytes, `none` where a part is not well formed. -/
def characters : Bytes → List (Option Char)
  | [] => []
  | b :: r => (character b r).1 :: characters (character b r).2
termination_by bytes => bytes.length
decreasing_by exact Nat.lt_succ_of_le (length_character b r)

/-- The text of any bytes, a replacement character for each part that is not well formed. -/
def decodeLossy (bytes : Bytes) : String :=
  String.ofList ((characters bytes).map (·.getD '\uFFFD'))

/-- The text of well-formed bytes. -/
def decode? (bytes : Bytes) : Option String :=
  ((characters bytes).mapM id).map String.ofList

end Mavlink.Text
