import Mathlib
import Mavlink.Codegen.RustText
import Mavlink.Proofs.Codegen.Identifiers
import Mavlink.Proofs.Codegen.RustProgram
import Mavlink.Proofs.Text.Lines

/-!
# Reading the text of a message

The text of a module is for a compiler, so what it means is what can be read from it.  Here is
a reader of the one part that moves data, the implementation of a message.  It knows nothing
of how the text was made: it goes through the lines, expects in each the texts that stand in
every implementation, and takes the words that stand between them.

* `RustImpl.read?` --- reads a text that is an implementation and nothing else;
* `numberOf?_toString`, `typeOf?_name`, `identifierOf?_of_isIdentifier` --- words are read as
  they are written;
* `LineReader.puts_putLines`, `LineReader.gets_cons` --- so are statements and expressions;
* `read?_messageLines` --- and whole implementations, if names are spelled as identifiers.
-/

namespace Mavlink
namespace Codegen

/-! ## Words in a line -/

/-- The words that stand in a line between given texts. -/
def wordsBetween? : List String → List Char → Option (List String)
  | [], _ => none
  | [last], cs => if cs = last.toList then some [] else none
  | first :: texts, cs =>
    match first.toList.isPrefixOf? cs with
    | none => none
    | some cs =>
      let word := cs.takeWhile isNameChar
      if word = [] then none
      else (wordsBetween? texts (cs.dropWhile isNameChar)).map (String.ofList word :: ·)

/-- A number in decimal digits. -/
def numberOf? (s : String) : Option Nat := Text.digits? 10 s.toList

/-- The type of a name. -/
def typeOf? (s : String) : Option NumberType := NumberType.all.find? (·.name = s)

/-- An identifier: a word that does not begin with a digit. -/
def identifierOf? (s : String) : Option String :=
  if s.toList.head?.any Char.isDigit then none else some s

/-! ## Statements and expressions -/

/-- The statement of a line. -/
def putOf? (line : List Char) : Option RustPut :=
  match wordsBetween? ["writer.put_", "(self.", ");"] line with
  | some [type, ident] => do return .number (← typeOf? type) (← identifierOf? ident)
  | _ =>
    match wordsBetween? ["writer.put_str(Self::NAME, \"", "\", &self.", ", ", ")?;"] line with
    | some [name, ident, length] => do
      return .text name (← identifierOf? ident) (← numberOf? length)
    | _ => none

/-- The statement of a loop of three lines. -/
def loopOf? (first body last : List Char) : Option RustPut :=
  match wordsBetween? ["for value in &self.", " \x7b"] first,
      wordsBetween? ["writer.put_", "(*value);"] body, wordsBetween? ["\x7d"] last with
  | some [ident], some [type], some [] => do
    return .each (← typeOf? type) (← identifierOf? ident)
  | _, _, _ => none

/-- The expression of a line, and the identifier of its field. -/
def getOf? (line : List Char) : Option (String × RustRead) :=
  match wordsBetween? ["", ": reader.get_", "(),"] line with
  | some [ident, type] => do return (← identifierOf? ident, .number (← typeOf? type))
  | _ =>
    match wordsBetween? ["", ": std::array::from_fn(|_| reader.get_", "()),"] line with
    | some [ident, type] => do return (← identifierOf? ident, .each (← typeOf? type))
    | _ =>
      match wordsBetween? ["", ": reader.get_str(", "),"] line with
      | some [ident, length] => do return (← identifierOf? ident, .text (← numberOf? length))
      | _ => none

/-- What reads the lines of a text one after another. -/
abbrev LineReader := StateT (List (List Char)) Option

namespace LineReader

/-- Reads a line that is a text. -/
def fixed (text : String) : LineReader Unit := fun
  | [] => none
  | line :: lines => if line = text.toList then some ((), lines) else none

/-- Reads a line in which a word stands between two texts. -/
def between {α : Type} (before after : String) (read : String → Option α) : LineReader α := fun
  | [] => none
  | line :: lines =>
    match wordsBetween? [before, after] line with
    | some [word] => (read word).map (·, lines)
    | _ => none

/-- Reads statements up to the line that finishes the payload. -/
def puts : LineReader (List RustPut)
  | [] => none
  | line :: lines =>
    if line = "writer.finish(version)".toList then some ([], lines)
    else match putOf? line with
      | some put => (puts lines).map fun (puts, rest) => (put :: puts, rest)
      | none =>
        match lines with
        | body :: last :: lines =>
          match loopOf? line body last with
          | some put => (puts lines).map fun (puts, rest) => (put :: puts, rest)
          | none => none
        | _ => none

/-- Reads expressions up to the end of the structure. -/
def gets : LineReader (List (String × RustRead))
  | [] => none
  | line :: lines =>
    if line = "\x7d)".toList then some ([], lines)
    else match getOf? line with
      | some get => (gets lines).map fun (gets, rest) => (get :: gets, rest)
      | none => none

/-- Reads the definition of a number. -/
def number (before : String) : LineReader Nat := between before ";" numberOf?

/-- Reads the function that encodes a message. -/
def encoding : LineReader (List RustPut) := do
  fixed "fn encode_payload(&self, version: MavLinkVersion) -> Result<Payload, EncodeError> \x7b"
  fixed "let mut writer = PayloadWriter::for_message::<Self>();"
  let statements ← puts
  fixed "\x7d"
  return statements

/-- Reads the function that decodes a message. -/
def decoding : LineReader (List (String × RustRead)) := do
  fixed "fn decode_payload(payload: &Payload) -> Result<Self, DecodeError> \x7b"
  fixed "let mut reader = PayloadReader::for_message::<Self>(payload)?;"
  fixed "Ok(Self \x7b"
  let expressions ← gets
  fixed "\x7d"
  return expressions

/-- Reads the implementation of a message. -/
def impl : LineReader RustImpl := do
  let ident ← between "impl MavMessage for " " \x7b" identifierOf?
  let id ← number "const ID: MessageId = "
  let name ← between "const NAME: &'static str = \"" "\";" some
  let fingerprint ← number "const CRC_EXTRA: CrcExtra = "
  let baseLength ← number "const BASE_LEN: usize = "
  let maxLength ← number "const MAX_LEN: usize = "
  fixed ""
  let puts ← encoding
  fixed ""
  let gets ← decoding
  fixed "\x7d"
  return { ident, id, name, fingerprint, baseLength, maxLength, puts, gets }

end LineReader

/-- A line without the blanks at its beginning. -/
def bare (line : List Char) : List Char := line.dropWhile (· = ' ')

/-- Reads a text that is the implementation of a message and nothing else. -/
def RustImpl.read? (text : String) : Option RustImpl :=
  match LineReader.impl ((text.toList.splitOn '\n').map bare) with
  | some (i, [[]]) => some i
  | _ => none

/-! ## Reading what was written -/

/-- A number is read as it is written. -/
theorem numberOf?_toString (n : Nat) : numberOf? (toString n) = some n := Text.digits?_toString n

theorem isName_toString (n : Nat) : IsName (toString n) := by
  constructor <;> rw [Text.toList_toString]
  · exact Nat.toDigits_ne_nil
  · intro c hc
    have digit : c.isDigit = true := Text.isDigit_of_mem_toDigits hc
    simp [isNameChar, Char.isAlphanum, digit]

theorem typeOf?_name (t : NumberType) : typeOf? t.name = some t := by cases t <;> decide

theorem isName_typeName (t : NumberType) : IsName t.name := by
  refine ⟨by cases t <;> decide, List.all_eq_true.1 ?_⟩
  cases t <;> rfl

/-- The calls for texts are named after it. -/
theorem isName_str : IsName "str" := ⟨by decide, List.all_eq_true.1 rfl⟩

theorem identifierOf?_of_isIdentifier {s : String} (h : IsIdentifier s) :
    identifierOf? s = some s := by
  obtain ⟨⟨c, cs, spelled, letter⟩, -⟩ := h
  rw [identifierOf?, spelled, if_neg]
  simp [letter]

/-- Whether no word goes on in what follows. -/
def stops (rest : List Char) : Bool := rest.head?.any (!isNameChar ·)

theorem stops_append {a : List Char} (h : stops a = true) (rest : List Char) :
    stops (a ++ rest) = true := by
  cases a with
  | nil => cases h
  | cons c a => exact h

/-- A list is cut behind the first characters with a property. -/
theorem takeWhile_append {p : Char → Bool} {front back : List Char}
    (all : ∀ c ∈ front, p c = true) (stop : ∀ c ∈ back.head?, p c = false) :
    (front ++ back).takeWhile p = front ∧ (front ++ back).dropWhile p = back := by
  rw [List.takeWhile_append_of_pos all, List.dropWhile_append_of_pos all]
  cases back with
  | nil => exact ⟨List.append_nil front, rfl⟩
  | cons c back =>
    have other : ¬ p c = true := by simp [stop c rfl]
    rw [List.takeWhile_cons_of_neg other, List.dropWhile_cons_of_neg other, List.append_nil]
    exact ⟨rfl, rfl⟩

/-- A word ends where no word goes on. -/
theorem takeWhile_word {w : String} {rest : List Char} (name : IsName w)
    (stop : stops rest = true) :
    (w.toList ++ rest).takeWhile isNameChar = w.toList ∧
      (w.toList ++ rest).dropWhile isNameChar = rest := by
  refine takeWhile_append name.chars fun c hc => ?_
  rw [stops, Option.mem_def.1 hc] at stop
  simpa using stop

/-- The first word of a line. -/
theorem wordsBetween?_word (first next : String) (texts : List String) {w : String}
    {rest : List Char} (name : IsName w) (stop : stops rest = true) :
    wordsBetween? (first :: next :: texts) (first.toList ++ (w.toList ++ rest))
      = (wordsBetween? (next :: texts) rest).map (w :: ·) := by
  obtain ⟨taken, dropped⟩ := takeWhile_word name stop
  have cut : first.toList.isPrefixOf? (first.toList ++ (w.toList ++ rest))
      = some (w.toList ++ rest) := List.isPrefixOf?_eq_some_iff_append_eq.2 rfl
  simp only [wordsBetween?, cut, taken, dropped, if_neg name.nonempty, String.ofList_toList]

section Lines

variable {a b c d u v w : String}

theorem wordsBetween?_one (name : IsName u) (stop : stops b.toList = true) :
    wordsBetween? [a, b] (a ++ u ++ b).toList = some [u] := by
  have last : wordsBetween? [b] b.toList = some [] := if_pos rfl
  rw [String.toList_append, String.toList_append, List.append_assoc,
    wordsBetween?_word a b [] name stop, last]
  rfl

theorem wordsBetween?_two (first : IsName u) (second : IsName v) (stop : stops b.toList = true)
    (stop' : stops c.toList = true) :
    wordsBetween? [a, b, c] (a ++ u ++ b ++ v ++ c).toList = some [u, v] := by
  have shape : (a ++ u ++ b ++ v ++ c).toList = a.toList ++ (u.toList ++ (b ++ v ++ c).toList) := by
    simp only [String.toList_append, List.append_assoc]
  have goes : stops (b ++ v ++ c).toList = true := by
    simpa only [String.toList_append, List.append_assoc] using stops_append stop _
  rw [shape, wordsBetween?_word a b [c] first goes, wordsBetween?_one second stop']
  rfl

theorem wordsBetween?_three (first : IsName u) (second : IsName v) (third : IsName w)
    (stop : stops b.toList = true) (stop' : stops c.toList = true)
    (stop'' : stops d.toList = true) :
    wordsBetween? [a, b, c, d] (a ++ u ++ b ++ v ++ c ++ w ++ d).toList = some [u, v, w] := by
  have shape : (a ++ u ++ b ++ v ++ c ++ w ++ d).toList
      = a.toList ++ (u.toList ++ (b ++ v ++ c ++ w ++ d).toList) := by
    simp only [String.toList_append, List.append_assoc]
  have goes : stops (b ++ v ++ c ++ w ++ d).toList = true := by
    simpa only [String.toList_append, List.append_assoc] using stops_append stop _
  rw [shape, wordsBetween?_word a b [c, d] first goes,
    wordsBetween?_two second third stop' stop'']
  rfl

end Lines

/-! ## Lines without their blanks -/

/-- A line that does not begin with a blank has none to lose. -/
theorem bare_of_head {line : List Char} (h : line.head? ≠ some ' ') : bare line = line := by
  cases line with
  | nil => rfl
  | cons c line =>
    have letter : c ≠ ' ' := fun same => h (same ▸ rfl)
    exact List.dropWhile_cons_of_neg (by simpa using letter)

/-- Lines of source code without the blanks at their beginnings. -/
def bareLines (lines : List String) : List (List Char) := lines.map (bare ·.toList)

theorem bareLines_append (a b : List String) : bareLines (a ++ b) = bareLines a ++ bareLines b :=
  List.map_append

theorem bareLines_cons (line : String) (lines : List String) :
    bareLines (line :: lines) = bare line.toList :: bareLines lines := rfl

theorem bareLines_indent (lines : List String) : bareLines (indent lines) = bareLines lines := by
  unfold bareLines indent
  rw [List.map_map]
  refine List.map_congr_left fun line _ => ?_
  show bare (if line = "" then "" else "    " ++ line).toList = bare line.toList
  split
  · next empty => rw [empty]
  · rw [String.toList_append]
    rfl

theorem bareLines_enclosed (first last : String) (lines : List String) :
    bareLines (enclosed first lines last)
      = bare first.toList :: (bareLines lines ++ [bare last.toList]) := by
  rw [enclosed, List.cons_append, bareLines, List.map_cons, ← bareLines, bareLines_append,
    bareLines_indent]
  rfl

theorem toString_string (s : String) : toString s = s := rfl

/-- What is known of a statement that was made for a field. -/
def RustPut.Named : RustPut → Prop
  | .number _ ident | .each _ ident => IsIdentifier ident
  | .text name ident _ => IsName name ∧ IsIdentifier ident

theorem putOf?_number (t : NumberType) {ident : String} (h : IsIdentifier ident) :
    putOf? (s!"writer.put_{t.name}(self.{ident});").toList = some (.number t ident) := by
  have words : wordsBetween? ["writer.put_", "(self.", ");"]
      (s!"writer.put_{t.name}(self.{ident});").toList = some [t.name, ident] :=
    wordsBetween?_two (isName_typeName t) h.isName rfl rfl
  rw [putOf?, words]
  simp only [typeOf?_name, identifierOf?_of_isIdentifier h]
  rfl

theorem putOf?_text {name ident : String} (hname : IsName name) (h : IsIdentifier ident)
    (n : Nat) : putOf? (s!"writer.put_str(Self::NAME, \"{name}\", &self.{ident}, {n})?;").toList
      = some (.text name ident n) := by
  have other : wordsBetween? ["writer.put_", "(self.", ");"]
      (s!"writer.put_str(Self::NAME, \"{name}\", &self.{ident}, {n})?;").toList = none := by
    have shape : (s!"writer.put_str(Self::NAME, \"{name}\", &self.{ident}, {n})?;").toList
        = "writer.put_".toList ++ ("str".toList ++ ("(Self::NAME, \"".toList ++
          (s!"{name}\", &self.{ident}, {n})?;").toList)) := by
      simp [toString_string]
    rw [shape, wordsBetween?_word _ _ _ isName_str rfl]
    rfl
  have words : wordsBetween? ["writer.put_str(Self::NAME, \"", "\", &self.", ", ", ")?;"]
      (s!"writer.put_str(Self::NAME, \"{name}\", &self.{ident}, {n})?;").toList
        = some [name, ident, toString n] :=
    wordsBetween?_three hname h.isName (isName_toString n) rfl rfl rfl
  rw [putOf?, other, words]
  simp only [numberOf?_toString, identifierOf?_of_isIdentifier h]
  rfl

theorem putOf?_loop (ident : String) :
    putOf? (s!"for value in &self.{ident} \x7b").toList = none := by
  have shape : (s!"for value in &self.{ident} \x7b").toList
      = "for value in &self.".toList ++ (s!"{ident} \x7b").toList := by
    simp [toString_string]
  rw [putOf?, shape]
  rfl

theorem loopOf?_each (t : NumberType) {ident : String} (h : IsIdentifier ident) :
    loopOf? (s!"for value in &self.{ident} \x7b").toList (s!"writer.put_{t.name}(*value);").toList
      "\x7d".toList = some (.each t ident) := by
  have first : wordsBetween? ["for value in &self.", " \x7b"]
      (s!"for value in &self.{ident} \x7b").toList = some [ident] :=
    wordsBetween?_one h.isName rfl
  have body : wordsBetween? ["writer.put_", "(*value);"]
      (s!"writer.put_{t.name}(*value);").toList = some [t.name] :=
    wordsBetween?_one (isName_typeName t) rfl
  have last : wordsBetween? ["\x7d"] "\x7d".toList = some [] := if_pos rfl
  rw [loopOf?, first, body, last]
  simp only [typeOf?_name, identifierOf?_of_isIdentifier h]
  rfl

/-- The line of a field in a structure that is read. -/
def getLine (get : String × RustGet) : String := s!"{get.1}: {RustModule.getText get.2},"

theorem getLine_number (ident : String) (t : NumberType) :
    getLine (ident, .number t) = "" ++ ident ++ ": reader.get_" ++ t.name ++ "()," := by
  show ident ++ ": " ++ ("reader.get_" ++ t.name ++ "()") ++ "," = _
  simp [← String.toList_inj]

theorem getLine_each (ident : String) (t : NumberType) (n : Nat) :
    getLine (ident, .each t n)
      = "" ++ ident ++ ": std::array::from_fn(|_| reader.get_" ++ t.name ++ "())," := by
  show ident ++ ": " ++ ("std::array::from_fn(|_| reader.get_" ++ t.name ++ "())") ++ "," = _
  simp [← String.toList_inj]

theorem getLine_text (ident : String) (n : Nat) :
    getLine (ident, .text n) = "" ++ ident ++ ": reader.get_str(" ++ toString n ++ ")," := by
  show ident ++ ": " ++ ("reader.get_str(" ++ toString n ++ ")") ++ "," = _
  simp [← String.toList_inj]

section GetLine

variable {ident : String}

theorem getOf?_number (h : IsIdentifier ident) (t : NumberType) :
    getOf? (getLine (ident, .number t)).toList = some (ident, .number t) := by
  have words : wordsBetween? ["", ": reader.get_", "(),"] (getLine (ident, .number t)).toList
      = some [ident, t.name] := by
    rw [getLine_number]
    exact wordsBetween?_two h.isName (isName_typeName t) rfl rfl
  rw [getOf?, words]
  simp only [typeOf?_name, identifierOf?_of_isIdentifier h]
  rfl

theorem getOf?_each (h : IsIdentifier ident) (t : NumberType) (n : Nat) :
    getOf? (getLine (ident, .each t n)).toList = some (ident, .each t) := by
  have other : wordsBetween? ["", ": reader.get_", "(),"] (getLine (ident, .each t n)).toList
      = none := by
    have cut : (getLine (ident, .each t n)).toList
        = "".toList ++ (ident.toList ++ (": std::array".toList ++
          ("::from_fn(|_| reader.get_" ++ t.name ++ "()),").toList)) := by
      simp [getLine_each]
    rw [cut, wordsBetween?_word _ _ _ h.isName rfl]
    rfl
  have words : wordsBetween? ["", ": std::array::from_fn(|_| reader.get_", "()),"]
      (getLine (ident, .each t n)).toList = some [ident, t.name] := by
    rw [getLine_each]
    exact wordsBetween?_two h.isName (isName_typeName t) rfl rfl
  rw [getOf?, other, words]
  simp only [typeOf?_name, identifierOf?_of_isIdentifier h]
  rfl

theorem getOf?_text (h : IsIdentifier ident) (n : Nat) :
    getOf? (getLine (ident, .text n)).toList = some (ident, .text n) := by
  -- The name of the call begins as that of a number does, and is followed by more than `(),`.
  have number : wordsBetween? ["", ": reader.get_", "(),"] (getLine (ident, .text n)).toList
      = none := by
    have cut : (getLine (ident, .text n)).toList
        = "".toList ++ (ident.toList ++ (": reader.get_".toList ++ ("str".toList ++
          ("(".toList ++ ((toString n).toList ++ "),".toList))))) := by
      simp [getLine_text]
    have digit : wordsBetween? ["(),"] ("(".toList ++ ((toString n).toList ++ "),".toList))
        = none := by
      refine if_neg fun same => (isName_toString n).nonempty ?_
      exact List.append_left_eq_self.1 (List.cons.inj same).2
    rw [cut, wordsBetween?_word _ _ _ h.isName rfl, wordsBetween?_word _ _ _ isName_str rfl, digit]
    rfl
  have each : wordsBetween? ["", ": std::array::from_fn(|_| reader.get_", "()),"]
      (getLine (ident, .text n)).toList = none := by
    have cut : (getLine (ident, .text n)).toList
        = "".toList ++ (ident.toList ++ (": reader.get_str(".toList ++
          (toString n ++ "),").toList)) := by
      simp [getLine_text]
    rw [cut, wordsBetween?_word _ _ _ h.isName rfl]
    rfl
  have words : wordsBetween? ["", ": reader.get_str(", "),"] (getLine (ident, .text n)).toList
      = some [ident, toString n] := by
    rw [getLine_text]
    exact wordsBetween?_two h.isName (isName_toString n) rfl rfl
  rw [getOf?, number, each, words]
  simp only [numberOf?_toString, identifierOf?_of_isIdentifier h]
  rfl

/-- A line is read as it is written, but for how long an array is. -/
theorem getOf?_getLine (h : IsIdentifier ident) (get : RustGet) :
    getOf? (getLine (ident, get)).toList = some (ident, get.spelled) := by
  cases get with
  | number t => exact getOf?_number h t
  | each t n => exact getOf?_each h t n
  | text n => exact getOf?_text h n

end GetLine

theorem IsIdentifier.head_ne {s : String} (h : IsIdentifier s) (rest : List Char) :
    (s.toList ++ rest).head? ≠ some ' ' := by
  obtain ⟨⟨c, cs, spelled, -⟩, chars⟩ := h
  have letter := chars c (spelled ▸ List.mem_cons_self)
  rw [spelled]
  intro same
  obtain rfl : c = ' ' := by simpa using same
  cases letter

/-! ## The implementation of a message -/

/-- The implementation of a structure. -/
def RustStruct.impl (s : RustStruct) : RustImpl where
  ident := s.ident
  id := s.message.id
  name := s.message.name
  fingerprint := s.message.fingerprint.toNat
  baseLength := s.message.baseLength
  maxLength := s.message.maxLength
  puts := s.puts
  gets := s.gets.map fun g => (g.1, g.2.spelled)

/-- What is known of a structure that was made of names. -/
structure RustStruct.Named (s : RustStruct) : Prop where
  ident : IsIdentifier s.ident
  name : IsName s.message.name
  puts : ∀ p ∈ s.puts, p.Named
  gets : ∀ g ∈ s.gets, IsIdentifier g.1

namespace LineReader

theorem bind_of_read {α β : Type} {x : LineReader α} {f : α → LineReader β}
    {lines rest : List (List Char)} {a : α} (h : x lines = some (a, rest)) :
    (x >>= f) lines = f a rest := by
  show (x lines >>= fun p => f p.1 p.2) = _
  rw [h]
  rfl

theorem head_toList_ne {c : Char} {cs : List Char} (h : c ≠ ' ') :
    (String.ofList (c :: cs)).toList.head? ≠ some ' ' := by
  rw [String.toList_ofList]
  exact fun same => h (Option.some.inj same)

theorem fixed_bare {text : String} (start : text.toList.head? ≠ some ' ')
    (rest : List (List Char)) : fixed text (bare text.toList :: rest) = some ((), rest) := by
  rw [bare_of_head start]
  exact if_pos rfl

theorem between_bare {α : Type} {before after w : String} {read : String → Option α} {a : α}
    (start : (before ++ w ++ after).toList.head? ≠ some ' ') (name : IsName w)
    (stop : stops after.toList = true) (h : read w = some a) (rest : List (List Char)) :
    between before after read (bare (before ++ w ++ after).toList :: rest) = some (a, rest) := by
  rw [bare_of_head start, between, wordsBetween?_one name stop]
  simp only [h]
  rfl

theorem puts_finish (rest : List (List Char)) :
    puts (bare "writer.finish(version)".toList :: rest) = some ([], rest) := by
  rw [puts.eq_def]
  exact if_pos rfl

theorem puts_of_put {line : List Char} {p : RustPut} (h : putOf? line = some p)
    (rest : List (List Char)) :
    puts (line :: rest) = (puts rest).map fun (statements, rest) => (p :: statements, rest) := by
  have other : line ≠ "writer.finish(version)".toList := by
    rintro rfl
    cases h
  rw [puts.eq_def]
  simp only [if_neg other, h]

theorem puts_of_loop {first body last : List Char} {p : RustPut} (none_first : putOf? first = none)
    (h : loopOf? first body last = some p) (rest : List (List Char)) :
    puts (first :: body :: last :: rest)
      = (puts rest).map fun (statements, rest) => (p :: statements, rest) := by
  have other : first ≠ "writer.finish(version)".toList := by
    rintro rfl
    cases h
  rw [puts.eq_def]
  simp only [if_neg other, none_first, h]

/-- A statement is read as it is written. -/
theorem puts_putLines {p : RustPut} (named : p.Named) (rest : List (List Char)) :
    puts (bareLines (RustModule.putLines p) ++ rest)
      = (puts rest).map fun (statements, rest) => (p :: statements, rest) := by
  cases p with
  | number t ident =>
    have line : bare (s!"writer.put_{t.name}(self.{ident});").toList
        = (s!"writer.put_{t.name}(self.{ident});").toList :=
      bare_of_head (by simp [toString_string])
    exact puts_of_put ((congrArg putOf? line).trans (putOf?_number t named)) rest
  | each t ident =>
    have first : bare (s!"for value in &self.{ident} \x7b").toList
        = (s!"for value in &self.{ident} \x7b").toList :=
      bare_of_head (by simp [toString_string])
    have body : bare (s!"writer.put_{t.name}(*value);").toList
        = (s!"writer.put_{t.name}(*value);").toList :=
      bare_of_head (by simp [toString_string])
    rw [RustModule.putLines, bareLines_enclosed]
    refine puts_of_loop ((congrArg putOf? first).trans (putOf?_loop ident)) ?_ rest
    exact (congrArg₂ (loopOf? · · _) first body).trans (loopOf?_each t named)
  | text name ident n =>
    have line : bare (s!"writer.put_str(Self::NAME, \"{name}\", &self.{ident}, {n})?;").toList
        = (s!"writer.put_str(Self::NAME, \"{name}\", &self.{ident}, {n})?;").toList :=
      bare_of_head (by simp [toString_string])
    exact puts_of_put ((congrArg putOf? line).trans (putOf?_text named.1 named.2 n)) rest

/-- Statements are read as they are written. -/
theorem puts_flatMap_putLines {statements : List RustPut} (named : ∀ p ∈ statements, p.Named)
    (rest : List (List Char)) :
    puts (bareLines (statements.flatMap RustModule.putLines)
        ++ bare "writer.finish(version)".toList :: rest) = some (statements, rest) := by
  induction statements with
  | nil => exact puts_finish rest
  | cons p statements ih =>
    obtain ⟨first, others⟩ := List.forall_mem_cons.1 named
    rw [List.flatMap_cons, bareLines_append, List.append_assoc, puts_putLines first, ih others]
    rfl

theorem gets_end (rest : List (List Char)) :
    gets (bare "\x7d)".toList :: rest) = some ([], rest) := by
  rw [gets]
  exact if_pos rfl

/-- An expression is read as it is written. -/
theorem gets_cons {g : String × RustGet} (named : IsIdentifier g.1) (rest : List (List Char)) :
    gets (bare (getLine g).toList :: rest)
      = (gets rest).map fun (expressions, rest) => ((g.1, g.2.spelled) :: expressions, rest) := by
  have line : bare (getLine g).toList = (getLine g).toList := by
    have begins : (getLine g).toList
        = g.1.toList ++ (": " ++ RustModule.getText g.2 ++ ",").toList := by
      simp [getLine, toString_string]
    rw [begins]
    exact bare_of_head (named.head_ne _)
  have read := getOf?_getLine named g.2
  have other : (getLine g).toList ≠ "\x7d)".toList := by
    intro same
    rw [same] at read
    cases read
  rw [line, gets, if_neg other, read]

/-- Expressions are read as they are written. -/
theorem gets_map_getLine {expressions : List (String × RustGet)}
    (named : ∀ g ∈ expressions, IsIdentifier g.1) (rest : List (List Char)) :
    gets (bareLines (expressions.map getLine) ++ bare "\x7d)".toList :: rest)
      = some (expressions.map fun g => (g.1, g.2.spelled), rest) := by
  induction expressions with
  | nil => exact gets_end rest
  | cons g expressions ih =>
    obtain ⟨first, others⟩ := List.forall_mem_cons.1 named
    rw [List.map_cons, bareLines_cons, List.cons_append, gets_cons first, ih others]
    rfl

theorem number_bare {before : String} {n : Nat}
    (start : (before ++ toString n ++ ";").toList.head? ≠ some ' ') (rest : List (List Char)) :
    number before (bare (before ++ toString n ++ ";").toList :: rest) = some (n, rest) :=
  between_bare start (isName_toString n) rfl (numberOf?_toString n) rest

/-- The function that encodes is read as it is written. -/
theorem encoding_lines {statements : List RustPut} (named : ∀ p ∈ statements, p.Named)
    (rest : List (List Char)) :
    encoding (bareLines (enclosed
        "fn encode_payload(&self, version: MavLinkVersion) -> Result<Payload, EncodeError> \x7b"
        (["let mut writer = PayloadWriter::for_message::<Self>();"]
          ++ statements.flatMap RustModule.putLines ++ ["writer.finish(version)"]) "\x7d") ++ rest)
      = some (statements, rest) := by
  simp only [bareLines_enclosed, bareLines_append, bareLines_cons, List.cons_append,
    List.append_assoc]
  refine (bind_of_read (fixed_bare (head_toList_ne (by decide)) _)).trans ?_
  refine (bind_of_read (fixed_bare (head_toList_ne (by decide)) _)).trans ?_
  refine (bind_of_read (puts_flatMap_putLines named _)).trans ?_
  exact bind_of_read (fixed_bare (head_toList_ne (by decide)) _)

/-- The function that decodes is read as it is written. -/
theorem decoding_lines {expressions : List (String × RustGet)}
    (named : ∀ g ∈ expressions, IsIdentifier g.1) (rest : List (List Char)) :
    decoding (bareLines (enclosed
        "fn decode_payload(payload: &Payload) -> Result<Self, DecodeError> \x7b"
        (["let mut reader = PayloadReader::for_message::<Self>(payload)?;"]
          ++ enclosed "Ok(Self \x7b" (expressions.map getLine) "\x7d)") "\x7d") ++ rest)
      = some (expressions.map fun g => (g.1, g.2.spelled), rest) := by
  simp only [bareLines_enclosed, bareLines_append, bareLines_cons, List.cons_append,
    List.append_assoc]
  refine (bind_of_read (fixed_bare (head_toList_ne (by decide)) _)).trans ?_
  refine (bind_of_read (fixed_bare (head_toList_ne (by decide)) _)).trans ?_
  refine (bind_of_read (fixed_bare (head_toList_ne (by decide)) _)).trans ?_
  refine (bind_of_read (gets_map_getLine named _)).trans ?_
  exact bind_of_read (fixed_bare (head_toList_ne (by decide)) _)

/-- **An implementation is read as it is written**, whatever lines follow it. -/
theorem impl_messageLines {s : RustStruct} (named : s.Named) (rest : List (List Char)) :
    impl (bareLines (RustModule.messageLines s) ++ rest) = some (s.impl, rest) := by
  obtain ⟨ident, name, statements, expressions⟩ := named
  rw [RustModule.messageLines, bareLines_enclosed]
  simp only [bareLines_append _ (enclosed _ _ _), bareLines_append, bareLines_cons,
    List.cons_append, List.append_assoc]
  refine (bind_of_read (between_bare (by simp) ident.isName rfl
    (identifierOf?_of_isIdentifier ident) _)).trans ?_
  refine (bind_of_read (number_bare (by simp) _)).trans ?_
  refine (bind_of_read (between_bare (by simp) name rfl rfl _)).trans ?_
  refine (bind_of_read (number_bare (by simp) _)).trans ?_
  refine (bind_of_read (number_bare (by simp) _)).trans ?_
  refine (bind_of_read (number_bare (by simp) _)).trans ?_
  refine (bind_of_read (fixed_bare (by simp) _)).trans ?_
  refine (bind_of_read (encoding_lines statements _)).trans ?_
  refine (bind_of_read (fixed_bare (by simp) _)).trans ?_
  refine (bind_of_read (decoding_lines expressions _)).trans ?_
  exact bind_of_read (fixed_bare (by simp) _)

end LineReader

/-! ## Texts -/

theorem toList_unlines_cons (line : String) (lines : List String) :
    (unlines (line :: lines)).toList = line.toList ++ '\n' :: (unlines lines).toList := by
  simp [unlines, String.toList_join]

theorem unlines_append (a b : List String) : unlines (a ++ b) = unlines a ++ unlines b := by
  simp [unlines]

/-- Lines that are not broken by what is in them. -/
def Unbroken (lines : List String) : Prop := ∀ line ∈ lines, '\n' ∉ line.toList

/-- The lines of which lines consist, without the blanks at their beginnings.  A line that is broken
by what is in it counts as several. -/
def barePieces (lines : List String) : List (List Char) :=
  lines.flatMap fun line => (line.toList.splitOn '\n').map bare

theorem barePieces_append (a b : List String) :
    barePieces (a ++ b) = barePieces a ++ barePieces b := List.flatMap_append

/-- A text is cut into its lines, with nothing behind the last. -/
theorem map_bare_splitOn_unlines (lines : List String) :
    ((unlines lines).toList.splitOn '\n').map bare = barePieces lines ++ [[]] := by
  induction lines with
  | nil => rfl
  | cons line lines ih =>
    rw [toList_unlines_cons, List.splitOn_append_cons_self, List.map_append, ih,
      ← List.append_assoc]
    rfl

theorem barePieces_of_unbroken {lines : List String} (unbroken : Unbroken lines) :
    barePieces lines = bareLines lines := by
  induction lines with
  | nil => rfl
  | cons line lines ih =>
    obtain ⟨first, others⟩ := List.forall_mem_cons.1 unbroken
    have own : barePieces [line] = [bare line.toList] := by
      rw [barePieces, List.flatMap_singleton, List.splitOn_eq_singleton first, List.map_singleton]
    rw [← List.singleton_append, barePieces_append, own, ih others]
    rfl

/-- What is written out is one line if its characters are.  A string is made of bytes, so these are
looked at. -/
theorem feed_notMem_toList {cs : List Char} (h : '\n' ∉ cs) : '\n' ∉ (String.ofList cs).toList := by
  rwa [String.toList_ofList]

theorem IsName.unbroken {s : String} (h : IsName s) : '\n' ∉ s.toList :=
  fun broken => absurd (h.chars _ broken) (by decide)

theorem unbroken_toDigits (n : Nat) : '\n' ∉ Nat.toDigits 10 n := by
  intro broken
  have digit := Text.isDigit_of_mem_toDigits broken
  cases digit

namespace Unbroken

theorem line {line : String} (h : '\n' ∉ line.toList) : Unbroken [line] :=
  List.forall_mem_singleton.2 h

theorem of_chars {lines : List String} (h : ∀ cs ∈ lines.map String.toList, '\n' ∉ cs) :
    Unbroken lines := fun _ hline => h _ (List.mem_map_of_mem hline)

theorem append {a b : List String} (ha : Unbroken a) (hb : Unbroken b) : Unbroken (a ++ b) :=
  fun line h => (List.mem_append.1 h).elim (ha line) (hb line)

theorem indent {lines : List String} (h : Unbroken lines) : Unbroken (indent lines) := by
  intro line hline
  obtain ⟨inner, hinner, rfl⟩ := List.mem_map.1 hline
  split
  · simp
  · simpa using h inner hinner

theorem below {first : String} {lines : List String} (hfirst : '\n' ∉ first.toList)
    (h : Unbroken lines) : Unbroken (below first lines) :=
  List.forall_mem_cons.2 ⟨hfirst, h.indent⟩

theorem enclosed {first last : String} {lines : List String} (hfirst : '\n' ∉ first.toList)
    (h : Unbroken lines) (hlast : '\n' ∉ last.toList) : Unbroken (enclosed first lines last) :=
  append (below hfirst h) (List.forall_mem_singleton.2 hlast)

theorem putLines {p : RustPut} (named : p.Named) : Unbroken (RustModule.putLines p) := by
  cases p with
  | number t ident =>
    have type := (isName_typeName t).unbroken
    have word := (IsIdentifier.isName named).unbroken
    exact List.forall_mem_singleton.2 (by simp [type, word, toString_string])
  | each t ident =>
    have type := (isName_typeName t).unbroken
    have word := (IsIdentifier.isName named).unbroken
    refine enclosed ?_ (List.forall_mem_singleton.2 ?_) (by simp)
    · simp [word, toString_string]
    · simp [type, toString_string]
  | text name ident n =>
    have label := named.1.unbroken
    have word := named.2.isName.unbroken
    exact List.forall_mem_singleton.2
      (by simp [label, word, unbroken_toDigits, toString_string])

theorem getLine {g : String × RustGet} (named : IsIdentifier g.1) : '\n' ∉ (getLine g).toList := by
  have word := named.isName.unbroken
  obtain ⟨ident, get⟩ := g
  cases get with
  | number t => simp [getLine_number, word, (isName_typeName t).unbroken]
  | each t n => simp [getLine_each, word, (isName_typeName t).unbroken]
  | text n => simp [getLine_text, word, unbroken_toDigits]

theorem messageLines {s : RustStruct} (named : s.Named) : Unbroken (RustModule.messageLines s) := by
  have ident := named.ident.isName.unbroken
  have name := named.name.unbroken
  have statements : Unbroken (s.puts.flatMap RustModule.putLines) := by
    intro line hline
    obtain ⟨p, hp, hline⟩ := List.mem_flatMap.1 hline
    exact putLines (named.puts p hp) line hline
  have expressions : Unbroken (s.gets.map Codegen.getLine) := by
    intro line hline
    obtain ⟨g, hg, rfl⟩ := List.mem_map.1 hline
    exact getLine (named.gets g hg)
  have encoding : Unbroken (Codegen.enclosed
      "fn encode_payload(&self, version: MavLinkVersion) -> Result<Payload, EncodeError> \x7b"
      (["let mut writer = PayloadWriter::for_message::<Self>();"]
        ++ s.puts.flatMap RustModule.putLines ++ ["writer.finish(version)"]) "\x7d") :=
    enclosed (feed_notMem_toList (by decide))
      (append (append (line (feed_notMem_toList (by decide))) statements)
        (line (feed_notMem_toList (by decide))))
      (feed_notMem_toList (by decide))
  have decoding : Unbroken (Codegen.enclosed
      "fn decode_payload(payload: &Payload) -> Result<Self, DecodeError> \x7b"
      (["let mut reader = PayloadReader::for_message::<Self>(payload)?;"]
        ++ Codegen.enclosed "Ok(Self \x7b" (s.gets.map Codegen.getLine) "\x7d)") "\x7d") :=
    enclosed (feed_notMem_toList (by decide))
      (append (line (feed_notMem_toList (by decide)))
        (enclosed (feed_notMem_toList (by decide)) expressions (feed_notMem_toList (by decide))))
      (feed_notMem_toList (by decide))
  refine enclosed (by simp [ident, toString_string]) ?_ (feed_notMem_toList (by decide))
  refine append (append (append ?_ encoding) ?_) decoding
  · simp [Unbroken, name, unbroken_toDigits, toString_string]
  · exact line (feed_notMem_toList (by decide))

end Unbroken

/-- **A text is read as the implementation that it was written for.** -/
theorem read?_messageLines {s : RustStruct} (named : s.Named) :
    RustImpl.read? (unlines (RustModule.messageLines s)) = some s.impl := by
  rw [RustImpl.read?, map_bare_splitOn_unlines, barePieces_of_unbroken (.messageLines named),
    LineReader.impl_messageLines named]

end Codegen
end Mavlink
