import Mavlink.Markup.Tag

/-!
# Markup as events

A text is read as a list of events: tags that open, close or do both, and the
texts between them.  Comments, instructions and document types leave no event.

The list ends with `finished` or with `malformed`, and each event comes with the
text from where its reading began, so that a fault found in it can be placed.
The name of a closing tag is checked here; everything else about the order of
elements is left to whoever reads the events.
-/

namespace Mavlink.Markup

/-- An event. -/
inductive Event where
  | opening (tag : Tag)
  /-- A tag that opens an element and closes it. -/
  | empty (tag : Tag)
  | closing
  | text (content : String)
  | finished
  | malformed

/-- A piece of markup. -/
inductive Token where
  | opening (tag : Tag)
  | empty (tag : Tag)
  /-- A closing tag, with its name. -/
  | closing (name : String)
  /-- Text in which references are to be replaced. -/
  | text (raw : List Char)
  /-- Text as it is. -/
  | verbatim (content : List Char)
  /-- What leaves no event. -/
  | silent

/-- What comes first in a text. -/
inductive Reading where
  | finished
  | malformed
  | token (token : Token) (rest : List Char)

/-! ## Where a piece ends -/

/-- Cuts behind the end of a comment. -/
def cutComment : List Char → Option (List Char)
  | '-' :: '-' :: '>' :: r => some r
  | _ :: r => cutComment r
  | [] => none

/-- Cuts at the end of verbatim text. -/
def cutVerbatim : List Char → Option (List Char × List Char)
  | ']' :: ']' :: '>' :: r => some ([], r)
  | c :: r => (cutVerbatim r).map fun p => (c :: p.1, p.2)
  | [] => none

/-- Cuts at the angle bracket that closes a document type, `depth` brackets being open in it. -/
def cutDoctype (depth : Nat) : List Char → Option (List Char × List Char)
  | [] => none
  | c :: r =>
    if c = '>' then
      match depth with
      | 0 => some ([], r)
      | d + 1 => (cutDoctype d r).map fun p => (c :: p.1, p.2)
    else
      (cutDoctype (if c = '<' then depth + 1 else depth) r).map fun p => (c :: p.1, p.2)

/-- Cuts at the angle bracket that ends a tag, one that is not quoted. -/
def cutTag (quote : Option Char) : List Char → Option (List Char × List Char)
  | [] => none
  | c :: r =>
    match quote with
    | none =>
      if c = '>' then some ([], r)
      else
        let quote := if c = '"' ∨ c = '\'' then some c else none
        (cutTag quote r).map fun p => (c :: p.1, p.2)
    | some q => (cutTag (if c = q then none else quote) r).map fun p => (c :: p.1, p.2)

theorem length_cutComment {cs r : List Char} (h : cutComment cs = some r) :
    r.length < cs.length := by
  fun_induction cutComment cs with
  | case1 r' => cases h; simp; omega
  | case2 c r' _ ih => have := ih h; simp; omega
  | case3 => cases h

theorem length_cutVerbatim {cs a r : List Char} (h : cutVerbatim cs = some (a, r)) :
    r.length < cs.length := by
  fun_induction cutVerbatim cs generalizing a with
  | case1 r' => cases h; simp; omega
  | case2 c r' _ ih =>
    obtain ⟨p, hp, e⟩ := Option.map_eq_some_iff.1 h
    cases e
    have := ih hp; simp; omega
  | case3 => cases h

theorem length_cutDoctype {depth : Nat} {cs a r : List Char}
    (h : cutDoctype depth cs = some (a, r)) : r.length < cs.length := by
  induction cs generalizing depth a with
  | nil => simp [cutDoctype] at h
  | cons c cs ih =>
    unfold cutDoctype at h
    split at h
    · split at h
      · cases h; simp
      · obtain ⟨p, hp, e⟩ := Option.map_eq_some_iff.1 h
        cases e
        have := ih hp; simp; omega
    · obtain ⟨p, hp, e⟩ := Option.map_eq_some_iff.1 h
      cases e
      have := ih hp; simp; omega

theorem length_cutTag {quote : Option Char} {cs a r : List Char}
    (h : cutTag quote cs = some (a, r)) : r.length < cs.length := by
  induction cs generalizing quote a with
  | nil => simp [cutTag] at h
  | cons c cs ih =>
    unfold cutTag at h
    split at h
    · split at h
      · cases h; simp
      · obtain ⟨p, hp, e⟩ := Option.map_eq_some_iff.1 h
        cases e
        have := ih hp; simp; omega
    · obtain ⟨p, hp, e⟩ := Option.map_eq_some_iff.1 h
      cases e
      have := ih hp; simp; omega

/-! ## What a piece is -/

/-- The rest of a text after a word, in any letter case. -/
def afterWord? : List Char → List Char → Option (List Char)
  | [], cs => some cs
  | w :: ws, c :: cs => if c.toUpper = w then afterWord? ws cs else none
  | _ :: _, [] => none

theorem length_afterWord {w cs r : List Char} (h : afterWord? w cs = some r) :
    r.length ≤ cs.length := by
  fun_induction afterWord? w cs with
  | case1 => cases h; exact Nat.le_refl _
  | case2 ws c cs ih => exact Nat.le_succ_of_le (ih h)
  | case3 => cases h
  | case4 => cases h

/-- The blanks at the end of markup cut off. -/
def trimEndSpace (cs : List Char) : List Char := (cs.reverse.dropWhile isSpace).reverse

/-- The name in a closing tag, without the blanks behind it.  Blanks alone are a name. -/
def closingName (content : List Char) : List Char :=
  if content.all isSpace then content else trimEndSpace content

/-- The token of a tag's content. -/
def Token.ofTag (content : List Char) : Token :=
  if content.getLast? = some '/' then .empty (.ofContent content.dropLast)
  else .opening (.ofContent content)

/-- Reads what begins with an angle bracket and an exclamation mark. -/
def readDeclaration (cs : List Char) : Reading :=
  match cs with
  | '-' :: '-' :: r =>
    match cutComment r with
    | some rest => .token .silent rest
    | none => .malformed
  | '[' :: r =>
    match afterWord? "CDATA[".toList r with
    | some r =>
      match cutVerbatim r with
      | some (content, rest) => .token (.verbatim content) rest
      | none => .malformed
    | none => .malformed
  | _ =>
    match cutDoctype 0 cs with
    | some (content, rest) =>
      match afterWord? "DOCTYPE".toList content with
      | some body => if body.all isSpace then .malformed else .token .silent rest
      | none => .malformed
    | none => .malformed

/-- Reads an instruction after its question mark. -/
def readInstruction (cs : List Char) : Reading :=
  if 2 ≤ (cs.takeWhile (· ≠ '>')).length ∧ (cs.takeWhile (· ≠ '>')).getLast? = some '?' then
    .token .silent ((cs.dropWhile (· ≠ '>')).drop 1)
  else .malformed

/-- Reads what begins with an angle bracket. -/
def readMarkup (cs : List Char) : Reading :=
  match cs with
  | [] => .finished
  | '!' :: r => readDeclaration r
  | '/' :: r =>
    .token (.closing (String.ofList (closingName (r.takeWhile (· ≠ '>')))))
      ((r.dropWhile (· ≠ '>')).drop 1)
  | '?' :: r => readInstruction r
  | _ =>
    match cutTag none cs with
    | some (content, rest) => .token (.ofTag content) rest
    | none => .malformed

/-- Reads the first piece of a text. -/
def Reading.ofText (cs : List Char) : Reading :=
  match cs.dropWhile isSpace with
  | [] => .finished
  | '<' :: r => readMarkup r
  | r => .token (.text (trimEndSpace (r.takeWhile (· ≠ '<')))) (r.dropWhile (· ≠ '<'))

theorem length_dropWhile_le (p : Char → Bool) (cs : List Char) :
    (cs.dropWhile p).length ≤ cs.length :=
  (List.dropWhile_sublist p).length_le

theorem length_readDeclaration {cs rest : List Char} {t : Token}
    (h : readDeclaration cs = .token t rest) : rest.length < cs.length := by
  unfold readDeclaration at h
  split at h
  · split at h <;> cases h
    have := length_cutComment ‹_›; simp; omega
  · split at h
    · split at h <;> cases h
      have := length_cutVerbatim ‹_›
      have := length_afterWord ‹_›
      simp; omega
    · cases h
  · split at h
    · split at h
      · split at h <;> cases h
        exact length_cutDoctype ‹_›
      · cases h
    · cases h

theorem length_readMarkup {cs rest : List Char} {t : Token}
    (h : readMarkup cs = .token t rest) : rest.length < cs.length := by
  unfold readMarkup at h
  split at h
  · cases h
  · have := length_readDeclaration h; simp; omega
  · cases h
    have := length_dropWhile_le (· ≠ '>') ‹List Char›
    simp at this ⊢; omega
  · unfold readInstruction at h
    split at h <;> cases h
    have := length_dropWhile_le (· ≠ '>') ‹List Char›
    simp at this ⊢; omega
  · split at h <;> cases h
    exact length_cutTag ‹_›

/-- Every piece takes at least one character of the text. -/
theorem length_ofText {cs rest : List Char} {t : Token}
    (h : Reading.ofText cs = .token t rest) : rest.length < cs.length := by
  have skipped := length_dropWhile_le isSpace cs
  unfold Reading.ofText at h
  split at h
  · cases h
  case h_2 r e =>
    rw [e] at skipped
    have := length_readMarkup h; simp at skipped; omega
  case h_3 r hne hlt =>
    cases h
    generalize cs.dropWhile isSpace = r at *
    cases r with
    | nil => exact absurd rfl hne
    | cons c r =>
      have hc : c ≠ '<' := fun e => hlt r (e ▸ rfl)
      have := length_dropWhile_le (· ≠ '<') r
      simp [hc] at skipped this ⊢; omega

/-! ## Events -/

/-- The events of a text inside open elements, innermost first, each with the text
from where its reading began. -/
def eventsWithin (inside : List String) (cs : List Char) : List (List Char × Event) :=
  match _h : Reading.ofText cs with
  | .finished => [(cs, .finished)]
  | .malformed => [(cs, .malformed)]
  | .token (.opening tag) rest => (cs, .opening tag) :: eventsWithin (tag.name :: inside) rest
  | .token (.empty tag) rest => (cs, .empty tag) :: eventsWithin inside rest
  | .token (.closing name) rest =>
    match inside with
    | [] => [(cs, .malformed)]
    | innermost :: outer =>
      if name = innermost then (cs, .closing) :: eventsWithin outer rest
      else [(cs, .malformed)]
  | .token (.text raw) rest =>
    match resolve raw with
    | some content => (cs, .text (String.ofList content)) :: eventsWithin inside rest
    | none => [(cs, .malformed)]
  | .token (.verbatim content) rest =>
    (cs, .text (String.ofList content)) :: eventsWithin inside rest
  | .token .silent rest => eventsWithin inside rest
termination_by cs.length
decreasing_by all_goals exact length_ofText _h

/-- The text without a byte order mark at its start. -/
def withoutMark (cs : List Char) : List Char :=
  match cs with
  | '\uFEFF' :: r => r
  | _ => cs

/-- The events of a text. -/
def events (cs : List Char) : List (List Char × Event) := eventsWithin [] cs

end Mavlink.Markup
