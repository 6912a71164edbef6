import Mathlib
import Mavlink.Proofs.Table.Acceptance
import Mavlink.Proofs.Table.Reencoding

/-!
# Values that can be given for each other

An integer can be given with or without a sign, and an extension field that is zero need not be
given at all.  Whichever way it is done, a table makes the same payload of it, or refuses it in
the same words.

* `Value.Interchangeable` --- values that differ in the signs of integers only;
* `Table.putPrimitive_interchangeable`, `Table.putValue_interchangeable` --- they are written alike;
* `Table.putValue_zero` --- zero is written as zeros;
* `Table.encode_interchangeable` --- messages of such values are encoded alike, and an extension
  field that is not given like one that is given as zero.
-/

namespace Mavlink

/-! ## Values -/

/-- Values that are the same, but that an integer may be given with or without a sign, also as
an element of an array. -/
inductive Value.Interchangeable : Value → Value → Prop where
  | same (v : Value) : Interchangeable v v
  | unsigned {n : Int64} {k : UInt64} (number : n.toInt = k.toNat) :
      Interchangeable (.int n) (.uint k)
  | signed {n : Int64} {k : UInt64} (number : n.toInt = k.toNat) :
      Interchangeable (.uint k) (.int n)
  | array {vs ws : List Value} (each : List.Forall₂ Interchangeable vs ws) :
      Interchangeable (.array vs) (.array ws)

/-- Messages with the same fields and such values. -/
structure MessageValue.Interchangeable (v w : MessageValue) : Prop where
  id : v.id = w.id
  fields : ∀ name, Option.Rel Value.Interchangeable (v.get? name) (w.get? name)

theorem MessageValue.get?_set (v : MessageValue) (name other : String) (value : Value) :
    (v.set name value).get? other = if other = name then some value else v.get? other :=
  Dictionary.find?_insert ..

namespace Table

variable (message : String) (f : Field) (w : PayloadWriter)

/-- Elements are written alike. -/
theorem putPrimitive_interchangeable (p : Primitive) {a b : Value} (h : a.Interchangeable b) :
    putPrimitive message f p w a = putPrimitive message f p w b := by
  -- An error shows the number, and a number is shown without a word about its sign.
  have shown {n : Int64} {k : UInt64} (number : n.toInt = k.toNat) :
      (Value.int n).shown = (Value.uint k).shown := by
    rw [Value.shown, Value.shown, number]
    rfl
  cases h with
  | same => rfl
  | unsigned number =>
    simp only [putPrimitive, Value.toFloat?, Value.toInt?, number, shown number]
  | signed number =>
    simp only [putPrimitive, Value.toFloat?, Value.toInt?, number, shown number]
  | array => rfl

theorem foldlM_putPrimitive_interchangeable (p : Primitive) {vs ws : List Value}
    (each : List.Forall₂ Value.Interchangeable vs ws) :
    vs.foldlM (putPrimitive message f p) w = ws.foldlM (putPrimitive message f p) w := by
  induction each generalizing w with
  | nil => rfl
  | cons first _ ih =>
    rw [List.foldlM_cons, List.foldlM_cons, putPrimitive_interchangeable message f w p first]
    exact bind_congr ih

/-- Fields are written alike. -/
theorem putValue_interchangeable {a b : Value} (h : a.Interchangeable b) :
    putValue message f w a = putValue message f w b := by
  have element := fun p => putPrimitive_interchangeable message f w p h
  cases h with
  | same => rfl
  | unsigned number | signed number =>
    unfold putValue
    split
    · exact element .uint8
    · next p _ _ => exact element p
    · rfl
    · rfl
  | array each =>
    unfold putValue
    split
    · rfl
    · next p _ _ => exact element p
    · rfl
    · next p n _ _ =>
      simp only [each.length_eq, foldlM_putPrimitive_interchangeable message f w p each]

/-! ## Zeros -/

/-- Zeros are read as a zero. -/
theorem readValue_zeros (t : FieldType) (k : Nat) : readValue ⟨List.replicate k 0⟩ t = t.zero := by
  have padded := readValue_padded ⟨[]⟩ k t
  rwa [readValue_nil] at padded

/-- Zeros are a zero, and nothing else that is told as one. -/
theorem plain_zeros (t : FieldType) (k : Nat) : t.Plain ⟨List.replicate k 0⟩ := by
  have text (n : Nat) : Bytes.IsText ((List.replicate k 0).take n) :=
    ⟨"", min n k, by rw [List.take_replicate]; rfl, by decide⟩
  have number (p : Primitive) (j : Nat) : p.Plain ⟨List.replicate j 0⟩ := by
    rintro -
    have word := PayloadReader.word_padded ⟨[]⟩ j 4
    have zero : PayloadReader.single ⟨List.replicate j 0⟩ = .zero :=
      congrArg (Binary32.mk ∘ UInt32.ofNat) word
    rw [zero]
    decide
  cases t with
  | scalar p =>
    by_cases kind : p = .char
    · subst kind
      exact text 1
    · exact (plain_scalar kind _).2 (number p k)
  | array p n =>
    by_cases kind : p = .char
    · subst kind
      exact text n
    · refine (plain_array kind _).2 fun i _ => ?_
      rw [PayloadReader.skip, List.drop_replicate]
      exact number p _

/-- **Zero is written as zeros.** -/
theorem putValue_zero :
    putValue message f w f.type.zero = .ok (w.putBytes (List.replicate f.size 0)) := by
  have enough : f.size ≤ (List.replicate f.size (0 : UInt8)).length := by
    rw [List.length_replicate]
  rw [← readValue_zeros f.type f.size, putValue_readValue (plain_zeros f.type f.size) enough,
    List.take_of_length_le (by rw [List.length_replicate])]

/-! ## Messages -/

/-- A message is encoded like another if the same names are given that are not fields, and its
fields are written alike. -/
theorem encode_congr {t : Table} {v v' : MessageValue} (id : v.id = v'.id)
    (names : ∀ m, t.messages.find? v.id = some m →
      v.fields.keys.find? (fun name => (m.field? name).isNone)
        = v'.fields.keys.find? fun name => (m.field? name).isNone)
    (fields : ∀ m, t.messages.find? v.id = some m → ∀ f ∈ m.fields, ∀ w,
      putField m.name v w f = putField m.name v' w f) (version : Version) :
    t.encode v version = t.encode v' version := by
  unfold encode
  rw [← id]
  cases known : t.messages.find? v.id with
  | none => rfl
  | some m =>
    have written (l : List Field) (inside : ∀ f ∈ l, f ∈ m.fields) (w : PayloadWriter) :
        l.foldlM (putField m.name v) w = l.foldlM (putField m.name v') w := by
      induction l generalizing w with
      | nil => rfl
      | cons f l ih =>
        obtain ⟨first, others⟩ := List.forall_mem_cons.1 inside
        rw [List.foldlM_cons, List.foldlM_cons, fields m known f first w]
        exact bind_congr (ih others)
    simp only [names m known, written m.wireFields fun _ => m.mem_wireFields.1]

/-- Messages with interchangeable values are encoded alike. -/
theorem encode_of_interchangeable (t : Table) {v v' : MessageValue} (h : v.Interchangeable v')
    (version : Version) : t.encode v version = t.encode v' version := by
  refine encode_congr h.id (fun m _ => ?_) (fun m _ f _ w => ?_) version
  · have keys : v.fields.keys = v'.fields.keys := by
      refine Dictionary.keys_eq_of_isSome fun name => ?_
      have given := h.fields name
      unfold MessageValue.get? at given
      generalize v.fields.find? name = a at given
      generalize v'.fields.find? name = b at given
      cases given <;> rfl
    rw [keys]
  · have given := h.fields f.name
    unfold putField
    generalize v.get? f.name = a at given
    generalize v'.get? f.name = b at given
    cases given with
    | none => rfl
    | some alike => exact putValue_interchangeable m.name f w alike

/-- An extension field that is not given can be given as zero. -/
theorem encode_set_zero {t : Table} {v : MessageValue} {m : Message}
    (known : t.messages.find? v.id = some m) {f : Field} (hf : f ∈ m.fields)
    (extension : f.isExtension = true) (omitted : v.get? f.name = none) (version : Version) :
    t.encode (v.set f.name f.type.zero) version = t.encode v version := by
  have own (m' : Message) (known' : t.messages.find? v.id = some m') : m = m' :=
    Option.some.inj (known.symm.trans known')
  have id : (v.set f.name f.type.zero).id = v.id := rfl
  refine encode_congr id (fun m' known' => ?_) (fun m' known' g hg w => ?_) version
  · obtain rfl := own m' known'
    have field : (m.field? f.name).isNone = false := by
      rw [Option.isNone_eq_false_iff]
      exact field?_isSome_iff.2 ⟨f, hf, rfl⟩
    exact Dictionary.find?_keys_insert v.fields field f.type.zero
  · obtain rfl := own m' known'
    unfold putField
    rw [MessageValue.get?_set]
    by_cases same : g.name = f.name
    · obtain rfl : g = f :=
        List.inj_on_of_nodup_map (List.pairwise_map.2 m.of_sound.2.1) hg hf same
      rw [if_pos rfl, omitted]
      simp only [extension, if_true]
      exact putValue_zero m.name g w
    · rw [if_neg same]

/-- Interchangeable values of a field make interchangeable messages. -/
theorem interchangeable_set (v : MessageValue) (name : String) {a b : Value}
    (h : a.Interchangeable b) : (v.set name a).Interchangeable (v.set name b) := by
  refine ⟨rfl, fun other => ?_⟩
  rw [MessageValue.get?_set, MessageValue.get?_set]
  split
  · exact .some h
  · cases v.get? other with
    | none => exact .none
    | some value => exact .some (.same value)

/-- **Values that can be given for each other.**  A table does not tell apart an integer that is
given with a sign from one that is given without, in whichever fields and elements this is done:
it makes the same payload of them, or the same error.  Nor does it tell an extension field that
is not given from one that is given as zero. -/
theorem encode_interchangeable (t : Table) (v : MessageValue) (version : Version) :
    (∀ v', v.Interchangeable v' → t.encode v' version = t.encode v version) ∧
    ∀ m, t.messages.find? v.id = some m → ∀ f ∈ m.fields, f.isExtension = true →
      v.get? f.name = none → ∀ zero, f.type.zero.Interchangeable zero →
        t.encode (v.set f.name zero) version = t.encode v version := by
  refine ⟨fun v' h => (encode_of_interchangeable t h version).symm, ?_⟩
  intro m known f hf extension omitted zero alike
  calc t.encode (v.set f.name zero) version
      = t.encode (v.set f.name f.type.zero) version :=
        (encode_of_interchangeable t (interchangeable_set v f.name alike) version).symm
    _ = t.encode v version := encode_set_zero known hf extension omitted version

/-- A dialect of one message: two offsets, and flags that only the second version carries. -/
def offsets : Dialect where
  name := "offsets"
  version := none
  number := none
  includes := []
  messages := Dictionary.ofList [(9, ⟨9, "OFFSETS", none, false,
    [{ name := "by", type := .array .int16 2 },
      { name := "flags", type := .scalar .uint8, isExtension := true }], by decide⟩)]
  enums := ∅

/-- An offset can be given without a sign, and flags that are zero can be left out.  What does
not fit is refused in the same words. -/
theorem offsets_interchangeable :
    (ofDialect offsets).encode
        ⟨9, Dictionary.ofList [("by", .array [.uint 3, .int (-4)]), ("flags", .uint 0)]⟩ .v2
      = (ofDialect offsets).encode
          ⟨9, Dictionary.ofList [("by", .array [.int 3, .int (-4)])]⟩ .v2 ∧
    (ofDialect offsets).encode
        ⟨9, Dictionary.ofList [("by", .array [.uint 32768, .int 0])]⟩ .v1
      = (ofDialect offsets).encode
          ⟨9, Dictionary.ofList [("by", .array [.int 32768, .int 0])]⟩ .v1 := by
  have alike (n : Int64) (k : UInt64) (number : n.toInt = k.toNat) (others : List Value) :
      MessageValue.Interchangeable ⟨9, Dictionary.ofList [("by", .array (.int n :: others))]⟩
        ⟨9, Dictionary.ofList [("by", .array (.uint k :: others))]⟩ :=
    interchangeable_set ⟨9, ∅⟩ "by"
      (.array (.cons (.unsigned number) (List.forall₂_same.2 fun v _ => .same v)))
  have known : ∃ m, (ofDialect offsets).messages.find? 9 = some m ∧
      ∃ f ∈ m.fields, f.name = "flags" ∧ f.type = .scalar .uint8 ∧ f.isExtension = true := by
    have layout : ((ofDialect offsets).messages.find? 9).map (·.fields)
        = some [{ name := "by", type := .array .int16 2 },
          { name := "flags", type := .scalar .uint8, isExtension := true }] := by decide +kernel
    obtain ⟨m, known, fields⟩ := Option.map_eq_some_iff.1 layout
    refine ⟨m, known, { name := "flags", type := .scalar .uint8, isExtension := true }, ?_,
      rfl, rfl, rfl⟩
    rw [fields]
    decide
  obtain ⟨m, known, f, hf, name, type, extension⟩ := known
  obtain ⟨signs, -⟩ := encode_interchangeable (ofDialect offsets)
    ⟨9, Dictionary.ofList [("by", .array [.int 3, .int (-4)])]⟩ .v2
  obtain ⟨-, zeros⟩ := encode_interchangeable (ofDialect offsets)
    ⟨9, Dictionary.ofList [("by", .array [.uint 3, .int (-4)])]⟩ .v2
  obtain ⟨refused, -⟩ := encode_interchangeable (ofDialect offsets)
    ⟨9, Dictionary.ofList [("by", .array [.int 32768, .int 0])]⟩ .v1
  have omitted := zeros m known f hf extension (by rw [name]; decide +kernel) (.uint 0)
    (by rw [type]; exact .same _)
  rw [name] at omitted
  exact ⟨omitted.trans (signs _ (alike 3 3 (by decide) _)),
    refused _ (alike 32768 32768 (by decide) _)⟩

end Table
end Mavlink
