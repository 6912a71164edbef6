import Mavlink.Proofs.Codegen.RustAgreement

/-!
# Extension fields in a payload

Only the second version of the protocol carries extension fields.  What is read of a payload
does not depend on its version, though, but on its length.  A payload that ends with its base
fields has zeros for extension fields.  One that goes on is read on, in whatever version it
came; only if it is cut to its base fields first are there zeros again, and nothing else is
changed by that.

* `Table.readFields_take` --- what stands behind fields is not read for them;
* `Table.mem_readFields_append` --- where the value of a field stands;
* `Table.extensions_of_decode` --- what is told of extension fields;
* `Table.note_read_on` --- a payload of the first version that goes on.
-/

namespace Mavlink
namespace Table

/-- What stands behind a field is not read for it. -/
theorem readValue_take {b : Bytes} {t : FieldType} {k : Nat} (enough : t.size ≤ k) :
    readValue ⟨b.take k⟩ t = readValue ⟨b⟩ t := by
  rcases Nat.le_total b.length k with short | long
  · rw [List.take_of_length_le short]
  · have split := readValue_append (b := b.take k) (t := t)
      (by rwa [List.length_take, Nat.min_eq_left long]) (b.drop k)
    rw [← split, List.take_append_drop]

/-- What stands behind fields is not read for them. -/
theorem readFields_take {fields : List Field} {k : Nat} (enough : Layout.size fields ≤ k)
    (b : Bytes) : readFields ⟨b.take k⟩ fields = readFields ⟨b⟩ fields := by
  -- After a field, what is left is the rest of the bytes cut to the rest of the length.
  induction fields generalizing b k with
  | nil => rfl
  | cons f fields ih =>
    rw [Layout.size_cons] at enough
    have first : f.type.size ≤ k := Nat.le_trans (Nat.le_add_right ..) enough
    have skipped : PayloadReader.skip ⟨b.take k⟩ f.size = ⟨(b.drop f.size).take (k - f.size)⟩ :=
      congrArg PayloadReader.mk List.drop_take
    rw [readFields, readFields, readValue_take first, skipped, ih (by omega)]
    rfl

/-- The value of a field stands behind the fields before it. -/
theorem mem_readFields_append (r : PayloadReader) (before after : List Field) (f : Field) :
    (f.name, readValue (r.skip (Layout.size before)) f.type)
      ∈ readFields r (before ++ f :: after) := by
  rw [readFields_append]
  exact List.mem_append_right _ List.mem_cons_self

/-- The value of an extension field stands behind all base fields. -/
theorem get?_read_extension {m : Message} {before after : List Field} {f : Field}
    (split : m.extensionFields = before ++ f :: after) (b : Bytes) :
    (read m b).get? f.name
      = some (readValue ⟨b.drop (m.baseLength + Layout.size before)⟩ f.type) := by
  obtain ⟨base, order, size, -⟩ := m.exists_base
  have inside := mem_readFields_append ⟨b⟩ (base ++ before) after f
  rw [List.append_assoc, ← split, ← order, Layout.size_append, size] at inside
  exact get?_read inside

/-- Cut to its base fields, a payload has zeros for extension fields, and what it had for
the others. -/
theorem get?_read_take {m : Message} {f : Field} (hf : f ∈ m.fields) (b : Bytes) :
    (read m (b.take m.baseLength)).get? f.name
      = if f.isExtension then some f.type.zero else (read m b).get? f.name := by
  obtain ⟨base, order, size, isBase⟩ := m.exists_base
  rcases List.mem_append.1 (order ▸ m.mem_wireFields.2 hf) with inBase | inExtensions
  · have same : readFields ⟨b.take m.baseLength⟩ base = readFields ⟨b⟩ base :=
      readFields_take (Nat.le_of_eq size) b
    obtain ⟨value, present⟩ : ∃ value, (f.name, value) ∈ readFields ⟨b⟩ base := by
      have named : f.name ∈ (readFields ⟨b⟩ base).map (·.1) := by
        rw [map_fst_readFields]
        exact List.mem_map_of_mem inBase
      obtain ⟨⟨_, value⟩, present, rfl⟩ := List.mem_map.1 named
      exact ⟨value, present⟩
    have whole : (f.name, value) ∈ readFields ⟨b⟩ m.wireFields := by
      rw [order, readFields_append]
      exact List.mem_append_left _ present
    have cut : (f.name, value) ∈ readFields ⟨b.take m.baseLength⟩ m.wireFields := by
      rw [order, readFields_append, same]
      exact List.mem_append_left _ present
    rw [get?_read whole, get?_read cut, isBase f inBase]
    rfl
  · have extension := Message.isExtension_of_mem_extensionFields inExtensions
    have nothing : PayloadReader.skip ⟨b.take m.baseLength⟩ (Layout.size base) = ⟨[]⟩ := by
      rw [PayloadReader.skip, size, List.drop_eq_nil_of_le (List.length_take_le ..)]
    have zero : (f.name, f.type.zero) ∈ readFields ⟨b.take m.baseLength⟩ m.wireFields := by
      rw [order, readFields_append, nothing]
      exact List.mem_append_right _ (zero_mem_readFields inExtensions)
    rw [get?_read zero, if_pos extension]

/-- **What is told of extension fields.**  Of a payload that the table of a dialect accepts,
the value of an extension field is what stands behind the base fields and the extension fields
before it, and zero if the payload does not reach it.  The version of the payload is not looked
at.  If the payload is cut to its base fields, every extension field is zero and no other
changes.  The code that is rendered for the message reads what the table reads. -/
theorem extensions_of_decode (d : Dialect) (p : Payload) (told : MessageValue)
    (accepted : (ofDialect d).decode p = .ok told) :
    ∃ m, (ofDialect d).messages.find? p.id = some m ∧
      (∀ before f after, m.extensionFields = before ++ f :: after →
        told.get? f.name
          = some (readValue ⟨p.bytes.drop (m.baseLength + Layout.size before)⟩ f.type) ∧
        (p.size ≤ m.baseLength + Layout.size before → told.get? f.name = some f.type.zero)) ∧
      (∀ version, (ofDialect d).decode { p with version := version } = .ok told) ∧
      (∃ cut, (ofDialect d).decode { p with bytes := p.bytes.take m.baseLength } = .ok cut ∧
        ∀ f ∈ m.fields, cut.get? f.name
          = if f.isExtension then some f.type.zero else told.get? f.name) ∧
      ∀ module, Codegen.RustModule.ofDialect d = .ok module → ∃ object,
        (Codegen.RustModule.structOf m).impl.decode (Codegen.declaredTypes m) p
            = some (.ok object) ∧
          Codegen.RustImpl.Reads m object told := by
  obtain ⟨m, known, fits, rfl⟩ := exists_of_decode accepted
  obtain ⟨listed, own⟩ := mem_of_find?_ofDialect known
  refine ⟨m, known, ?_, ?_, ⟨_, ?_, fun f hf => get?_read_take hf p.bytes⟩, ?_⟩
  · intro before f after split
    have there := get?_read_extension split p.bytes
    refine ⟨there, fun short => ?_⟩
    rw [there, List.drop_eq_nil_of_le short, readValue_nil]
  · intro version
    exact decode_eq known fits
  · have shorter : (p.bytes.take m.baseLength).length ≤ m.maxLength :=
      Nat.le_trans (List.length_take_le' ..) fits
    exact decode_eq known shorter
  · intro module rendered
    have agrees := Codegen.decode_agrees rendered listed (own.symm ▸ known) p
    have same : { p with id := m.id } = p := by rw [own]
    rw [same, accepted] at agrees
    exact agrees

theorem decode_noteBytes : ∃ told, (ofDialect notes).decode ⟨7, .v1, noteBytes⟩ = .ok told ∧
    told.get? "level" = some (.float ⟨0x3FF0000000000000⟩) := by
  obtain ⟨m, known, fields, base⟩ := exists_note
  have extensions : m.extensionFields
      = [] ++ { name := "level", type := .scalar .float, isExtension := true } :: [] := by
    rw [Message.extensionFields, fields]
    rfl
  have fits : Payload.size ⟨7, .v1, noteBytes⟩ ≤ m.maxLength := by
    rw [Message.maxLength, fields]
    decide
  refine ⟨_, decode_eq known fits, (get?_read_extension extensions noteBytes).trans ?_⟩
  rw [base]
  exact congrArg (some ∘ Value.float) (show Binary32.widen _ = _ by decide)

/-- A payload of the first version that goes on after its text has a level, and cut to its text
it has none. -/
theorem note_cut_to_text : ∃ m told cut,
    (ofDialect notes).decode ⟨7, .v1, noteBytes⟩ = .ok told ∧
      told.get? "level" = some (.float ⟨0x3FF0000000000000⟩) ∧
      (ofDialect notes).messages.find? 7 = some m ∧ m.baseLength = 4 ∧
      (ofDialect notes).decode ⟨7, .v1, noteBytes.take m.baseLength⟩ = .ok cut ∧
      cut.get? "level" = some (FieldType.scalar .float).zero := by
  obtain ⟨told, accepted, level⟩ := decode_noteBytes
  obtain ⟨m, known, -, -, ⟨cut, decoded, each⟩, -⟩ :=
    extensions_of_decode notes ⟨7, .v1, noteBytes⟩ told accepted
  obtain ⟨m', known', fields, base⟩ := exists_note
  obtain rfl : m = m' := Option.some.inj (known.symm.trans known')
  have declared : { name := "level", type := .scalar .float, isExtension := true } ∈ m.fields := by
    rw [fields]
    exact List.mem_cons_of_mem _ List.mem_cons_self
  exact ⟨m, told, cut, accepted, level, known, base, decoded, each _ declared⟩

/-- **A payload of the first version is read on** after its base fields: what stands there is
told of an extension field, though the first version has none. -/
theorem note_read_on : ∃ told, (ofDialect notes).decode ⟨7, .v1, noteBytes⟩ = .ok told ∧
    told.get? "level" ≠ some (FieldType.scalar .float).zero := by
  obtain ⟨told, accepted, level⟩ := decode_noteBytes
  refine ⟨told, accepted, fun zero => ?_⟩
  have same : Value.float ⟨0x3FF0000000000000⟩ = .float .zero :=
    Option.some.inj (level.symm.trans zero)
  exact absurd (Value.float.inj same) (by decide)

end Table
end Mavlink
