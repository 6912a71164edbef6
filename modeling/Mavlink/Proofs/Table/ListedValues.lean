import Mathlib
import Mavlink.Proofs.Schema.MessageMerging
import Mavlink.Proofs.Table.Acceptance
import Mavlink.Proofs.Table.SensorsTable

/-!
# Values in the order of the fields

What a table accepts and what it tells depends on a message by its layout only, and what is told
is determined by what is given.  So it is enough to look at one message of a layout, and to find
one message that can be told.

If values are given for all fields in a row, by the names of the fields, then a value is accepted or
told just if it is for the field at its place.

* `Message.Conveys.eq` --- what is told is determined;
* `Message.SameLayout.admits`, `Message.SameLayout.conveys` --- messages of one layout;
* `Message.admits_ofFields_iff`, `Message.conveys_ofFields` --- values in a row.
-/

namespace Mavlink

/-! ## What is told is determined -/

theorem Primitive.Conveys.eq {p : Primitive} {v a b : Value} (ha : p.Conveys v a)
    (hb : p.Conveys v b) : a = b := by
  cases ha with
  | signed kind same =>
    cases hb with
    | signed _ same' =>
      have numbers := same.symm.trans same'
      rw [Option.some.injEq] at numbers
      rw [Int64.toInt_inj.1 numbers]
    | unsigned kind' => simp [Primitive.isUnsigned_of_isSigned kind] at kind'
    | double => cases kind
    | float => cases kind
  | unsigned kind same =>
    cases hb with
    | signed kind' => simp [Primitive.isUnsigned_of_isSigned kind'] at kind
    | unsigned _ same' =>
      have numbers := same.symm.trans same'
      rw [Option.some.injEq, Int.natCast_inj] at numbers
      rw [UInt64.toNat_inj.1 numbers]
    | double => cases kind
    | float => cases kind
  | double same =>
    cases hb with
    | signed kind => cases kind
    | unsigned kind => cases kind
    | double same' => rw [Option.some.inj (same.symm.trans same')]
  | float same =>
    cases hb with
    | signed kind => cases kind
    | unsigned kind => cases kind
    | float same' => rw [Option.some.inj (same.symm.trans same')]

theorem FieldType.Conveys.eq {t : FieldType} {v a b : Value} (ha : t.Conveys v a)
    (hb : t.Conveys v b) : a = b := by
  cases ha with
  | number kind told =>
    cases hb with
    | number _ told' => exact told.eq told'
    | character => exact absurd rfl kind
    | code => exact absurd rfl kind
  | character =>
    cases hb with
    | number kind => exact absurd rfl kind
    | character => rfl
    | code same => cases same
  | code same =>
    cases hb with
    | number kind => exact absurd rfl kind
    | character => cases same
    | code same' =>
      have numbers := same.symm.trans same'
      rw [Option.some.injEq, Int.natCast_inj] at numbers
      rw [UInt8.toNat_inj.1 numbers]
  | text =>
    cases hb with
    | text => rfl
  | array kind given told each =>
    cases hb with
    | array _ _ told' each' =>
      refine congrArg Value.array (List.ext_getElem (told.trans told'.symm) fun i ha hb => ?_)
      have inside := ha.trans_eq (told.trans given.symm)
      exact (each i _ _ (List.getElem?_eq_getElem inside) (List.getElem?_eq_getElem ha)).eq
        (each' i _ _ (List.getElem?_eq_getElem inside) (List.getElem?_eq_getElem hb))

theorem Field.Conveys.eq {f : Field} {version : Version} {given : Option Value} {a b : Value}
    (ha : f.Conveys version given a) (hb : f.Conveys version given b) : a = b := by
  unfold Field.Conveys at ha hb
  split at ha
  · next left_out =>
    rw [if_pos left_out] at hb
    rw [ha, hb]
  · next carried =>
    rw [if_neg carried] at hb
    cases given with
    | some v => exact FieldType.Conveys.eq ha hb
    | none => exact ha.2.trans hb.2.symm

/-- **What is told is determined** by the layout, the version and what is given. -/
theorem Message.Conveys.eq {m : Message} {version : Version} {given a b : MessageValue}
    (ha : m.Conveys version given a) (hb : m.Conveys version given b) : a = b := by
  have each (name : String) : a.get? name = b.get? name := by
    by_cases field : ∃ f ∈ m.fields, f.name = name
    · obtain ⟨f, hf, rfl⟩ := field
      obtain ⟨v, told, conveyed⟩ := ha.fields f hf
      obtain ⟨v', told', conveyed'⟩ := hb.fields f hf
      rw [told, told', conveyed.eq conveyed']
    · have unknown {c : MessageValue} (hc : m.Conveys version given c) : c.get? name = none :=
        Option.eq_none_iff_forall_ne_some.2 fun v told => field (hc.only name v told)
      rw [unknown ha, unknown hb]
  have ids : a.id = b.id := ha.id.trans hb.id.symm
  have fields : a.fields = b.fields := Dictionary.ext_find? each
  cases a
  cases b
  cases ids
  cases fields
  rfl

/-! ## Layouts -/

namespace Message.SameLayout

variable {a b : Message} {version : Version}

/-- A field of the one is a field of the other, but for what is not sent. -/
theorem exists_field (h : a.SameLayout b) {f : Field} (hf : f ∈ a.fields) :
    ∃ g ∈ b.fields, g.name = f.name ∧ g.type = f.type ∧ g.isExtension = f.isExtension := by
  obtain ⟨g, hg, same⟩ := List.mem_map.1 (h.2.2 ▸ List.mem_map_of_mem (f := Field.shape) hf)
  simp only [Field.shape, Prod.mk.injEq] at same
  exact ⟨g, hg, same⟩

theorem exists_named (h : a.SameLayout b) {name : String} (named : ∃ f ∈ a.fields, f.name = name) :
    ∃ g ∈ b.fields, g.name = name := by
  obtain ⟨f, hf, rfl⟩ := named
  obtain ⟨g, hg, same, -⟩ := h.exists_field hf
  exact ⟨g, hg, same⟩

/-- Messages of one layout are accepted alike. -/
theorem admits (h : a.SameLayout b) {v : MessageValue} (admitted : a.Admits version v) :
    b.Admits version v where
  numbered := admitted.numbered
  named name value given := h.exists_named (admitted.named name value given)
  complete g hg base := by
    obtain ⟨f, hf, name, -, extension⟩ := h.symm.exists_field hg
    exact name ▸ admitted.complete f hf (extension.trans base)
  fits g hg value given := by
    obtain ⟨f, hf, name, type, -⟩ := h.symm.exists_field hg
    exact type ▸ admitted.fits f hf value (name ▸ given)

/-- Messages of one layout tell alike. -/
theorem conveys (h : a.SameLayout b) {given told : MessageValue}
    (conveyed : a.Conveys version given told) : b.Conveys version given told where
  id := conveyed.id
  fields g hg := by
    obtain ⟨f, hf, name, type, extension⟩ := h.symm.exists_field hg
    obtain ⟨v, found, own⟩ := conveyed.fields f hf
    refine ⟨v, name ▸ found, ?_⟩
    unfold Field.Conveys at own ⊢
    rwa [name, type, extension] at own
  only name v found := h.exists_named (conveyed.only name v found)

end Message.SameLayout

/-! ## Values in a list -/

section Lists

variable {m : Message} {version : Version} {values given told : List (String × Value)}

/-- A value that stands at the place of a field is the value of the field. -/
theorem MessageValue.get?_ofFields (names : values.map (·.1) = m.fields.map (·.name)) {k : Nat}
    (field : k < m.fields.length) (value : k < values.length) (id : MessageId) :
    (ofFields id values).get? m.fields[k].name = some values[k].2 := by
  have distinct : (values.map (·.1)).Pairwise (· ≠ ·) := by
    rw [names, List.pairwise_map]
    exact m.of_sound.2.1
  have name : values[k].1 = m.fields[k].name := by
    have same := List.getElem_of_eq names (by rwa [List.length_map])
    rwa [List.getElem_map, List.getElem_map] at same
  rw [← name]
  exact Dictionary.find?_ofList_of_mem (List.pairwise_map.1 distinct) (List.getElem_mem value)

/-- Only fields have values. -/
theorem MessageValue.exists_field_of_ofFields (names : values.map (·.1) = m.fields.map (·.name))
    {id : MessageId} {name : String} {value : Value}
    (given : (ofFields id values).get? name = some value) : ∃ f ∈ m.fields, f.name = name := by
  rw [← List.mem_map, ← names]
  exact List.mem_map.2 ⟨_, Dictionary.mem_of_find?_ofList given, rfl⟩

/-- Values for all fields in a row are accepted just if each fits its field. -/
theorem Message.admits_ofFields_iff (names : values.map (·.1) = m.fields.map (·.name))
    (small : m.id ≤ 255) : m.Admits version (.ofFields m.id values)
      ↔ List.Forall₂ (fun f p => f.type.Admits p.2) m.fields values := by
  have lengths : m.fields.length = values.length := by
    simpa using congrArg List.length names.symm
  have found {k : Nat} (inside : k < m.fields.length) :=
    MessageValue.get?_ofFields names inside (lengths ▸ inside) m.id
  constructor
  · intro admitted
    refine List.forall₂_iff_get.2 ⟨lengths, fun k inside _ => ?_⟩
    exact admitted.fits _ (List.getElem_mem inside) _ (found inside)
  · intro each
    refine ⟨fun _ => small, fun _ _ => MessageValue.exists_field_of_ofFields names,
      fun f hf _ => ?_, fun f hf value given => ?_⟩
    · obtain ⟨k, inside, rfl⟩ := List.mem_iff_getElem.1 hf
      exact ⟨_, found inside⟩
    · obtain ⟨k, inside, rfl⟩ := List.mem_iff_getElem.1 hf
      obtain rfl := Option.some.inj ((found inside).symm.trans given)
      exact each.get inside _

/-- They are told as values for all fields in a row. -/
theorem Message.conveys_ofFields (given_names : given.map (·.1) = m.fields.map (·.name))
    (told_names : told.map (·.1) = m.fields.map (·.name))
    (each : List.Forall₂ (fun f p => f.Conveys version (some p.1.2) p.2.2) m.fields
      (given.zip told)) : m.Conveys version (.ofFields m.id given) (.ofFields m.id told) := by
  have given_length : m.fields.length = given.length := by
    simpa using congrArg List.length given_names.symm
  have told_length : m.fields.length = told.length := by
    simpa using congrArg List.length told_names.symm
  refine ⟨rfl, fun f hf => ?_, fun _ _ => MessageValue.exists_field_of_ofFields told_names⟩
  obtain ⟨k, inside, rfl⟩ := List.mem_iff_getElem.1 hf
  refine ⟨_, MessageValue.get?_ofFields told_names inside (told_length ▸ inside) m.id, ?_⟩
  rw [MessageValue.get?_ofFields given_names inside (given_length ▸ inside) m.id]
  have own := each.get inside (each.length_eq ▸ inside)
  rw [List.get_eq_getElem, List.get_eq_getElem, List.getElem_zip] at own
  exact own

end Lists

/-! ## Numbers that fit -/

/-- Both versions carry a base field. -/
theorem Field.conveys_base (f : Field) {version : Version} {v w : Value}
    (base : f.isExtension = false) (h : f.type.Conveys v w) : f.Conveys version (some v) w :=
  (f.conveys_iff (fun left_out => by simp [base] at left_out) (some v) w).2 h

namespace FieldType

theorem admits_byte (n : UInt8) : (scalar .uint8).Admits (.uint n.toUInt64) := by
  refine .number (by decide) (.unsigned rfl rfl (Int.natCast_nonneg _) ?_)
  rw [UInt8.toNat_toUInt64]
  exact_mod_cast n.toNat_lt

theorem admits_short (n : UInt16) : (scalar .uint16).Admits (.uint n.toUInt64) := by
  refine .number (by decide) (.unsigned rfl rfl (Int.natCast_nonneg _) ?_)
  rw [UInt16.toNat_toUInt64]
  exact_mod_cast n.toNat_lt

theorem admits_single_iff {x : Binary64} :
    (scalar .float).Admits (.float x) ↔ x.exceedsSingle = false := by
  rw [admits_number_iff (by decide), Primitive.admits_float_iff rfl]
  constructor
  · rintro ⟨_, ⟨⟩, within⟩
    exact within rfl
  · exact fun within => ⟨x, rfl, fun _ => within⟩

/-- A number without sign is told as it is. -/
theorem conveys_uint {p : Primitive} (unsigned : p.isUnsigned = true) (n : UInt64) :
    (scalar p).Conveys (.uint n) (.uint n) :=
  .number (by rintro rfl; cases unsigned) (.unsigned unsigned rfl)

/-- A decimal is rounded to 32 bits. -/
theorem conveys_single (x : Binary64) :
    (scalar .float).Conveys (.float x) (.float x.narrow.widen) :=
  .number (by decide) (.float rfl)

end FieldType

end Mavlink
