import Mathlib
import Mavlink.Proofs.Schema.WireOrder

/-!
# What two ends have to agree about

The two ends of a link agree about a message if they send the same base fields at the same places
and have the same fingerprint.  Of a base field only its name and its type matter, and a type
only up to the name of a byte.  So two definitions agree as soon as the base fields of one are
those of the other with fields of different widths moved past each other, whatever else they say.

* `Layout.map_imprint_base_wire` --- the order on the wire is that of the imprints;
* `Layout.fingerprintText_eq` --- and the fingerprint is taken from nothing else;
* `Message.agree_of_rearranged` --- so rearranged messages agree, and messages of one layout do.
-/

namespace Mavlink

/-- What a primitive is but for its name: a byte that tells a version is a byte. -/
def Primitive.plain : Primitive → Primitive
  | versionByte => uint8
  | p => p

theorem Primitive.size_plain (p : Primitive) : p.plain.size = p.size := by cases p <;> rfl

theorem Primitive.canonical_plain (p : Primitive) : p.plain.canonical = p.canonical := by
  cases p <;> rfl

namespace FieldType

/-- What a type is but for the names of bytes. -/
def plain : FieldType → FieldType
  | scalar p => scalar p.plain
  | array p n => array p.plain n

theorem element_plain (t : FieldType) : t.plain.element = t.element.plain := by cases t <;> rfl

theorem length?_plain (t : FieldType) : t.plain.length? = t.length? := by cases t <;> rfl

theorem size_plain (t : FieldType) : t.plain.size = t.size := by
  cases t with
  | scalar p => exact p.size_plain
  | array p n => exact congrArg (· * n) p.size_plain

end FieldType

/-- What the two ends have to agree about in a field. -/
def Field.imprint (f : Field) : String × FieldType := (f.name, f.type.plain)

namespace Layout

/-- The width of the elements of a field, from its imprint. -/
def imprintWidth (x : String × FieldType) : Nat := x.2.element.size

theorem imprintWidth_imprint (f : Field) : imprintWidth f.imprint = width f := by
  rw [imprintWidth, Field.imprint, FieldType.element_plain, Primitive.size_plain, width]

/-- Fields are those of another list in another order, but fields of one width have not been
moved past each other. -/
structure Rearranged (a b : List Field) : Prop where
  perm : (a.map Field.imprint).Perm (b.map Field.imprint)
  order : ∀ x ∈ a.map Field.imprint, ∀ y ∈ a.map Field.imprint, imprintWidth x = imprintWidth y →
    [x, y].Sublist (a.map Field.imprint) → [x, y].Sublist (b.map Field.imprint)

instance (a b : List Field) : Decidable (Rearranged a b) :=
  decidable_of_iff (_ ∧ _) ⟨fun ⟨perm, order⟩ => ⟨perm, order⟩, fun h => ⟨h.perm, h.order⟩⟩

/-- **The imprints of the base fields are sent in the order of their own widths.** -/
theorem map_imprint_base_wire (fields : List Field) :
    (base (wire fields)).map Field.imprint
      = byWidth imprintWidth ((base fields).map Field.imprint) := by
  rw [base_wire, map_byWidth width imprintWidth_imprint]

/-- The text of a fingerprint is told by the name and the imprints. -/
def imprintText (name : String) (imprints : List (String × FieldType)) : Bytes :=
  Text.utf8 (name ++ " ") ++ imprints.flatMap fun x =>
    Text.utf8 (x.2.element.canonical ++ " " ++ x.1 ++ " ")
      ++ (x.2.length?.map fun n => UInt8.ofNat n).toList

theorem fingerprintText_eq (name : String) (fields : List Field) :
    fingerprintText name fields
      = imprintText name ((base (wire fields)).map Field.imprint) := by
  simp only [fingerprintText, imprintText, List.flatMap_map, Field.imprint,
    FieldType.element_plain, Primitive.canonical_plain, FieldType.length?_plain]

theorem size_eq_imprints (fields : List Field) :
    size fields = ((fields.map Field.imprint).map (·.2.size)).sum := by
  rw [size_eq_sum, List.map_map]
  congr 2
  funext f
  exact f.type.size_plain.symm

theorem nodup_imprints {fields : List Field}
    (distinct : fields.Pairwise fun f g => f.name ≠ g.name) : (fields.map Field.imprint).Nodup :=
  List.pairwise_map.2 (distinct.imp fun apart same => apart (congrArg Prod.fst same))

/-- Rearranged fields are sent alike. -/
theorem Rearranged.byWidth_eq {a b : List Field} (h : Rearranged a b)
    (distinct : b.Pairwise fun f g => f.name ≠ g.name) :
    byWidth imprintWidth (a.map Field.imprint) = byWidth imprintWidth (b.map Field.imprint) :=
  byWidth_eq_of_perm imprintWidth (nodup_imprints distinct) h.perm fun x y same before =>
    h.order x (before.subset (by simp)) y (before.subset (by simp)) same before

theorem Rearranged.size_eq {a b : List Field} (h : Rearranged a b) : size a = size b := by
  rw [size_eq_imprints, size_eq_imprints]
  exact (h.perm.map _).sum_eq

/-! ## Fields of one shape -/

/-- The imprints are told by the shapes. -/
theorem map_imprint (fields : List Field) :
    fields.map Field.imprint = (fields.map Field.shape).map fun x => (x.1, x.2.1.plain) := by
  rw [List.map_map]
  rfl

theorem map_shape_base (fields : List Field) :
    (base fields).map Field.shape = (fields.map Field.shape).filter (!·.2.2) := by
  rw [List.filter_map]
  rfl

theorem map_shape_extensions (fields : List Field) :
    (extensions fields).map Field.shape = (fields.map Field.shape).filter (·.2.2) := by
  rw [List.filter_map]
  rfl

/-- The width of the elements of a field, from its shape. -/
def shapeWidth (x : String × FieldType × Bool) : Nat := x.2.1.element.size

theorem map_shape_wire (fields : List Field) :
    (wire fields).map Field.shape
      = byWidth shapeWidth ((fields.map Field.shape).filter (!·.2.2))
        ++ (fields.map Field.shape).filter (·.2.2) := by
  have same (f : Field) : shapeWidth f.shape = width f := rfl
  rw [wire_eq, List.map_append, map_byWidth width same, map_shape_base, map_shape_extensions]

theorem size_eq_shapes (fields : List Field) :
    size fields = ((fields.map Field.shape).map (·.2.1.size)).sum := by
  rw [size_eq_sum, List.map_map]
  rfl

end Layout

namespace Message

/-- Messages of one layout have the same base fields, up to what is not sent. -/
theorem SameLayout.rearranged {a b : Message} (h : a.SameLayout b) :
    Layout.Rearranged (Layout.base a.fields) (Layout.base b.fields) := by
  have shapes : (Layout.base a.fields).map Field.shape
      = (Layout.base b.fields).map Field.shape := by
    rw [Layout.map_shape_base, Layout.map_shape_base, h.2.2]
  have imprints : (Layout.base a.fields).map Field.imprint
      = (Layout.base b.fields).map Field.imprint := by
    rw [Layout.map_imprint, Layout.map_imprint, shapes]
  exact ⟨.of_eq imprints, fun _ _ _ _ _ before => imprints ▸ before⟩

/-- Messages of one name whose base fields are rearranged agree. -/
theorem base_agrees {a b : Message} (name : a.name = b.name)
    (h : Layout.Rearranged (Layout.base a.fields) (Layout.base b.fields)) :
    a.baseFields.map Field.imprint = b.baseFields.map Field.imprint ∧
      a.baseLength = b.baseLength ∧ a.fingerprint = b.fingerprint := by
  have order : a.baseFields.map Field.imprint = b.baseFields.map Field.imprint := by
    rw [baseFields, baseFields, wireFields, wireFields, Layout.map_imprint_base_wire,
      Layout.map_imprint_base_wire]
    exact h.byWidth_eq (b.soundFields.names.sublist List.filter_sublist)
  refine ⟨order, h.size_eq, ?_⟩
  have text : Layout.fingerprintText a.name a.fields = Layout.fingerprintText b.name b.fields := by
    rw [Layout.fingerprintText_eq, Layout.fingerprintText_eq, name]
    exact congrArg (Layout.imprintText b.name) order
  rw [fingerprint, fingerprint, Layout.fingerprint, Layout.fingerprint, text]

/-- **What the two ends do not have to agree about.**  Two messages of one name have the same base
fields in the same order on the wire, the same base length and the same fingerprint if the base
fields of one are those of the other with no two of one width moved past each other, whatever
their numbers, their extension fields and what is said about them, and with a byte that tells a
version taken for any other byte.  Messages of one layout agree in all that is sent. -/
theorem agree_of_rearranged :
    (∀ a b : Message, a.name = b.name →
      Layout.Rearranged (Layout.base a.fields) (Layout.base b.fields) →
      a.baseFields.map Field.imprint = b.baseFields.map Field.imprint ∧
        a.baseLength = b.baseLength ∧ a.fingerprint = b.fingerprint) ∧
    ∀ a b : Message, a.SameLayout b →
      a.fingerprint = b.fingerprint ∧ a.baseLength = b.baseLength ∧ a.maxLength = b.maxLength ∧
        a.wireFields.map Field.shape = b.wireFields.map Field.shape := by
  refine ⟨fun _ _ => base_agrees, fun a b same => ?_⟩
  obtain ⟨-, length, fingerprints⟩ := base_agrees same.2.1 same.rearranged
  refine ⟨fingerprints, length, ?_, ?_⟩
  · rw [maxLength, maxLength, Layout.size_eq_shapes, Layout.size_eq_shapes, same.2.2]
  · rw [wireFields, wireFields, Layout.map_shape_wire, Layout.map_shape_wire, same.2.2]

/-- A message of four base fields. -/
def pulse : Message where
  id := 0
  name := "PULSE"
  description := none
  deprecated := false
  fields :=
    [{ name := "type", type := .scalar .uint8 }, { name := "mode", type := .scalar .uint32 },
      { name := "load", type := .array .uint16 3 },
      { name := "version", type := .scalar .versionByte }]
  sound := by decide

/-- The message with another number, its fields moved past each other, and one more field. -/
def pulseRevised : Message where
  id := 70000
  name := "PULSE"
  description := some "Once in a second."
  deprecated := true
  fields :=
    [{ name := "load", type := .array .uint16 3, units := some "%" },
      { name := "type", type := .scalar .uint8, enum := some "KIND" },
      { name := "version", type := .scalar .uint8 }, { name := "mode", type := .scalar .uint32 },
      { name := "uptime", type := .scalar .uint64, isExtension := true }]
  sound := by decide

/-- The two ends agree about a message that has been revised, and about one that is documented. -/
theorem pulse_agrees :
    (pulse.baseFields.map Field.imprint = pulseRevised.baseFields.map Field.imprint ∧
      pulse.baseLength = pulseRevised.baseLength ∧ pulse.fingerprint = pulseRevised.fingerprint) ∧
    pulse.fingerprint = { pulse with deprecated := true }.fingerprint :=
  ⟨agree_of_rearranged.1 pulse pulseRevised rfl (by decide),
    (agree_of_rearranged.2 pulse { pulse with deprecated := true } (by decide)).1⟩

end Message

end Mavlink
