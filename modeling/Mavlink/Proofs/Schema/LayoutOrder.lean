import Mavlink.Schema.Message

/-!
# The order of a layout

The fields of a message are sent in another order than they are declared, but they are the
same fields, and the base fields come first.  A message without a fault has no two fields
of one name, and its fields fit into a payload.

* `Layout.wire_perm` --- the fields that are sent are the fields that are declared;
* `Layout.fault?_eq_none_iff` --- of which fields a message can be made;
* `Message.exists_base` --- the base fields come first;
* `Message.nodup_names`, `Message.maxLength_pos`, `Message.maxLength_le`, `Message.id_le` ---
  what a message that can be sent is sure of.
-/

namespace Mavlink
namespace Layout

@[simp] theorem size_nil : size [] = 0 := rfl

@[simp] theorem size_cons (f : Field) (fields : List Field) :
    size (f :: fields) = f.size + size fields := rfl

theorem size_append (a b : List Field) : size (a ++ b) = size a + size b := by
  induction a with
  | nil => exact (Nat.zero_add _).symm
  | cons f a ih => rw [List.cons_append, size_cons, size_cons, ih, Nat.add_assoc]

/-- The bytes of fields do not depend on their order. -/
theorem size_perm {a b : List Field} (h : a.Perm b) : size a = size b := by
  induction h with
  | nil => rfl
  | cons f _ ih => rw [size_cons, size_cons, ih]
  | swap f g r =>
    simp only [size_cons]
    omega
  | trans _ _ ih₁ ih₂ => rw [ih₁, ih₂]

/-- Fields are sent in another order than they are declared. -/
theorem wire_perm (fields : List Field) : (wire fields).Perm fields := by
  have sorted := List.mergeSort_perm (base fields)
    fun a b => b.type.element.size ≤ a.type.element.size
  have parts : (base fields ++ extensions fields).Perm fields := by
    have h := List.filter_append_perm (fun f : Field => !f.isExtension) fields
    simpa only [base, extensions, Bool.not_not] using h
  exact (sorted.append_right (extensions fields)).trans parts

/-- Fields of which a message of a number can be made. -/
structure Sound (id : Nat) (fields : List Field) : Prop where
  id : id ≤ Version.v2.maxMessageId
  present : fields ≠ []
  names : fields.Pairwise fun f g => f.name ≠ g.name
  elements : ∀ f ∈ fields, f.type.length? ≠ some 0
  /-- No base field follows an extension field. -/
  extensions : fields.Pairwise fun f g => f.isExtension → g.isExtension
  length : size fields ≤ Payload.maxSize

/-- Nothing is wrong with the names and types of fields if no two of them have one name and no
array is without elements. -/
theorem fieldFault?_eq_none_iff {message : String} {seen : List String} {fields : List Field} :
    fieldFault? message seen fields = none ↔ (∀ f ∈ fields, f.name ∉ seen) ∧
      (fields.Pairwise fun f g => f.name ≠ g.name) ∧ ∀ f ∈ fields, f.type.length? ≠ some 0 := by
  induction fields generalizing seen with
  | nil => simp [fieldFault?]
  | cons f fields ih =>
    rw [fieldFault?]
    split
    · next old => simp [old]
    · next new =>
      split
      · next empty => simp [empty]
      · next elements =>
        rw [ih, List.pairwise_cons]
        simp only [List.mem_cons, not_or, forall_eq_or_imp]
        constructor
        · rintro ⟨others, distinct, arrays⟩
          exact ⟨⟨new, fun g hg => (others g hg).2⟩,
            ⟨fun g hg same => (others g hg).1 same.symm, distinct⟩, elements, arrays⟩
        · rintro ⟨⟨-, others⟩, ⟨apart, distinct⟩, -, arrays⟩
          exact ⟨fun g hg => ⟨fun same => apart g hg same.symm, others g hg⟩, distinct, arrays⟩

/-- No base field is misplaced if none follows an extension field. -/
theorem misplaced?_eq_none_iff {fields : List Field} :
    misplaced? fields = none ↔ fields.Pairwise fun f g => f.isExtension → g.isExtension := by
  induction fields with
  | nil => simp [misplaced?]
  | cons f fields ih =>
    rw [List.pairwise_cons]
    cases kind : f.isExtension with
    | false =>
      have later : misplaced? (f :: fields) = misplaced? fields := by simp [misplaced?, kind]
      simp [later, ih]
    | true =>
      have here : misplaced? (f :: fields) = fields.find? (!·.isExtension) := by
        simp [misplaced?, kind]
      rw [here]
      simp only [List.find?_eq_none, Bool.not_eq_true', Bool.not_eq_false, forall_const]
      refine ⟨fun all => ⟨all, ?_⟩, And.left⟩
      exact List.pairwise_of_forall_mem_list fun _ _ g hg _ => all g hg

/-- **What can be sent.**  Nothing keeps a message from being sent just if its fields are sound. -/
theorem fault?_eq_none_iff {id : Nat} {name : String} {fields : List Field} :
    fault? id name fields = none ↔ Sound id fields := by
  rw [fault?]
  by_cases large : Version.v2.maxMessageId < id
  · rw [if_pos large]
    exact iff_of_false nofun fun sound => Nat.not_lt.2 sound.id large
  rw [if_neg large]
  by_cases empty : fields = []
  · rw [if_pos empty]
    exact iff_of_false nofun fun sound => sound.present empty
  rw [if_neg empty]
  cases named : fieldFault? name [] fields with
  | some fault =>
    refine iff_of_false nofun fun sound => ?_
    rw [fieldFault?_eq_none_iff.2 ⟨fun _ _ => List.not_mem_nil, sound.names, sound.elements⟩]
      at named
    cases named
  | none =>
    cases placed : misplaced? fields with
    | some f =>
      refine iff_of_false nofun fun sound => ?_
      rw [misplaced?_eq_none_iff.2 sound.extensions] at placed
      cases placed
    | none =>
      obtain ⟨-, names, elements⟩ := fieldFault?_eq_none_iff.1 named
      by_cases long : Payload.maxSize < size fields
      · simp only [if_pos long]
        exact iff_of_false nofun fun sound => Nat.not_lt.2 sound.length long
      · simp only [if_neg long]
        exact iff_of_true trivial ⟨Nat.le_of_not_lt large, empty, names, elements,
          misplaced?_eq_none_iff.1 placed, Nat.le_of_not_lt long⟩

end Layout

/-- A field has bytes unless it is an array without elements. -/
theorem Field.size_pos {f : Field} (h : f.type.length? ≠ some 0) : 0 < f.size := by
  rw [Field.size]
  cases type : f.type with
  | scalar p => exact p.size_pos
  | array p n =>
    rw [type] at h
    exact Nat.mul_pos p.size_pos (Nat.pos_of_ne_zero fun zero => h (congrArg some zero))

namespace Message

theorem of_make {id : Nat} {name : String} {fields : List Field} {description : Option String}
    {deprecated : Bool} {m : Message} (h : make id name fields description deprecated = .ok m) :
    m.id = id ∧ m.name = name ∧ m.fields = fields := by
  unfold make at h
  split at h
  · cases h
  · cases h
    exact ⟨rfl, rfl, rfl⟩

/-- A message is made just of sound fields. -/
theorem exists_make_iff {id : Nat} {name : String} {fields : List Field}
    {description : Option String} {deprecated : Bool} :
    (∃ m, make id name fields description deprecated = .ok m) ↔ Layout.Sound id fields := by
  rw [← @Layout.fault?_eq_none_iff id name]
  unfold make
  split
  · next fault => simp [fault]
  · next sound => simp [sound]

/-- The fields of a message are sound. -/
theorem soundFields (m : Message) : Layout.Sound m.id m.fields :=
  Layout.fault?_eq_none_iff.1 m.sound

/-- What a message that can be sent is sure of. -/
theorem of_sound (m : Message) : m.id ≤ Version.v2.maxMessageId ∧
    (m.fields.Pairwise fun f g => f.name ≠ g.name) ∧ m.maxLength ≤ Payload.maxSize :=
  ⟨m.soundFields.id, m.soundFields.names, m.soundFields.length⟩

/-- A message that can be sent has bytes. -/
theorem maxLength_pos (m : Message) : 0 < m.maxLength := by
  obtain ⟨f, fields, all⟩ := List.exists_cons_of_ne_nil m.soundFields.present
  have first : 0 < f.size := by
    refine Field.size_pos (m.soundFields.elements f ?_)
    rw [all]
    exact List.mem_cons_self
  rw [maxLength, all, Layout.size_cons]
  exact Nat.add_pos_left first _

theorem id_le (m : Message) : m.id ≤ Version.v2.maxMessageId := m.of_sound.1

theorem maxLength_le (m : Message) : m.maxLength ≤ Payload.maxSize := m.of_sound.2.2

/-- No two fields that are sent have one name. -/
theorem nodup_names (m : Message) : m.wireFields.Pairwise fun f g => f.name ≠ g.name :=
  (Layout.wire_perm m.fields).symm.pairwise m.of_sound.2.1 fun h => h.symm

theorem mem_wireFields (m : Message) {f : Field} : f ∈ m.wireFields ↔ f ∈ m.fields :=
  (Layout.wire_perm m.fields).mem_iff

theorem size_wireFields (m : Message) : Layout.size m.wireFields = m.maxLength :=
  Layout.size_perm (Layout.wire_perm m.fields)

/-- The base fields come first. -/
theorem exists_base (m : Message) : ∃ base, m.wireFields = base ++ m.extensionFields ∧
    Layout.size base = m.baseLength ∧ ∀ f ∈ base, f.isExtension = false := by
  have sorted := List.mergeSort_perm (Layout.base m.fields)
    fun a b => b.type.element.size ≤ a.type.element.size
  refine ⟨_, rfl, Layout.size_perm sorted, ?_⟩
  intro f hf
  have kept := (List.mem_filter.1 (sorted.mem_iff.1 hf)).2
  simpa using kept

theorem baseLength_le (m : Message) : m.baseLength ≤ m.maxLength := by
  obtain ⟨base, order, size, -⟩ := m.exists_base
  rw [← m.size_wireFields, order, Layout.size_append, size]
  exact Nat.le_add_right ..

theorem isExtension_of_mem_extensionFields {m : Message} {f : Field}
    (h : f ∈ m.extensionFields) : f.isExtension = true :=
  (List.mem_filter.1 h).2

end Message
end Mavlink
