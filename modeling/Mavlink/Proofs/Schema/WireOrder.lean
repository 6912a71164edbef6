import Mathlib
import Mavlink.Proofs.Schema.LayoutOrder

/-!
# Where fields stand

Base fields are sent in the order of their width, wider ones first, and fields of one width in
the order in which they are declared.  The widths are powers of two and come in decreasing
order, so all that is sent before a base field is a multiple of its width.

* `Layout.filter_byWidth` --- fields of one width stay in order;
* `Layout.byWidth_eq_of_perm` --- and no other order by width keeps them so;
* `Layout.dvd_of_wire` --- a base field stands at a multiple of its width;
* `Message.make_arranges` --- when a message can be made, and how it is laid out.
-/

namespace Mavlink

namespace Layout

/-! ## Order by width -/

section Order

variable {α : Type} {l l' : List α} {a b : α}

/-- In a list without repetitions only one of two members stands before the other. -/
theorem not_pair_sublist (distinct : l.Nodup) (h : [a, b].Sublist l) : ¬ [b, a].Sublist l := by
  induction l with
  | nil => cases h
  | cons x l ih =>
    obtain ⟨new, distinct⟩ := List.nodup_cons.1 distinct
    intro h'
    cases h with
    | cons _ h =>
      cases h' with
      | cons _ h' => exact ih distinct h h'
      | cons_cons _ h' => exact new (h.subset (by simp))
    | cons_cons _ h =>
      cases h' with
      | cons _ h' => exact new (h'.subset (by simp))
      | cons_cons _ h' => exact new (h.subset (by simp))

variable (width : α → Nat)

/-- The members of a list, wider ones first. -/
def byWidth (l : List α) : List α := l.mergeSort fun a b => width b ≤ width a

theorem byWidth_perm (l : List α) : (byWidth width l).Perm l := List.mergeSort_perm ..

theorem wider_trans (a b c : α) (h : decide (width b ≤ width a)) (h' : decide (width c ≤ width b)) :
    decide (width c ≤ width a) :=
  decide_eq_true (Nat.le_trans (of_decide_eq_true h') (of_decide_eq_true h))

theorem wider_total (a b : α) : decide (width b ≤ width a) || decide (width a ≤ width b) := by
  simpa using Nat.le_total (width b) (width a)

theorem pairwise_byWidth (l : List α) :
    (byWidth width l).Pairwise fun a b => width b ≤ width a :=
  (List.pairwise_mergeSort (wider_trans width) (wider_total width) l).imp of_decide_eq_true

/-- Members of one width stay in order. -/
theorem filter_byWidth (l : List α) (w : Nat) :
    (byWidth width l).filter (width · = w) = l.filter (width · = w) := by
  have alike : (l.filter (width · = w)).Pairwise fun a b => decide (width b ≤ width a) := by
    refine List.pairwise_of_forall_mem_list fun a ha b hb => ?_
    have ha := (List.mem_filter.1 ha).2
    have hb := (List.mem_filter.1 hb).2
    simp_all
  have inside : (l.filter (width · = w)).Sublist (byWidth width l) :=
    List.sublist_mergeSort (wider_trans width) (wider_total width) alike List.filter_sublist
  have kept := inside.filter (width · = w)
  simp only [List.filter_filter, Bool.and_self] at kept
  exact (kept.eq_of_length ((byWidth_perm width l).filter _).length_eq.symm).symm

theorem pair_sublist_byWidth_iff (same : width a = width b) :
    [a, b].Sublist (byWidth width l) ↔ [a, b].Sublist l := by
  have alike : ∀ m : List α, [a, b].Sublist m ↔ [a, b].Sublist (m.filter (width · = width b)) := by
    intro m
    refine ⟨fun h => ?_, fun h => h.trans List.filter_sublist⟩
    simpa [same] using h.filter (width · = width b)
  rw [alike, filter_byWidth, ← alike]

/-- The order is that of whatever the widths can be taken from. -/
theorem map_byWidth {β : Type} {f : α → β} {v : β → Nat} (same : ∀ a, v (f a) = width a)
    (l : List α) : (byWidth width l).map f = byWidth v (l.map f) := by
  refine List.map_mergeSort fun a _ b _ => ?_
  rw [same, same]

/-- Wider members come before narrower ones, and members of one width as they stand in a list. -/
def Precedes (order : List α) (a b : α) : Prop :=
  width b < width a ∨ (width a = width b ∧ [a, b].Sublist order)

theorem Precedes.not_symm {order : List α} (distinct : order.Nodup)
    (h : Precedes width order a b) : ¬ Precedes width order b a := by
  rintro (wider' | ⟨same', h'⟩) <;> rcases h with wider | ⟨same, h⟩
  · omega
  · omega
  · omega
  · exact not_pair_sublist distinct h h'

theorem pairwise_precedes {order : List α}
    (keeps : ∀ a b, width a = width b → [a, b].Sublist l → [a, b].Sublist order) :
    (byWidth width l).Pairwise (Precedes width order) := by
  refine List.pairwise_iff_forall_sublist.2 fun {a b} h => ?_
  have wider := List.pairwise_iff_forall_sublist.1 (pairwise_byWidth width l) h
  rcases Nat.lt_or_eq_of_le wider with wider | same
  · exact .inl wider
  · exact .inr ⟨same.symm, keeps a b same.symm ((pair_sublist_byWidth_iff width same.symm).1 h)⟩

/-- **No other order by width keeps members of one width in order.** -/
theorem byWidth_eq_of_perm (distinct : l'.Nodup) (perm : l.Perm l')
    (keeps : ∀ a b, width a = width b → [a, b].Sublist l → [a, b].Sublist l') :
    byWidth width l = byWidth width l' := by
  have moved : (byWidth width l).Perm (byWidth width l') :=
    (byWidth_perm width l).trans (perm.trans (byWidth_perm width l').symm)
  refine moved.eq_of_pairwise (fun a b _ _ first second => ?_) (pairwise_precedes width keeps)
    (pairwise_precedes width fun _ _ _ h => h)
  exact absurd second (first.not_symm width distinct)

end Order

/-! ## Places -/

/-- The width of a field is that of one of its elements. -/
def width (f : Field) : Nat := f.type.element.size

theorem wire_eq (fields : List Field) :
    wire fields = byWidth width (base fields) ++ extensions fields := rfl

theorem isExtension_byWidth {fields : List Field} {f : Field}
    (h : f ∈ byWidth width (base fields)) : f.isExtension = false := by
  simpa using (List.mem_filter.1 ((byWidth_perm width _).mem_iff.1 h)).2

theorem base_wire (fields : List Field) : base (wire fields) = byWidth width (base fields) := by
  have kept : (byWidth width (base fields)).filter (!·.isExtension)
      = byWidth width (base fields) :=
    List.filter_eq_self.2 fun f hf => by rw [isExtension_byWidth hf]; rfl
  have dropped : (extensions fields).filter (!·.isExtension) = [] :=
    List.filter_eq_nil_iff.2 fun f hf => by simp [(List.mem_filter.1 hf).2]
  rw [wire_eq, base, List.filter_append, kept, dropped, List.append_nil]

/-- What stands before a base field is at least as wide. -/
theorem pairwise_wire (fields : List Field) :
    (wire fields).Pairwise fun f g => g.isExtension = false → width g ≤ width f := by
  rw [wire_eq]
  refine List.pairwise_append.2 ⟨?_, ?_, ?_⟩
  · refine List.Pairwise.imp ?_ (pairwise_byWidth width (base fields))
    intro _ _ wider _
    exact wider
  · refine List.pairwise_of_forall_mem_list fun _ _ g hg isBase => ?_
    rw [(List.mem_filter.1 hg).2] at isBase
    cases isBase
  · intro _ _ g hg isBase
    rw [(List.mem_filter.1 hg).2] at isBase
    cases isBase

end Layout

theorem Primitive.size_mem (p : Primitive) : p.size ∈ [1, 2, 4, 8] := by
  cases p <;> decide

/-- The widths are powers of two, so each divides the greater ones. -/
theorem Primitive.size_dvd {p q : Primitive} (h : p.size ≤ q.size) : p.size ∣ q.size := by
  have powers : ∀ m ∈ [1, 2, 4, 8], ∀ n ∈ [1, 2, 4, 8], m ≤ n → m ∣ n := by decide
  exact powers _ p.size_mem _ q.size_mem h

theorem Field.width_dvd_size (f : Field) : Layout.width f ∣ f.size := by
  rw [Field.size, Layout.width]
  cases f.type with
  | scalar p => exact dvd_rfl
  | array p n => exact Dvd.intro n rfl

namespace Layout

theorem dvd_size {w : Nat} {fields : List Field} (h : ∀ f ∈ fields, w ∣ f.size) :
    w ∣ size fields := by
  induction fields with
  | nil => exact dvd_zero w
  | cons f fields ih =>
    rw [size_cons]
    exact (h f List.mem_cons_self).add (ih fun g hg => h g (List.mem_cons_of_mem _ hg))

/-- **A base field stands at a multiple of its width.** -/
theorem dvd_of_wire {fields before after : List Field} {f : Field}
    (order : wire fields = before ++ f :: after) (isBase : f.isExtension = false) :
    width f ∣ size before := by
  have wider := order ▸ pairwise_wire fields
  refine dvd_size fun g hg => ?_
  have h : width f ≤ width g :=
    (List.pairwise_append.1 wider).2.2 g hg f List.mem_cons_self isBase
  exact (Primitive.size_dvd h).trans g.width_dvd_size

theorem size_eq_sum (fields : List Field) : size fields = (fields.map Field.size).sum := by
  induction fields with
  | nil => rfl
  | cons f fields ih => rw [size_cons, List.map_cons, List.sum_cons, ih]

/-- How fields are sent that are declared in an order. -/
structure Arranges (fields wire : List Field) : Prop where
  /-- The same fields are sent. -/
  perm : wire.Perm fields
  /-- Base fields come first, and behind them the extension fields as they are declared. -/
  parts : wire = base wire ++ extensions fields
  /-- Wider base fields come before narrower ones. -/
  wider : (base wire).Pairwise fun f g => g.type.element.size ≤ f.type.element.size
  /-- Base fields of one width are sent as they are declared. -/
  stable : ∀ w, (base wire).filter (·.type.element.size = w)
    = (base fields).filter (·.type.element.size = w)
  /-- A base field is sent behind a multiple of its width. -/
  aligned : ∀ before f after, wire = before ++ f :: after → f.isExtension = false →
    f.type.element.size ∣ (before.map Field.size).sum

theorem arranges_wire (fields : List Field) : Arranges fields (wire fields) where
  perm := wire_perm fields
  parts := by rw [base_wire, wire_eq]
  wider := base_wire fields ▸ pairwise_byWidth width _
  stable w := base_wire fields ▸ filter_byWidth width _ w
  aligned before f after order isBase := size_eq_sum before ▸ dvd_of_wire order isBase

end Layout

namespace Message

/-- **Making a message.**  A message is made of fields just if its number has 24 bits, there are
fields, no two of them have one name, no array is without elements, no base field follows an
extension field, and all of them fit into a payload.  Its fields are then sent as they should be,
and its lengths are those of the base fields and of all fields. -/
theorem make_arranges (id : Nat) (name : String) (fields : List Field)
    (description : Option String) (deprecated : Bool) :
    ((∃ m, make id name fields description deprecated = .ok m) ↔
      id < 2 ^ 24 ∧ fields ≠ [] ∧ (fields.map Field.name).Nodup ∧
      (∀ f ∈ fields, f.type.length? ≠ some 0) ∧
      (fields.Pairwise fun f g => f.isExtension → g.isExtension) ∧
      (fields.map Field.size).sum ≤ 255) ∧
    ∀ m, make id name fields description deprecated = .ok m →
      m.id = id ∧ m.name = name ∧ m.fields = fields ∧ Layout.Arranges fields m.wireFields ∧
      m.baseLength = ((fields.filter (!·.isExtension)).map Field.size).sum ∧
      m.maxLength = (fields.map Field.size).sum := by
  constructor
  · have numbers : id ≤ Version.v2.maxMessageId ↔ id < 2 ^ 24 := Nat.lt_succ_iff.symm
    have names : (fields.map Field.name).Nodup ↔ fields.Pairwise fun f g => f.name ≠ g.name :=
      List.pairwise_map
    rw [exists_make_iff, ← numbers, names, ← Layout.size_eq_sum]
    exact ⟨fun h => ⟨h.id, h.present, h.names, h.elements, h.extensions, h.length⟩,
      fun ⟨id, present, names, elements, extensions, length⟩ =>
        ⟨id, present, names, elements, extensions, length⟩⟩
  · intro m made
    obtain ⟨sameId, sameName, rfl⟩ := of_make made
    exact ⟨sameId, sameName, rfl, Layout.arranges_wire m.fields, Layout.size_eq_sum _,
      Layout.size_eq_sum _⟩

/-- Fields of all kinds. -/
def beaconFields : List Field :=
  [{ name := "channel", type := .scalar .uint8 }, { name := "position", type := .array .int16 3 },
    { name := "time", type := .scalar .uint32 }, { name := "power", type := .scalar .int8 },
    { name := "noise", type := .scalar .float, isExtension := true }]

/-- Fields of all kinds can be sent, with two bytes in the order in which they are declared. -/
theorem exists_beacon : ∃ m, make 300 "BEACON" beaconFields = .ok m ∧
    Layout.Arranges beaconFields m.wireFields ∧
    m.wireFields.map Field.name = ["time", "position", "channel", "power", "noise"] ∧
    m.baseLength = 12 ∧ m.maxLength = 16 := by
  have arranges := make_arranges 300 "BEACON" beaconFields none false
  obtain ⟨m, made⟩ := arranges.1.2 (by decide)
  obtain ⟨-, -, fields, arranged, baseLength, maxLength⟩ := arranges.2 m made
  have names : (Layout.wire beaconFields).map Field.name
      = ["time", "position", "channel", "power", "noise"] := by cbv
  refine ⟨m, made, arranged, ?_, baseLength, maxLength⟩
  rw [wireFields, fields, names]

end Message

end Mavlink
