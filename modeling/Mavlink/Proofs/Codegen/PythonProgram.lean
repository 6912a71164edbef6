import Mathlib
import Mavlink.Proofs.Codegen.StructFormat
import Mavlink.Proofs.Table.Acceptance
import Mavlink.Proofs.Table.ExtensionReading

/-!
# What a Python class packs and unpacks

The class of a message packs the values of all its fields at once.  A format, a list of arguments
and a list of slots are written for it, each by going through the fields once more.  They fit
together: for each field the format has as many values as there are among the arguments for it
and as its slot takes, and these stand at the bytes that a table gives to the field.

* `Field.items`, `Field.places` --- the values of a field, and where a table has them;
* `Field.placesFrom_items`, `Layout.placesFrom_items` --- a format has them there;
* `PythonModule.indices_slotsFrom`, `PythonModule.exists_value?_slotOf` --- slots take the values
  one after another, and give what a table tells of the fields;
* `PythonModule.toOption_foldlM_putField` --- arguments are packed as a table writes the fields.
-/

namespace Mavlink

namespace Field

open Codegen

/-- The values of which a field is made. -/
def items (f : Field) : List StructItem :=
  match f.type with
  | .scalar p => [.number p.number]
  | .array .char n => [.bytes n]
  | .array p n => List.replicate n (.number p.number)

/-- The values of a field with the bytes before each, as they are read by a table from an
offset on. -/
def places (f : Field) (offset : Nat) : List (Nat × StructItem) :=
  match f.type with
  | .scalar p => [(offset, .number p.number)]
  | .array .char n => [(offset, .bytes n)]
  | .array p n => (List.range n).map fun i => (offset + i * p.size, .number p.number)

variable (f : Field)

theorem items_array {p : Primitive} {n : Nat} (h : f.type = .array p n) (kind : p ≠ .char) :
    f.items = List.replicate n (.number p.number) := by
  unfold items
  rw [h]
  cases p <;> first | rfl | exact absurd rfl kind

theorem places_array {p : Primitive} {n : Nat} (h : f.type = .array p n) (kind : p ≠ .char)
    (offset : Nat) : f.places offset
      = (List.range n).map fun i => (offset + i * p.size, StructItem.number p.number) := by
  unfold places
  rw [h]
  cases p <;> first | rfl | exact absurd rfl kind

/-- A format is made of the values of the fields. -/
theorem items_formatItemOf : (PythonModule.formatItemOf f.type).items = f.items := by
  rcases f.type_cases with ⟨p, type⟩ | ⟨n, type⟩ | ⟨p, n, type, kind⟩
  · simp only [PythonModule.formatItemOf, items, type, FormatItem.items]
  · simp only [PythonModule.formatItemOf, items, type, FormatItem.items]
  · rw [f.items_array type kind, type]
    cases p <;> first | rfl | exact absurd rfl kind

/-- **A format has the values of a field where a table has them.** -/
theorem placesFrom_items (offset : Nat) :
    StructItem.placesFrom offset f.items = f.places offset := by
  rcases f.type_cases with ⟨p, type⟩ | ⟨n, type⟩ | ⟨p, n, type, kind⟩
  · simp only [items, places, type, StructItem.placesFrom]
  · simp only [items, places, type, StructItem.placesFrom]
  · rw [f.items_array type kind, f.places_array type kind, StructItem.placesFrom_replicate]
    rfl

theorem length_places (offset : Nat) : (f.places offset).length = f.items.length := by
  rw [← placesFrom_items, StructItem.length_placesFrom]

theorem totalSize_items : StructItem.totalSize f.items = f.size := by
  rcases f.type_cases with ⟨p, type⟩ | ⟨n, type⟩ | ⟨p, n, type, kind⟩
  · simp [items, size, type, StructItem.totalSize, StructItem.size, FieldType.size,
      Primitive.size]
  · simp [items, size, type, StructItem.totalSize, StructItem.size, FieldType.size,
      Primitive.size, Primitive.number, NumberType.size]
  · simp [f.items_array type kind, size, type, StructItem.totalSize, StructItem.size,
      FieldType.size, Primitive.size, Nat.mul_comm]

end Field

namespace Layout

open Codegen

/-- The values of which fields are made, one field after another. -/
def items (fields : List Field) : List StructItem := fields.flatMap (·.items)

theorem items_append (a b : List Field) : items (a ++ b) = items a ++ items b :=
  List.flatMap_append

theorem items_cons (f : Field) (fields : List Field) :
    items (f :: fields) = f.items ++ items fields :=
  List.flatMap_cons

/-- Values take as many bytes as their fields. -/
theorem totalSize_items (fields : List Field) :
    StructItem.totalSize (items fields) = size fields := by
  induction fields with
  | nil => rfl
  | cons f fields ih =>
    rw [items_cons, StructItem.totalSize_append, f.totalSize_items, ih]
    rfl

/-- The values of a field stand behind those of the fields before it. -/
theorem placesFrom_items (before after : List Field) (f : Field) :
    StructItem.placesFrom 0 (items (before ++ f :: after))
      = StructItem.placesFrom 0 (items before) ++ (f.places (size before)
        ++ StructItem.placesFrom (size before + f.size) (items after)) := by
  rw [items_append, items_cons, StructItem.placesFrom_append, StructItem.placesFrom_append,
    totalSize_items, f.totalSize_items, Nat.zero_add, f.placesFrom_items]

end Layout

namespace Codegen

/-! ## Slots -/

/-- The values that a slot takes, by their places among the unpacked values. -/
def UnpackSlot.indices : UnpackSlot → List Nat
  | .number i | .text i => [i]
  | .range first stop => List.range' first (stop - first)

/-- The number that a value is. -/
def StructValue.number? : StructValue → Option RustNumber
  | .number n => some n
  | .bytes _ => none

/-- The value in a slot.  A text ends before the first zero byte. -/
def UnpackSlot.value? (values : List StructValue) : UnpackSlot → Option RustValue
  | .number i => (values[i]?.bind StructValue.number?).map .number
  | .text i =>
    match values[i]? with
    | some (.bytes b) => some (.text (Text.decodeLossy (b.takeWhile (· ≠ 0))))
    | _ => none
  | .range first stop =>
    (((values.drop first).take (stop - first)).mapM StructValue.number?).map .array

namespace PythonModule

/-- The slot of a field whose first value has an index. -/
def slotOf (index : Nat) (f : Field) : UnpackSlot :=
  match f.type with
  | .scalar _ => .number index
  | .array .char _ => .text index
  | .array _ n => .range index (index + n)

theorem slotOf_array {f : Field} {p : Primitive} {n : Nat} (h : f.type = .array p n)
    (kind : p ≠ .char) (index : Nat) : slotOf index f = .range index (index + n) := by
  unfold slotOf
  rw [h]
  cases p <;> first | rfl | exact absurd rfl kind

/-- The slots of fields go on behind the values of the first. -/
theorem slotsFrom_cons (index : Nat) (f : Field) (fields : List Field) :
    slotsFrom index (f :: fields)
      = (identOf f.name, slotOf index f) :: slotsFrom (index + f.items.length) fields := by
  rw [slotsFrom]
  rcases f.type_cases with ⟨p, type⟩ | ⟨n, type⟩ | ⟨p, n, type, kind⟩
  · simp only [type, slotOf, Field.items, List.length_singleton]
  · simp only [type, slotOf, Field.items, List.length_singleton]
  · rw [slotOf_array type kind, f.items_array type kind, List.length_replicate, type]
    cases p <;> first | rfl | exact absurd rfl kind

theorem length_slotsFrom (index : Nat) (fields : List Field) :
    (slotsFrom index fields).length = fields.length := by
  induction fields generalizing index with
  | nil => rfl
  | cons f fields ih => rw [slotsFrom_cons, List.length_cons, ih, List.length_cons]

/-- A slot is the slot of a field. -/
theorem exists_of_mem_slotsFrom {index : Nat} {fields : List Field} {p : String × UnpackSlot}
    (h : p ∈ slotsFrom index fields) : ∃ f ∈ fields, identOf f.name = p.1 := by
  induction fields generalizing index with
  | nil => exact absurd h List.not_mem_nil
  | cons f fields ih =>
    rw [slotsFrom_cons] at h
    rcases List.mem_cons.1 h with rfl | later
    · exact ⟨f, List.mem_cons_self, rfl⟩
    · obtain ⟨g, hg, same⟩ := ih later
      exact ⟨g, List.mem_cons_of_mem f hg, same⟩

theorem slotsFrom_append (index : Nat) (a b : List Field) : slotsFrom index (a ++ b)
    = slotsFrom index a ++ slotsFrom (index + (Layout.items a).length) b := by
  induction a generalizing index with
  | nil => rfl
  | cons f a ih =>
    rw [List.cons_append, slotsFrom_cons, ih, slotsFrom_cons, List.cons_append,
      Layout.items_cons, List.length_append, Nat.add_assoc]

/-- A slot takes the values of its field. -/
theorem indices_slotOf (index : Nat) (f : Field) :
    (slotOf index f).indices = List.range' index f.items.length := by
  rcases f.type_cases with ⟨p, type⟩ | ⟨n, type⟩ | ⟨p, n, type, kind⟩
  · simp [type, slotOf, Field.items, UnpackSlot.indices]
  · simp [type, slotOf, Field.items, UnpackSlot.indices]
  · rw [slotOf_array type kind, f.items_array type kind, List.length_replicate,
      UnpackSlot.indices, Nat.add_sub_cancel_left]

/-- **Slots take every value once, in order.** -/
theorem indices_slotsFrom (index : Nat) (fields : List Field) :
    (slotsFrom index fields).flatMap (·.2.indices)
      = List.range' index (Layout.items fields).length := by
  induction fields generalizing index with
  | nil => rfl
  | cons f fields ih =>
    rw [slotsFrom_cons, List.flatMap_cons, ih, indices_slotOf, Layout.items_cons,
      List.length_append, List.range'_append_1]

/-- What a slot finds where the values of its field are. -/
theorem map_getElem?_indices {α : Type} (before own after : List α) (f : Field)
    (length : own.length = f.items.length) :
    (slotOf before.length f).indices.map (fun i => (before ++ (own ++ after))[i]?)
      = own.map some := by
  have found (i : Nat) (hi : i < own.length) :
      (before ++ (own ++ after))[before.length + i]? = some own[i] := by
    rw [List.getElem?_append_right (Nat.le_add_right ..), Nat.add_sub_cancel_left,
      List.getElem?_append_left hi, List.getElem?_eq_getElem hi]
  rw [indices_slotOf, ← length, List.range'_eq_map_range, List.map_map]
  refine List.ext_getElem (by simp) fun i hi _ => ?_
  rw [List.length_map, List.length_range] at hi
  simpa using found i hi

/-- A slot gives what is read at the place of its field with the calls of a payload reader. -/
theorem value?_slotOf_eq (before after : List StructValue) (f : Field) (r : PayloadReader)
    (offset : Nat) : (slotOf before.length f).value?
        (before ++ ((f.places offset).map (StructItem.valueAt r) ++ after))
      = ((RustRead.ofField f).2.run (r.skip offset) (.ofField f.type)).map (·.1) := by
  have first (v : StructValue) : (before ++ ([v] ++ after))[before.length]? = some v := by
    rw [List.getElem?_append_right (Nat.le_refl _), Nat.sub_self]
    rfl
  rcases f.type_cases with ⟨p, type⟩ | ⟨n, type⟩ | ⟨p, n, type, kind⟩
  · have places : f.places offset = [(offset, .number p.number)] := by
      simp only [Field.places, type]
    have slot : slotOf before.length f = .number before.length := by simp only [slotOf, type]
    have call : (RustRead.ofField f).2 = .number p.number := by
      simp only [RustRead.ofField, RustModule.getOf, type, RustGet.spelled]
    rw [places, slot, call, type, RustType.ofField, List.map_singleton, UnpackSlot.value?, first,
      RustRead.run, if_pos rfl]
    rfl
  · have places : f.places offset = [(offset, .bytes n)] := by simp only [Field.places, type]
    have slot : slotOf before.length f = .text before.length := by simp only [slotOf, type]
    have call : (RustRead.ofField f).2 = .text n := by
      simp only [RustRead.ofField, RustModule.getOf, type, RustGet.spelled]
    rw [places, slot, call, type, RustType.ofField, List.map_singleton, UnpackSlot.value?, first]
    rfl
  · have own : (f.places offset).map (StructItem.valueAt r)
        = (RustNumber.getAll p.number n (r.skip offset)).1.map .number := by
      rw [f.places_array type kind, RustNumber.getAll_eq, List.map_map, List.map_map]
      refine List.map_congr_left fun i _ => ?_
      rw [Function.comp_apply, Function.comp_apply, PayloadReader.skip_skip]
      rfl
    have length : ((RustNumber.getAll p.number n (r.skip offset)).1.map
        StructValue.number).length = n := by
      rw [RustNumber.getAll_eq, List.length_map, List.length_map, List.length_range]
    have numbers (ns : List RustNumber) :
        (ns.map StructValue.number).mapM StructValue.number? = some ns := by
      induction ns with
      | nil => rfl
      | cons n ns ih => simp [List.mapM_cons, ih, StructValue.number?]
    rw [own, slotOf_array type kind, RustRead.ofField_array type kind, type,
      RustType.ofField_array kind, UnpackSlot.value?, List.drop_left, Nat.add_sub_cancel_left,
      List.take_left' length, numbers, RustRead.run, if_pos rfl]
    rfl

/-- **A slot gives what a table tells** of the field. -/
theorem exists_value?_slotOf (before after : List StructValue) (f : Field) (r : PayloadReader)
    (offset : Nat) : ∃ v, (slotOf before.length f).value?
        (before ++ ((f.places offset).map (StructItem.valueAt r) ++ after)) = some v ∧
      v.HasType (.ofField f.type) ∧
      RustValue.Told f.type v (Table.readValue (r.skip offset) f.type) := by
  obtain ⟨v, run, typed, told⟩ := RustRead.run_ofField f (r.skip offset)
  refine ⟨v, ?_, typed, told⟩
  rw [value?_slotOf_eq, run]
  rfl

end PythonModule

/-! ## Arguments -/

/-- The values that are packed for an argument, unless it is refused. -/
def PackArgument.values? (self : RustObject) : PackArgument → Option (List StructValue)
  | .number ident =>
    match self.lookup ident with
    | some (.number n) => some [.number n]
    | _ => none
  | .text ident _ length =>
    match self.lookup ident with
    | some (.text s) =>
      if length < (Text.utf8 s).length then none else some [.bytes (Text.utf8 s)]
    | _ => none
  | .each ident _ length =>
    match self.lookup ident with
    | some (.array ns) => if ns.length ≠ length then none else some (ns.map .number)
    | _ => none

/-- The bytes that are packed for arguments by a format. -/
def PackArgument.pack? (items : List StructItem) (self : RustObject)
    (arguments : List PackArgument) : Option Bytes := do
  let values ← arguments.mapM (·.values? self)
  StructItem.pack? items values.flatten

namespace PythonModule

theorem argumentOf_array {f : Field} {p : Primitive} {n : Nat} (h : f.type = .array p n)
    (kind : p ≠ .char) : argumentOf f = .each (identOf f.name) f.name n := by
  unfold argumentOf
  rw [h]
  cases p <;> first | rfl | exact absurd rfl kind

/-- An argument has as many values as its field. -/
theorem length_of_values? {self : RustObject} {f : Field} {vs : List StructValue}
    (h : (argumentOf f).values? self = some vs) : vs.length = f.items.length := by
  rcases f.type_cases with ⟨p, type⟩ | ⟨n, type⟩ | ⟨p, n, type, kind⟩
  · simp only [argumentOf, type, PackArgument.values?] at h
    split at h
    · cases h
      simp [Field.items, type]
    · cases h
  · simp only [argumentOf, type, PackArgument.values?] at h
    split at h
    · split at h
      · cases h
      · cases h
        simp [Field.items, type]
    · cases h
  · rw [argumentOf_array type kind, PackArgument.values?] at h
    rw [f.items_array type kind, List.length_replicate]
    split at h
    · split at h
      · cases h
      · next same =>
        cases h
        rw [List.length_map]
        exact not_not.1 same
    · cases h

/-- Numbers of a type are packed one after another. -/
theorem pack?_numbers {t : NumberType} {ns : List RustNumber} (types : ∀ n ∈ ns, n.type = t)
    (w : PayloadWriter) :
    ns.foldlM (RustNumber.put t) w
      = (StructItem.pack? (List.replicate ns.length (.number t)) (ns.map .number)).map
          w.putBytes := by
  induction ns generalizing w with
  | nil => simp [StructItem.pack?, PayloadWriter.putBytes]
  | cons n ns ih =>
    obtain ⟨first, others⟩ := List.forall_mem_cons.1 types
    rw [List.foldlM_cons, RustNumber.put, if_pos first, List.length_cons, List.replicate_succ,
      List.map_cons, StructItem.pack?, StructItem.packOne?, if_pos first]
    refine (ih others _).trans ?_
    cases StructItem.pack? (List.replicate ns.length (.number t)) (ns.map .number) with
    | none => rfl
    | some bytes => simp [PayloadWriter.putBytes, PayloadWriter.putWord]

/-- **An argument is packed as a table writes it.** -/
theorem toOption_putValue (message : String) {self : RustObject} {f : Field} {v : RustValue}
    (held : self.lookup (identOf f.name) = some v) (typed : v.HasType (.ofField f.type))
    (numbers : ∀ n ∈ v.numbers, n.isNaN32 = false) (w : PayloadWriter) :
    (Table.putValue message f w v.toValue).toOption
      = ((argumentOf f).values? self >>= StructItem.pack? f.items).map w.putBytes := by
  -- What a table writes of the value is known from the statement that a structure has for it.
  have alone : [(RustModule.identOf f.name, v)].lookup (RustModule.identOf f.name) = some v := by
    simp
  have called := RustPut.run_putOf message alone typed numbers w
  rcases f.type_cases with ⟨p, type_eq⟩ | ⟨n, type_eq⟩ | ⟨p, n, type_eq, kind⟩
  · rw [type_eq, RustType.ofField] at typed
    cases typed with
    | @number n _ type =>
      have values : (argumentOf f).values? self = some [.number n] := by
        simp only [argumentOf, type_eq, PackArgument.values?, held]
      have items : f.items = [.number p.number] := by simp only [Field.items, type_eq]
      have packed : StructItem.pack? [.number p.number] [.number n]
          = some (Bytes.little p.number.size n.word) := by
        simp [StructItem.pack?, StructItem.packOne?, type]
      simp only [RustModule.putOf, type_eq, RustPut.run, alone, RustNumber.put, if_pos type,
        Option.map_some, Option.some.injEq] at called
      rw [← called, values, items, Option.bind_eq_bind, Option.bind_some, packed]
      rfl
  · rw [type_eq, RustType.ofField] at typed
    cases typed with
    | @text s =>
      have items : f.items = [.bytes n] := by simp only [Field.items, type_eq]
      simp only [RustModule.putOf, type_eq, RustPut.run, alone, Option.some.injEq] at called
      rw [← called, items]
      simp only [argumentOf, type_eq, PackArgument.values?, held, PayloadWriter.putText]
      split
      · rfl
      · next short =>
        have whole : (Text.utf8 s).take n = Text.utf8 s :=
          List.take_of_length_le (Nat.le_of_not_lt short)
        have packed : StructItem.pack? [.bytes n] [.bytes (Text.utf8 s)]
            = some ((Text.utf8 s).extend n) := by
          simp [StructItem.pack?, StructItem.packOne?, whole]
        rw [Option.bind_eq_bind, Option.bind_some, packed]
        rfl
  · rw [type_eq, RustType.ofField_array kind] at typed
    cases typed with
    | @array ns _ _ length types =>
      have values : (argumentOf f).values? self = some (ns.map .number) := by
        simp only [argumentOf_array type_eq kind, PackArgument.values?, held, length, ne_eq,
          not_true_eq_false, if_false]
      rw [putOf_array type_eq kind] at called
      simp only [RustPut.run, alone, pack?_numbers types] at called
      rw [values, f.items_array type_eq kind, ← length, Option.bind_eq_bind, Option.bind_some]
      cases packed : StructItem.pack? (List.replicate ns.length (.number p.number))
          (ns.map .number) with
      | none =>
        rw [packed] at called
        cases called
      | some bytes =>
        rw [packed] at called
        rw [← Option.some.inj called]
        rfl

/-- The arguments of fields are packed one after another. -/
theorem pack?_cons (self : RustObject) (f : Field) (items : List StructItem)
    (arguments : List PackArgument) :
    PackArgument.pack? (f.items ++ items) self (argumentOf f :: arguments) = do
      let first ← (argumentOf f).values? self >>= StructItem.pack? f.items
      let others ← PackArgument.pack? items self arguments
      return first ++ others := by
  unfold PackArgument.pack?
  rw [List.mapM_cons]
  cases own : (argumentOf f).values? self with
  | none => rfl
  | some vs =>
    have packed (wss : List (List StructValue)) :=
      StructItem.pack?_append (length_of_values? own) items wss.flatten
    cases arguments.mapM (·.values? self) with
    | none => cases first : StructItem.pack? f.items vs <;> simp [first]
    | some wss =>
      simp only [Option.bind_eq_bind, Option.bind_some, Option.pure_def, List.flatten_cons,
        packed]

/-- **Arguments are packed as a table writes the fields.** -/
theorem toOption_foldlM_putField (message : String) {self : RustObject} {v : MessageValue}
    {values : Field → RustValue} {fields : List Field}
    (held : ∀ f ∈ fields, self.lookup (identOf f.name) = some (values f))
    (given : ∀ f ∈ fields, v.get? f.name = some (values f).toValue)
    (typed : ∀ f ∈ fields, (values f).HasType (.ofField f.type))
    (numbers : ∀ f ∈ fields, ∀ n ∈ (values f).numbers, n.isNaN32 = false) (w : PayloadWriter) :
    (fields.foldlM (Table.putField message v) w).toOption
      = (PackArgument.pack? (Layout.items fields) self (fields.map argumentOf)).map
          w.putBytes := by
  induction fields generalizing w with
  | nil => exact congrArg some (by simp [PayloadWriter.putBytes])
  | cons f fields ih =>
    simp only [List.forall_mem_cons] at held given typed numbers
    have program := toOption_putValue message held.1 typed.1 numbers.1 w
    have table : Table.putField message v w f
        = Table.putValue message f w (values f).toValue := by
      rw [Table.putField, given.1]
    rw [List.foldlM_cons, table, Layout.items_cons, List.map_cons, pack?_cons]
    cases own : (argumentOf f).values? self >>= StructItem.pack? f.items with
    | none =>
      rw [own] at program
      cases written : Table.putValue message f w (values f).toValue with
      | error e => rfl
      | ok w' =>
        rw [written] at program
        cases program
    | some first =>
      rw [own] at program
      cases written : Table.putValue message f w (values f).toValue with
      | error e =>
        rw [written] at program
        cases program
      | ok w' =>
        rw [written] at program
        obtain rfl : w' = w.putBytes first := Option.some.inj program
        refine (ih held.2 given.2 typed.2 numbers.2 _).trans ?_
        cases PackArgument.pack? (Layout.items fields) self (fields.map argumentOf) with
        | none => rfl
        | some others => simp [PayloadWriter.putBytes]

end PythonModule

end Codegen
end Mavlink
