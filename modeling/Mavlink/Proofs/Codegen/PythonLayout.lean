import Mathlib
import Mavlink.Proofs.Codegen.PythonClassText
import Mavlink.Proofs.Codegen.PythonNames
import Mavlink.Proofs.Codegen.PythonProgram
import Mavlink.Proofs.Codegen.RustAgreement

/-!
# The layout of rendered Python classes

The class of a message says three times how a payload is laid out: by the format with which it
packs and unpacks, by the arguments that it packs, and by the slots that it takes of what is
unpacked.  All three agree with the layout of the message, and so with the table of the dialect.

* `PythonCodec.HasLayout` --- the format, the arguments and the slots that are read of a class fit
  the fields;
* `PythonCodec.Agrees` --- the values that are packed and unpacked are those of a table;
* `PythonModule.rendered_class_agrees` --- every class of a rendered module is like that.
-/

namespace Mavlink.Codegen

open PythonModule Naming

/-- How many values an argument is. -/
def PackArgument.count : PackArgument → Nat
  | number _ | text _ _ _ => 1
  | each _ _ n => n

namespace PythonCodec

/-- What is packed and unpacked fits the layout of the message. -/
structure HasLayout (c : PythonCodec) (m : Message) (items : List StructItem) : Prop where
  /-- All values together have the bytes that the class says. -/
  size : StructItem.totalSize items = c.maxLength
  /-- There is an argument for each field. -/
  arguments : c.arguments.length = m.wireFields.length
  /-- There is a slot for each field. -/
  slots : c.slots.length = m.wireFields.length
  /-- Fields are known by their identifiers. -/
  idents : (m.fields.map (identOf ·.name)).Nodup
  /-- The argument and the slot of a field stand where the field does.  The slot takes as many
  values as the argument is, and these are at the bytes that the layout gives to the field. -/
  fields : ∀ (before : List Field) (f : Field) (after : List Field),
    m.wireFields = before ++ f :: after →
    ∃ (argument : PackArgument) (slot : UnpackSlot), c.arguments[before.length]? = some argument ∧
      argument.ident = identOf f.name ∧
      c.slots[before.length]? = some (identOf f.name, slot) ∧
      argument.count = slot.indices.length ∧
      slot.indices.map (fun i => (StructItem.placesFrom 0 items)[i]?)
        = (f.places (Layout.size before)).map some
  /-- The slots take every value once, in order. -/
  covered : c.slots.flatMap (·.2.indices) = List.range items.length

/-- What is packed and unpacked agrees with what a table writes and reads. -/
structure Agrees (c : PythonCodec) (m : Message) (items : List StructItem) (t : Table) : Prop where
  id : c.id = m.id
  name : c.name = m.name
  fingerprint : c.fingerprint = m.fingerprint.toNat
  baseLength : c.baseLength = m.baseLength
  maxLength : c.maxLength = m.maxLength
  /-- Of all bytes of a message the slots give what a table tells. -/
  decode : ∀ (bytes : Bytes) (version : Version), bytes.length = c.maxLength →
    ∃ values told, StructItem.unpack? items bytes = some values ∧
      t.decode ⟨m.id, version, bytes⟩ = .ok told ∧
      ∀ f ∈ m.fields, ∃ slot v value, (identOf f.name, slot) ∈ c.slots ∧
        slot.value? values = some v ∧ v.HasType (.ofField f.type) ∧
        told.get? f.name = some value ∧ RustValue.Told f.type v value
  /-- What the arguments are packed to is what a table makes payloads of.  Only numbers of 32
  bits that are none are left out. -/
  encode : ∀ (values : Field → RustValue) (version : Version) (p : Payload),
    (∀ f ∈ m.fields, (values f).HasType (.ofField f.type)) →
    (∀ f ∈ m.fields, ∀ n ∈ (values f).numbers, n.isNaN32 = false) →
    (t.encode (m.given values) version = .ok p ↔
      m.id ≤ version.maxMessageId ∧ ∃ bytes,
        PackArgument.pack? items (m.fields.map fun f => (identOf f.name, values f))
          c.arguments = some bytes ∧ p = m.payload bytes version)

end PythonCodec

namespace PythonModule

/-! ## The layout of a class -/

/-- The format of a class says what its fields are made of. -/
theorem readFormat?_classOf (m : Message) :
    StructItem.readFormat? (classOf m).formatLiteral = some (Layout.items m.wireFields) := by
  have items : (classOf m).format.flatMap (·.items) = Layout.items m.wireFields := by
    rw [classOf, List.flatMap_map]
    simp only [Field.items_formatItemOf, Layout.items]
  rw [PythonClass.formatLiteral, StructItem.readFormat?_join, items]

/-- An argument is as many values as its field is made of. -/
theorem count_argumentOf (f : Field) : (argumentOf f).count = f.items.length := by
  rcases f.type_cases with ⟨p, type⟩ | ⟨n, type⟩ | ⟨p, n, type, kind⟩
  · simp [argumentOf, type, Field.items, PackArgument.count]
  · simp [argumentOf, type, Field.items, PackArgument.count]
  · simp [argumentOf_array type kind, f.items_array type kind, PackArgument.count]

/-- The slot of a field stands behind the slots of the fields before it. -/
theorem slots_classOf {m : Message} {before after : List Field} {f : Field}
    (split : m.wireFields = before ++ f :: after) : (classOf m).codec.slots = slotsFrom 0 before
      ++ (identOf f.name, slotOf (Layout.items before).length f)
        :: slotsFrom ((Layout.items before).length + f.items.length) after := by
  show slotsFrom 0 m.wireFields = _
  rw [split, slotsFrom_append, slotsFrom_cons, Nat.zero_add]

/-- **Format, arguments and slots fit the fields.** -/
theorem hasLayout_classOf {m : Message} (idents : (m.fields.map (identOf ·.name)).Nodup) :
    (classOf m).codec.HasLayout m (Layout.items m.wireFields) where
  size := (Layout.totalSize_items m.wireFields).trans m.size_wireFields
  arguments := List.length_map _
  slots := length_slotsFrom 0 m.wireFields
  idents := idents
  fields := fun before f after (split : m.wireFields = before ++ f :: after) => by
    have arguments : (classOf m).codec.arguments
        = before.map argumentOf ++ argumentOf f :: after.map argumentOf := by
      show m.wireFields.map argumentOf = _
      rw [split, List.map_append, List.map_cons]
    have places : (StructItem.placesFrom 0 (Layout.items before)).length
        = (Layout.items before).length := StructItem.length_placesFrom _ _
    refine ⟨argumentOf f, slotOf (Layout.items before).length f, ?_, ident_argumentOf f, ?_, ?_, ?_⟩
    · rw [arguments]
      simp
    · rw [slots_classOf split, ← length_slotsFrom 0 before]
      simp
    · rw [count_argumentOf, indices_slotOf, List.length_range']
    · rw [split, Layout.placesFrom_items, ← places]
      exact map_getElem?_indices _ _ _ f (f.length_places _)
  covered := by
    rw [List.range_eq_range']
    exact indices_slotsFrom 0 m.wireFields

/-- **The slots give what a table tells.** -/
theorem exists_told {m : Message} {f : Field} (hf : f ∈ m.fields) (bytes : Bytes) :
    ∃ slot v value, (identOf f.name, slot) ∈ (classOf m).codec.slots ∧
      slot.value? ((StructItem.placesFrom 0 (Layout.items m.wireFields)).map
        (StructItem.valueAt ⟨bytes⟩)) = some v ∧
      v.HasType (.ofField f.type) ∧ (Table.read m bytes).get? f.name = some value ∧
      RustValue.Told f.type v value := by
  obtain ⟨before, after, split⟩ := List.append_of_mem (m.mem_wireFields.2 hf)
  have places : ((StructItem.placesFrom 0 (Layout.items before)).map
      (StructItem.valueAt ⟨bytes⟩)).length = (Layout.items before).length := by
    rw [List.length_map, StructItem.length_placesFrom]
  have listed : (identOf f.name, slotOf (Layout.items before).length f)
      ∈ (classOf m).codec.slots := by
    rw [slots_classOf split]
    exact List.mem_append_right _ List.mem_cons_self
  have inside := Table.mem_readFields_append ⟨bytes⟩ before after f
  rw [← split] at inside
  obtain ⟨v, given, typed, told⟩ := exists_value?_slotOf
    ((StructItem.placesFrom 0 (Layout.items before)).map (StructItem.valueAt ⟨bytes⟩))
    ((StructItem.placesFrom (Layout.size before + f.size) (Layout.items after)).map
      (StructItem.valueAt ⟨bytes⟩)) f ⟨bytes⟩ (Layout.size before)
  refine ⟨_, v, _, listed, ?_, typed, Table.get?_read inside, told⟩
  rw [split, Layout.placesFrom_items, List.map_append, List.map_append, ← places]
  exact given

/-- **The arguments are packed to what a table writes.** -/
theorem pack?_eq_some_iff {m : Message} (idents : (m.fields.map (identOf ·.name)).Nodup)
    {values : Field → RustValue} (typed : ∀ f ∈ m.fields, (values f).HasType (.ofField f.type))
    (numbers : ∀ f ∈ m.fields, ∀ n ∈ (values f).numbers, n.isNaN32 = false) {bytes : Bytes} :
    PackArgument.pack? (Layout.items m.wireFields)
        (m.fields.map fun f => (identOf f.name, values f)) (classOf m).arguments = some bytes ↔
      Table.Writes m (m.given values) bytes := by
  have inside : ∀ f ∈ m.wireFields, f ∈ m.fields := fun _ => m.mem_wireFields.1
  have held : ∀ f ∈ m.fields, (m.fields.map fun f => (identOf f.name, values f)).lookup
      (identOf f.name) = some (values f) := fun _ => lookup_map_of_mem idents values
  have written := toOption_foldlM_putField m.name
    (fun f hf => held f (inside f hf)) (fun f hf => m.get?_given values (inside f hf))
    (fun f hf => typed f (inside f hf)) (fun f hf => numbers f (inside f hf))
    (.start m.id m.baseLength)
  have accepted : Table.Writes m (m.given values) bytes ↔
      (m.wireFields.foldlM (Table.putField m.name (m.given values))
        (.start m.id m.baseLength)).toOption = some ⟨m.id, m.baseLength, bytes⟩ := by
    unfold Table.Writes
    cases m.wireFields.foldlM (Table.putField m.name (m.given values))
      (.start m.id m.baseLength) <;> simp [Except.toOption]
  rw [accepted, written, Option.map_eq_some_iff]
  simp [PayloadWriter.putBytes, PayloadWriter.start, classOf]

/-- **What is packed and unpacked agrees with a table.** -/
theorem agrees_classOf {m : Message} (idents : (m.fields.map (identOf ·.name)).Nodup) {t : Table}
    (known : t.messages.find? m.id = some m) :
    (classOf m).codec.Agrees m (Layout.items m.wireFields) t where
  id := rfl
  name := rfl
  fingerprint := rfl
  baseLength := rfl
  maxLength := rfl
  decode := fun bytes version (length : bytes.length = m.maxLength) => by
    have size : StructItem.totalSize (Layout.items m.wireFields) = m.maxLength :=
      (hasLayout_classOf idents).size
    refine ⟨_, _, if_pos (length.trans size.symm),
      Table.decode_eq known (Nat.le_of_eq length), fun f hf => exists_told hf bytes⟩
  encode := fun values version p typed numbers => by
    have named : ∀ name ∈ (m.given values).fields.keys, (m.field? name).isSome = true :=
      fun _ => field?_given
    show t.encode (m.given values) version = .ok p ↔ _
    rw [Table.encode_eq_ok_iff known, and_iff_right named]
    refine and_congr_right fun _ => exists_congr fun bytes => and_congr_left fun _ => ?_
    exact (pack?_eq_some_iff idents typed numbers).symm

/-! ## Rendered classes -/

variable {d : Dialect} {file : SourceFile} {m : Message}

/-- A rendered file is the text of a module whose names do not clash. -/
theorem of_render (rendered : Target.python.render d = .ok file) : file.text = (drafted d).text ∧
    ∀ ns ∈ scopesOf reserved (drafted d).declarations, Unambiguous ns := by
  rcases render_outcome d with ⟨accepted, unambiguous⟩ | ⟨ns, mem, a, b, clash, refused⟩
  · have same : file = ⟨d.name ++ Target.python.suffix, (drafted d).text⟩ :=
      Except.ok.inj (rendered.symm.trans accepted)
    exact ⟨by rw [same], unambiguous⟩
  · rw [rendered] at refused
    cases refused

/-- The fields of a rendered class are told apart by their identifiers. -/
theorem nodup_identOf (rendered : Target.python.render d = .ok file)
    (hm : m ∈ d.messages.values) : (m.fields.map (identOf ·.name)).Nodup := by
  have members : (m.fields.map fun f => (⟨identOf f.name, m.name ++ "." ++ f.name⟩ : Naming))
      ∈ scopesOf reserved (drafted d).declarations := by
    refine List.mem_cons_of_mem _ (List.mem_map.2 ⟨_, List.mem_append_right _
      (List.mem_map_of_mem (List.mem_map_of_mem hm)), ?_⟩)
    simp only [classOf, List.map_map]
    rfl
  have different : (m.fields.map fun f =>
      (⟨identOf f.name, m.name ++ "." ++ f.name⟩ : Naming)).Nodup :=
    nodup_map_of_sources (m.of_sound.2.1.imp fun apart same => apart (by simpa using same))
  have distinct := (nodup_ident_iff different).2 ((of_render rendered).2 _ members)
  rwa [List.map_map] at distinct

/-- A rendered class stands in the file on lines of its own. -/
theorem exists_classLines (rendered : Target.python.render d = .ok file)
    (hm : m ∈ d.messages.values) : ∃ before after, file.text
      = unlines before ++ unlines (classLines (classOf m)) ++ unlines after := by
  have listed : classOf m ∈ (drafted d).classes := List.mem_map_of_mem hm
  obtain ⟨first, last, classes⟩ := List.append_of_mem listed
  refine ⟨headLines d ++ (drafted d).enums.flatMap enumLines ++ first.flatMap classLines,
    last.flatMap classLines ++ (["", ""]
      ++ (drafted d).tableLines "CRC_EXTRA" (fun c => toString c.message.fingerprint.toNat)
      ++ [""] ++ (drafted d).tableLines "MESSAGES" fun c => c.ident), ?_⟩
  rw [(of_render rendered).1, text_eq, lines, classes, ← unlines_append, ← unlines_append]
  simp [drafted]

/-- **Rendered classes use the layout of the table.**  Suppose that a dialect is made of
definitions and that its Python module is rendered.  Then for each message there are the lines of
its class in the file, and these are read, whatever the names in them are; if the names can be
spelled as identifiers, so is the text of the lines.  By the format that is read, values are packed
and unpacked in as many bytes as the class says.  The arguments that are packed are the fields in
the order in which they are sent; each takes as many values as the slot that is taken for it of
what is unpacked, and these are the values at the bytes that the layout gives to the field.  So
payloads are made and read as the table of the dialect does it. -/
theorem rendered_class_agrees {name : String} {definitions : List (String × Definition)}
    (made : Dialect.ofDefinitions name definitions = .ok d)
    (rendered : Target.python.render d = .ok file) (hm : m ∈ d.messages.values) :
    ∃ before after codec items,
      file.text = unlines before ++ unlines (classLines (classOf m)) ++ unlines after ∧
      PythonCodec.readLines? (classLines (classOf m)) = some codec ∧
      (m.HasNames → PythonCodec.read? (unlines (classLines (classOf m))) = some codec) ∧
      codec.ident = escaped keywords (pascalCase m.name) ∧
      StructItem.readFormat? codec.format = some items ∧
      codec.HasLayout m items ∧ codec.Agrees m items (Table.ofDialect d) := by
  obtain ⟨before, after, whole⟩ := exists_classLines rendered hm
  have idents := nodup_identOf rendered hm
  exact ⟨before, after, (classOf m).codec, _, whole, PythonCodec.readLines?_classLines m,
    PythonCodec.read?_classLines, rfl, readFormat?_classOf m, hasLayout_classOf idents,
    agrees_classOf idents (Table.find?_ofDialect_of_mem made hm)⟩

/-- What is read of the class of a beacon: its range, of two numbers, is in front of the type, the
label and the level. -/
def beaconCodec : PythonCodec where
  ident := "Beacon"
  id := 7
  name := "BEACON"
  fingerprint := 192
  baseLength := 9
  maxLength := 13
  format := "<2hB4sf"
  arguments := [.each "range" "range" 2, .number "type", .text "label" "label" 4, .number "level"]
  slots := [("range", .range 0 2), ("type", .number 2), ("label", .text 3), ("level", .number 4)]

theorem codec_classOf_beacon : (classOf beacon).codec = beaconCodec := by
  have fingerprint : beacon.fingerprint.toNat = 192 := by cbv
  simp only [PythonClass.codec, PythonClass.formatLiteral, classOf, wireFields_beacon, fingerprint]
  decide +kernel

/-- The class of a beacon is read, from its lines and from its text. -/
theorem rendered_beacon_layout : ∃ d file before after items,
    Dialect.ofDefinitions "beacons" [("beacons.xml", { messages := [beacon] })] = .ok d ∧
      Target.python.render d = .ok file ∧
      file.text = unlines before ++ unlines (classLines (classOf beacon)) ++ unlines after ∧
      PythonCodec.readLines? (classLines (classOf beacon)) = some beaconCodec ∧
      PythonCodec.read? (unlines (classLines (classOf beacon))) = some beaconCodec ∧
      StructItem.readFormat? "<2hB4sf" = some items ∧
      items = [.number .i16, .number .i16, .number .u8, .bytes 4, .number .f32] ∧
      beaconCodec.HasLayout beacon items ∧
      beaconCodec.Agrees beacon items (Table.ofDialect d) := by
  have computed : (Dialect.ofDefinitions "beacons" [("beacons.xml", { messages := [beacon] })]).map
      (fun d => decide (d.messages.values = [beacon] ∧
        Scope.check backend reserved (drafted d).declarations = .ok ())) = .ok true := by
    decide +kernel
  obtain ⟨d, made, seen⟩ := exists_of_map_eq_ok computed
  obtain ⟨messages, checked⟩ := of_decide_eq_true seen
  have rendered := (render_eq_ok_iff d).2 ((Scope.check_eq_ok_iff (by decide)).1 checked)
  have listed : beacon ∈ d.messages.values := messages ▸ List.mem_cons_self
  obtain ⟨before, after, codec, items, whole, lines, text, -, format, layout, agrees⟩ :=
    rendered_class_agrees made rendered listed
  obtain rfl : beaconCodec = codec := by
    rw [PythonCodec.readLines?_classLines, codec_classOf_beacon] at lines
    exact Option.some.inj lines
  have spelled : StructItem.readFormat? beaconCodec.format
      = some [.number .i16, .number .i16, .number .u8, .bytes 4, .number .f32] := by
    decide +kernel
  exact ⟨d, _, before, after, items, made, rendered, whole, lines, text beacon_hasNames, format,
    Option.some.inj (format.symm.trans spelled), layout, agrees⟩

end PythonModule

end Mavlink.Codegen
