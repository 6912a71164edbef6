import Mathlib
import Mavlink.Codegen.Target
import Mavlink.Proofs.Codegen.RustDeclarations
import Mavlink.Proofs.Schema.MessageMerging
import Mavlink.Proofs.Table.MessageRoundTrip

/-!
# Rendered messages and tables

There are two ways to send a message of a dialect: by the code that is rendered for it, with a
structure, and by the table of the dialect, with fields given by name.  They put the same bytes
on the wire and refuse the same values, and of a payload they tell the same.

What the code does is read from its text: `RustDeclaration.read?` finds the types of the fields,
`RustImpl.read?` finds the program, and `RustImpl.encode` and `RustImpl.decode` run it on values of
these types.

* `RustImpl.Agrees` --- what it is that an implementation and a table agree on;
* `encode_agrees`, `decode_agrees` --- the program of a message agrees with the table;
* `rendered_message_agrees` --- and it is what the rendered text says.
-/

namespace Mavlink

/-! ## The messages of a dialect -/

/-- The table of a dialect knows each of its messages. -/
theorem Table.find?_ofDialect_of_mem {name : String} {definitions : List (String × Definition)}
    {d : Dialect} (made : Dialect.ofDefinitions name definitions = .ok d) {m : Message}
    (hm : m ∈ d.messages.values) : (Table.ofDialect d).messages.find? m.id = some m := by
  obtain ⟨t, merged, own⟩ := Dialect.exists_mergeMessages_of_ofDefinitions made
  have keyed : ∀ i m, d.messages.find? i = some m → m.id = i := by
    rw [own]
    exact fun i m found => ((Dialect.holds_of_mergeMessages merged).mem found).2
  have numbered : ∀ i j a b, d.messages.find? i = some a → d.messages.find? j = some b →
      a.id = b.id → i = j := by
    intro i j a b ha hb same
    rw [← keyed i a ha, ← keyed j b hb, same]
  obtain ⟨⟨i, m'⟩, bound, rfl⟩ := List.mem_map.1 hm
  exact (Dialect.find?_ofList_values numbered).2
    ⟨i, m', Dictionary.find?_eq_some_iff.2 bound, rfl, rfl⟩

namespace Message

/-- A message with a value for each of its fields. -/
def given (m : Message) (values : Field → Codegen.RustValue) : MessageValue :=
  ⟨m.id, Dictionary.ofList (m.fields.map fun f => (f.name, (values f).toValue))⟩

theorem get?_given {m : Message} (values : Field → Codegen.RustValue) {f : Field}
    (hf : f ∈ m.fields) : (m.given values).get? f.name = some (values f).toValue := by
  refine Dictionary.find?_ofList_of_mem ?_ (List.mem_map.2 ⟨f, hf, rfl⟩)
  rw [List.pairwise_map]
  exact m.of_sound.2.1

end Message

namespace Codegen

/-- A structure with a value for each field of its message. -/
def RustObject.ofFields (m : Message) (values : Field → RustValue) : RustObject :=
  m.fields.map fun f => (RustModule.identOf f.name, values f)

/-- Whether a structure has the fields that are declared, each with a value of its type. -/
def RustObject.HasTypes (self : RustObject) (declared : List (String × RustType)) : Prop :=
  List.Forall₂ (fun field member => field.1 = member.1 ∧ field.2.HasType member.2) self declared

/-- The fields of a message have values of the types that are declared for them. -/
theorem RustObject.hasTypes_ofFields_iff {m : Message} {values : Field → RustValue} :
    (RustObject.ofFields m values).HasTypes (declaredTypes m)
      ↔ ∀ f ∈ m.fields, (values f).HasType (.ofField f.type) := by
  simp [HasTypes, ofFields, declaredTypes, List.forall₂_map_left_iff, List.forall₂_map_right_iff,
    List.forall₂_same]

/-- What stands in a list under a key of its own is found by the key. -/
theorem lookup_of_mem {α : Type} {l : List (String × α)} (distinct : (l.map (·.1)).Nodup)
    {key : String} {x : α} (h : (key, x) ∈ l) : l.lookup key = some x := by
  obtain ⟨before, after, rfl⟩ := List.append_of_mem h
  refine List.lookup_eq_some_iff.2 ⟨before, after, rfl, fun p hp => bne_iff_ne.2 ?_⟩
  rw [List.map_append, List.map_cons, List.nodup_append] at distinct
  exact (distinct.2.2 p.1 (List.mem_map_of_mem hp) key List.mem_cons_self).symm

/-- What is listed for each member under a key of its own is found by the key. -/
theorem lookup_map_of_mem {α β : Type} {l : List β} {key : β → String}
    (distinct : (l.map key).Nodup) (g : β → α) {x : β} (hx : x ∈ l) :
    (l.map fun x => (key x, g x)).lookup (key x) = some (g x) := by
  refine lookup_of_mem ?_ (List.mem_map.2 ⟨x, hx, rfl⟩)
  rwa [List.map_map]

/-! ## Agreement -/

namespace RustImpl

/-- What is read of a payload: the fields of the message, of each what the table tells. -/
structure Reads (m : Message) (object : RustObject) (told : MessageValue) : Prop where
  id : told.id = m.id
  idents : (object.map (·.1)).Perm (m.fields.map (RustModule.identOf ·.name))
  fields : ∀ f ∈ m.fields, ∃ v value, object.lookup (RustModule.identOf f.name) = some v ∧
    v.HasType (.ofField f.type) ∧ told.get? f.name = some value ∧ RustValue.Told f.type v value

/-- An implementation of a message that does what a table does, for a structure whose fields are
declared with types. -/
structure Agrees (i : RustImpl) (declared : List (String × RustType)) (m : Message) (t : Table) :
    Prop where
  id : i.id = m.id
  name : i.name = m.name
  fingerprint : i.fingerprint = m.fingerprint.toNat
  baseLength : i.baseLength = m.baseLength
  maxLength : i.maxLength = m.maxLength
  /-- The fields of the message are declared, with the types that they have there. -/
  types : declared = declaredTypes m
  /-- The same payload, or the same error, for all values of the types that are declared. -/
  encode : ∀ (values : Field → RustValue) (version : Version),
    (RustObject.ofFields m values).HasTypes declared →
    (∀ f ∈ m.fields, ∀ n ∈ (values f).numbers, n.isNaN32 = false) →
    i.encode (.ofFields m values) version = some (t.encode (m.given values) version)
  /-- The implementation takes any payload for one of its message, a table looks at the
  number.  So the table is given the payload under the number of the message. -/
  decode : ∀ p : Payload, match t.decode { p with id := m.id } with
    | .ok told => ∃ object, i.decode declared p = some (.ok object) ∧ Reads m object told
    | .error e => ∃ e', i.decode declared p = some (.error e') ∧ (p.id = m.id → e' = e)

end RustImpl

variable {d : Dialect} {module : RustModule} {m : Message}

/-- The fields of a message have identifiers of their own. -/
theorem nodup_identOf (accepted : RustModule.ofDialect d = .ok module)
    (hm : m ∈ d.messages.values) : (m.fields.map (RustModule.identOf ·.name)).Nodup :=
  List.pairwise_map.2 (m.of_sound.2.1.imp_of_mem fun ha hb apart same =>
    apart (RustModule.identOf_injOn accepted hm ha hb same))

/-- What is found by the identifier of a field. -/
theorem lookup_identOf (accepted : RustModule.ofDialect d = .ok module)
    (hm : m ∈ d.messages.values) {α : Type} (g : Field → α) {f : Field} (hf : f ∈ m.fields) :
    (m.fields.map fun f => (RustModule.identOf f.name, g f)).lookup (RustModule.identOf f.name)
      = some (g f) :=
  lookup_map_of_mem (nodup_identOf accepted hm) g hf

/-- Every field that is given is a field of the message. -/
theorem field?_given {values : Field → RustValue} {name : String}
    (given : name ∈ (m.given values).fields.keys) : (m.field? name).isSome = true := by
  obtain ⟨_, listed, rfl⟩ := List.mem_map.1 (Dictionary.mem_keys_ofList given)
  obtain ⟨f, hf, rfl⟩ := List.mem_map.1 listed
  exact List.find?_isSome.2 ⟨f, hf, decide_eq_true rfl⟩

/-- What a table makes of a message that is given with all its fields. -/
theorem encode_given {t : Table} (known : t.messages.find? m.id = some m)
    (values : Field → RustValue) (version : Version) : t.encode (m.given values) version
      = m.wireFields.foldlM (Table.putField m.name (m.given values)) (.start m.id m.baseLength)
          >>= (·.finish version) :=
  Table.encode_eq known (fun _ => field?_given) version

/-- **What is encoded agrees**: the payload, and the error. -/
theorem encode_agrees (accepted : RustModule.ofDialect d = .ok module)
    (hm : m ∈ d.messages.values) {t : Table} (known : t.messages.find? m.id = some m)
    {values : Field → RustValue} (typed : ∀ f ∈ m.fields, (values f).HasType (.ofField f.type))
    (numbers : ∀ f ∈ m.fields, ∀ n ∈ (values f).numbers, n.isNaN32 = false) (version : Version) :
    (RustModule.structOf m).impl.encode (.ofFields m values) version
      = some (t.encode (m.given values) version) := by
  have inside : ∀ f ∈ m.wireFields, f ∈ m.fields := fun _ => m.mem_wireFields.1
  have program : RustPut.runAll m.name (.ofFields m values) (.start m.id m.baseLength)
      (m.wireFields.map RustModule.putOf)
      = some (m.wireFields.foldlM (Table.putField m.name (m.given values))
          (.start m.id m.baseLength)) :=
    RustPut.runAll_putOf
      (fun f hf => lookup_identOf accepted hm values (inside f hf))
      (fun f hf => m.get?_given values (inside f hf)) (fun f hf => typed f (inside f hf))
      (fun f hf => numbers f (inside f hf)) _
  rw [encode_given known]
  exact congrArg (Option.map (· >>= (·.finish version))) program

/-- A payload that is too long is refused by both. -/
theorem decode_refused {t : Table} (known : t.messages.find? m.id = some m) {p : Payload}
    (long : m.maxLength < p.size) :
    t.decode { p with id := m.id } = .error (.invalidPayloadLength m.id p.size m.maxLength) ∧
      (RustModule.structOf m).impl.decode (declaredTypes m) p
        = some (.error (.invalidPayloadLength p.id p.size m.maxLength)) := by
  have table : PayloadReader.start { p with id := m.id } m.maxLength
      = .error (.invalidPayloadLength m.id p.size m.maxLength) := if_pos long
  have program : PayloadReader.start p (RustModule.structOf m).impl.maxLength
      = .error (.invalidPayloadLength p.id p.size m.maxLength) := if_pos long
  constructor
  · rw [Table.decode, known]
    simp only [table]
    rfl
  · rw [RustImpl.decode, program]

/-- Any other payload is read by both. -/
theorem decode_read (accepted : RustModule.ofDialect d = .ok module)
    (hm : m ∈ d.messages.values) {t : Table} (known : t.messages.find? m.id = some m)
    {p : Payload} (fits : p.size ≤ m.maxLength) :
    ∃ told object, t.decode { p with id := m.id } = .ok told ∧
      (RustModule.structOf m).impl.decode (declaredTypes m) p = some (.ok object) ∧
        RustImpl.Reads m object told := by
  have declared : ∀ f ∈ m.wireFields,
      (declaredTypes m).lookup (RustModule.identOf f.name) = some (.ofField f.type) :=
    fun f hf => lookup_identOf accepted hm (RustType.ofField ·.type) (m.mem_wireFields.1 hf)
  obtain ⟨object, run, idents, each⟩ := RustRead.runAll_ofField declared ⟨p.bytes⟩
  have program : (RustModule.structOf m).impl.decode (declaredTypes m) p = some (.ok object) := by
    have started : PayloadReader.start p (RustModule.structOf m).impl.maxLength
        = .ok ⟨p.bytes⟩ := if_neg (Nat.not_lt.2 fits)
    have gets : (RustModule.structOf m).impl.gets = m.wireFields.map RustRead.ofField :=
      List.map_map
    rw [RustImpl.decode, started]
    simp only [gets, run]
    rfl
  have own : (object.map (·.1)).Perm (m.fields.map (RustModule.identOf ·.name)) := by
    rw [idents]
    exact (Layout.wire_perm m.fields).map _
  have table : t.decode { p with id := m.id } = .ok (Table.read m p.bytes) :=
    Table.decode_eq known fits
  refine ⟨_, object, table, program, rfl, own, fun f hf => ?_⟩
  obtain ⟨v, value, inside, typed, given, told⟩ := each f (m.mem_wireFields.2 hf)
  exact ⟨v, value, lookup_of_mem (own.nodup_iff.2 (nodup_identOf accepted hm)) inside, typed,
    Table.get?_read given, told⟩

/-- **What is decoded agrees**, field by field, and so does the error. -/
theorem decode_agrees (accepted : RustModule.ofDialect d = .ok module)
    (hm : m ∈ d.messages.values) {t : Table} (known : t.messages.find? m.id = some m)
    (p : Payload) : match t.decode { p with id := m.id } with
    | .ok told => ∃ object,
      (RustModule.structOf m).impl.decode (declaredTypes m) p = some (.ok object) ∧
        RustImpl.Reads m object told
    | .error e => ∃ e',
      (RustModule.structOf m).impl.decode (declaredTypes m) p = some (.error e') ∧
        (p.id = m.id → e' = e) := by
  rcases Nat.lt_or_ge m.maxLength p.size with long | fits
  · obtain ⟨table, program⟩ := decode_refused known long
    rw [table]
    exact ⟨_, program, fun same => by rw [same]⟩
  · obtain ⟨told, object, table, program, reads⟩ := decode_read accepted hm known fits
    rw [table]
    exact ⟨object, program, reads⟩

/-! ## Rendered modules -/

/-- The structure of a message that has names is made of names. -/
theorem named_structOf (names : m.HasNames) : (RustModule.structOf m).Named where
  ident := isIdentifier_pascalCase names.name
  name := names.name
  puts := by
    intro p hp
    obtain ⟨f, hf, rfl⟩ := List.mem_map.1 hp
    have name := names.fields f (m.mem_wireFields.1 hf)
    have ident := isIdentifier_identOf name
    unfold RustModule.putOf
    split
    · exact ident
    · exact ⟨name, ident⟩
    · exact ident
  gets := by
    intro g hg
    obtain ⟨f, hf, rfl⟩ := List.mem_map.1 hg
    have ident := isIdentifier_identOf (names.fields f (m.mem_wireFields.1 hf))
    unfold RustModule.getOf
    split <;> exact ident

/-- The declaration of a structure and its implementation stand in the file on lines of their
own. -/
theorem exists_structLines {s : RustStruct} (hs : s ∈ module.structs) :
    ∃ before between after, module.text
      = unlines before ++ unlines (RustModule.structLines s) ++ unlines between
        ++ unlines (RustModule.messageLines s) ++ unlines after := by
  have among : [RustModule.structLines s, RustModule.defaultLines s, RustModule.messageLines s]
      <:+: module.structs.flatMap fun s =>
        [RustModule.structLines s, RustModule.defaultLines s, RustModule.messageLines s] := by
    obtain ⟨first, last, structs⟩ := List.append_of_mem hs
    rw [structs, List.flatMap_append, List.flatMap_cons, ← List.append_assoc]
    exact List.infix_append ..
  obtain ⟨a, b, parts⟩ : _ <:+: module.parts := among.trans (List.infix_append ..)
  obtain ⟨before, after, whole⟩ : ∃ before after, List.intercalate [""] module.parts
      = before ++ List.intercalate [""] [RustModule.structLines s, RustModule.defaultLines s,
        RustModule.messageLines s] ++ after := by
    rw [← parts]
    exact exists_intercalate_append_eq a b (List.cons_ne_nil _ _)
  refine ⟨before, [""] ++ RustModule.defaultLines s ++ [""], after, ?_⟩
  have split : List.intercalate [""] [RustModule.structLines s, RustModule.defaultLines s,
      RustModule.messageLines s] = RustModule.structLines s
        ++ ([""] ++ RustModule.defaultLines s ++ [""]) ++ RustModule.messageLines s := by
    simp [List.intercalate_cons_cons]
  rw [RustModule.text, whole, split]
  simp only [unlines_append, String.append_assoc]

/-- **Rendered code agrees with the table.**  Suppose that a dialect is made of definitions, its
messages and their fields have names that can be spelled as identifiers, and its Rust module is
rendered.  Then for each message there are two blocks of lines in the file, and the one is read as
the declaration of a structure, the other as its implementation.  The fields of the message are
declared in their order, and nothing else is if no line feed in what is said of a field ends a
comment.  The numbers in the implementation are those of the layout.  It encodes a structure,
whatever values of the declared types its fields have, as the table encodes the fields by name,
with the same error if there is one, for either version; only numbers of 32 bits that are none are
left out.  It decodes a payload into fields of the declared types as the table does, field by
field. -/
theorem rendered_message_agrees {name : String} {definitions : List (String × Definition)}
    (made : Dialect.ofDefinitions name definitions = .ok d)
    (names : ∀ m ∈ d.messages.values, m.HasNames) {file : SourceFile}
    (rendered : Target.rust.render d = .ok file) (hm : m ∈ d.messages.values) :
    ∃ before struct between impl after declaration declared i,
      file.text = unlines before ++ struct ++ unlines between ++ impl ++ unlines after ∧
      RustDeclaration.read? struct = some declaration ∧
      declaration.ident = pascalCase m.name ∧
      declared.Sublist declaration.members ∧
      ((∀ f ∈ m.fields, f.IsPlain) → declared = declaration.members) ∧
      RustImpl.read? impl = some i ∧ i.ident = pascalCase m.name ∧
      i.Agrees declared m (Table.ofDialect d) := by
  obtain ⟨text, made_text, rendered⟩ := exists_of_bind_eq_ok rendered
  cases rendered
  obtain ⟨module, accepted, rfl⟩ := exists_of_map_eq_ok made_text
  have known := Table.find?_ofDialect_of_mem made hm
  have listed : RustModule.structOf m ∈ module.structs := by
    rw [(RustModule.of_ofDialect accepted).1]
    exact List.mem_map_of_mem hm
  obtain ⟨before, between, after, whole⟩ := exists_structLines listed
  obtain ⟨declaration, declares, ident, found, only⟩ := exists_read?_structLines (names m hm)
  refine ⟨before, _, between, _, after, declaration, declaredTypes m, (RustModule.structOf m).impl,
    whole, declares, ident, found, fun plain => (only plain).symm,
    read?_messageLines (named_structOf (names m hm)), rfl, ?_⟩
  exact {
    id := rfl
    name := rfl
    fingerprint := rfl
    baseLength := rfl
    maxLength := rfl
    types := rfl
    encode := fun values version typed numbers =>
      encode_agrees accepted hm known (RustObject.hasTypes_ofFields_iff.1 typed) numbers version
    decode := decode_agrees accepted hm known }

/-- A message with a byte whose name is a keyword, a text, two numbers with a sign, and a
number in floating point that only the second version carries. -/
def beacon : Message :=
  ⟨7, "BEACON", none, false,
    [{ name := "type", type := .scalar .uint8 },
      { name := "label", type := .array .char 4 },
      { name := "range", type := .array .int16 2 },
      { name := "level", type := .scalar .float, isExtension := true }], by decide⟩

/-- A beacon of type 5, its label `ab`, its range from 1 to -1 and its level one. -/
def beaconValues (f : Field) : RustValue :=
  if f.name = "type" then .number ⟨.u8, 5, by decide⟩
  else if f.name = "label" then .text "ab"
  else if f.name = "range" then .array [⟨.i16, 1, by decide⟩, ⟨.i16, 0xFFFF, by decide⟩]
  else .number ⟨.f32, 0x3F800000, by decide⟩

theorem beacon_hasNames : beacon.HasNames where
  name := ⟨by decide, List.all_eq_true.1 rfl⟩
  fields := by
    simp only [beacon, List.forall_mem_cons, List.not_mem_nil, false_imp_iff, implies_true,
      and_true]
    exact ⟨⟨by decide, List.all_eq_true.1 rfl⟩, ⟨by decide, List.all_eq_true.1 rfl⟩,
      ⟨by decide, List.all_eq_true.1 rfl⟩, ⟨by decide, List.all_eq_true.1 rfl⟩⟩

theorem beaconValues_hasType : ∀ f ∈ beacon.fields, (beaconValues f).HasType (.ofField f.type) := by
  simp only [beacon, List.forall_mem_cons, List.not_mem_nil, false_imp_iff, implies_true,
    and_true]
  exact ⟨.number rfl, .text, .array rfl (by decide), .number rfl⟩

/-- The fields of a beacon are declared with these types. -/
theorem declaredTypes_beacon : declaredTypes beacon = [("type_", .number .u8), ("label", .text),
    ("range", .array .i16 2), ("level", .number .f32)] := by decide +kernel

/-- The range is the widest of the base fields and goes first. -/
theorem wireFields_beacon : beacon.wireFields = [{ name := "range", type := .array .int16 2 },
    { name := "type", type := .scalar .uint8 }, { name := "label", type := .array .char 4 },
    { name := "level", type := .scalar .float, isExtension := true }] := by cbv

/-- The module of a beacon is rendered.  Its structure is read with four fields, and the
implementation encodes one. -/
theorem rendered_beacon_encodes : ∃ d file before struct between impl after declaration declared i,
    Dialect.ofDefinitions "beacons" [("beacons.xml", { messages := [beacon] })] = .ok d ∧
      d.messages.values = [beacon] ∧ Target.rust.render d = .ok file ∧
      file.text = unlines before ++ struct ++ unlines between ++ impl ++ unlines after ∧
      RustDeclaration.read? struct = some declaration ∧
      declaration = ⟨"Beacon", [("type_", .number .u8), ("label", .text),
        ("range", .array .i16 2), ("level", .number .f32)]⟩ ∧
      declared = declaration.members ∧ RustImpl.read? impl = some i ∧
      i.ident = "Beacon" ∧ i.Agrees declared beacon (Table.ofDialect d) ∧
      i.encode (.ofFields beacon beaconValues) .v2
        = some (.ok ⟨7, .v2, [1, 0, 0xFF, 0xFF, 5, 0x61, 0x62, 0, 0, 0, 0, 0x80, 0x3F]⟩) := by
  have evaluated : (Dialect.ofDefinitions "beacons" [("beacons.xml", { messages := [beacon] })]
      ).toOption.map (fun d => (d.messages.values, (Target.rust.render d).toOption.isSome))
      = some ([beacon], true) := by decide +kernel
  have numbers : ∀ f ∈ beacon.fields, ∀ n ∈ (beaconValues f).numbers, n.isNaN32 = false := by
    decide +kernel
  have named : pascalCase beacon.name = "Beacon" := by decide +kernel
  have plain : ∀ f ∈ beacon.fields, f.IsPlain := by
    simp only [beacon, List.forall_mem_cons, List.not_mem_nil, false_imp_iff, implies_true,
      and_true]
    exact ⟨.of_none rfl rfl, .of_none rfl rfl, .of_none rfl rfl, .of_none rfl rfl⟩
  cases made : Dialect.ofDefinitions "beacons" [("beacons.xml", { messages := [beacon] })] with
  | error e =>
    rw [made] at evaluated
    cases evaluated
  | ok d =>
    rw [made] at evaluated
    simp only [Except.toOption, Option.map_some, Option.some.injEq, Prod.mk.injEq] at evaluated
    obtain ⟨messages, renders⟩ := evaluated
    cases rendered : Target.rust.render d with
    | error e =>
      rw [rendered] at renders
      cases renders
    | ok file =>
      have listed : beacon ∈ d.messages.values := by
        rw [messages]
        exact List.mem_cons_self
      have names : ∀ m ∈ d.messages.values, m.HasNames := by
        rw [messages]
        exact List.forall_mem_singleton.2 beacon_hasNames
      obtain ⟨before, struct, between, impl, after, declaration, declared, i, whole, declares,
        own, -, same, read, ident, agrees⟩ := rendered_message_agrees made names rendered listed
      have members : declaration.members = _ :=
        ((same plain).symm.trans agrees.types).trans declaredTypes_beacon
      refine ⟨d, file, before, struct, between, impl, after, declaration, declared, i, rfl,
        messages, rendered, whole, declares, ?_, same plain, read, ident.trans named, agrees, ?_⟩
      · rw [named] at own
        rw [← own, ← members]
      · have typed : (RustObject.ofFields beacon beaconValues).HasTypes declared := by
          rw [agrees.types]
          exact RustObject.hasTypes_ofFields_iff.2 beaconValues_hasType
        rw [agrees.encode beaconValues .v2 typed numbers,
          encode_given (Table.find?_ofDialect_of_mem made listed), wireFields_beacon]
        decide +kernel

end Codegen
end Mavlink
