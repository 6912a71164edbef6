import Mavlink.Link.Encoder
import Mavlink.Proofs.Schema.LayoutOrder
import Mavlink.Proofs.Table.FieldRoundTrip
import Mavlink.Proofs.Wire.FrameSpelling

/-!
# Messages there and back

A message whose fields are given by name is written field after field in the order in
which they are sent, without the extension fields or without the zeros at its end.
Nothing that is left out is missed: the receiver is told of every field of the message,
and of no other, as `Message.Conveys` says.

* `Table.conveys_of_foldlM_putField` --- fields that were written one after another are
  read one after another;
* `Table.readFields_padded`, `Table.zero_mem_readFields` --- what is left out;
* `Table.conveys_of_encode` --- a message that is encoded;
* `Table.exists_of_sendValue` --- and one that is sent in a frame.
-/

namespace Mavlink

/-- The value that is told of a field when it is given a value or none.  The first version
of the protocol does not carry extension fields. -/
def Field.Conveys (f : Field) (version : Version) (given : Option Value) (told : Value) : Prop :=
  if version = .v1 ∧ f.isExtension = true then told = f.type.zero
  else match given with
    | some v => f.type.Conveys v told
    | none => f.isExtension = true ∧ told = f.type.zero

theorem Field.conveys_iff {f : Field} {version : Version}
    (carried : ¬ (version = .v1 ∧ f.isExtension = true)) (given : Option Value) (told : Value) :
    f.Conveys version given told ↔ match given with
      | some v => f.type.Conveys v told
      | none => f.isExtension = true ∧ told = f.type.zero := by
  unfold Conveys
  rw [if_neg carried]

/-- The second version carries every field. -/
theorem Field.carried_v2 (f : Field) : ¬ (Version.v2 = .v1 ∧ f.isExtension = true) :=
  fun h => nomatch h.1

/-- The message that is told when a message is given: every field, and no others. -/
structure Message.Conveys (m : Message) (version : Version) (given told : MessageValue) :
    Prop where
  id : told.id = given.id
  fields : ∀ f ∈ m.fields, ∃ v, told.get? f.name = some v ∧
    f.Conveys version (given.get? f.name) v
  only : ∀ name v, told.get? name = some v → ∃ f ∈ m.fields, f.name = name

namespace Table

/-! ## Fields in a row -/

theorem readFields_append (r : PayloadReader) (a b : List Field) :
    readFields r (a ++ b) = readFields r a ++ readFields (r.skip (Layout.size a)) b := by
  induction a generalizing r with
  | nil => rfl
  | cons f a ih =>
    have skipped : (r.skip f.size).skip (Layout.size a) = r.skip (Layout.size (f :: a)) := by
      rw [PayloadReader.skip, PayloadReader.skip, PayloadReader.skip, List.drop_drop,
        Layout.size_cons]
    rw [List.cons_append, readFields, readFields, ih, skipped]
    rfl

/-- Zeros at the end make no difference. -/
theorem readFields_padded (r : PayloadReader) (k : Nat) (fields : List Field) :
    readFields (r.padded k) fields = readFields r fields := by
  induction fields generalizing r k with
  | nil => rfl
  | cons f fields ih =>
    obtain ⟨j, skipped⟩ := r.skip_padded k f.size
    rw [readFields, readFields, readValue_padded, skipped, ih]

/-- Where there is nothing any more, every field is zero. -/
theorem zero_mem_readFields {f : Field} {fields : List Field} (h : f ∈ fields) :
    (f.name, f.type.zero) ∈ readFields ⟨[]⟩ fields := by
  induction fields with
  | nil => exact absurd h List.not_mem_nil
  | cons g fields ih =>
    have skipped : PayloadReader.skip ⟨[]⟩ g.size = ⟨[]⟩ := by
      rw [PayloadReader.skip, List.drop_nil]
    rw [readFields, readValue_nil, skipped]
    rcases List.mem_cons.1 h with rfl | h
    · exact List.mem_cons_self
    · exact List.mem_cons_of_mem _ (ih h)

theorem map_fst_readFields (r : PayloadReader) (fields : List Field) :
    (readFields r fields).map (·.1) = fields.map (·.name) := by
  induction fields generalizing r with
  | nil => rfl
  | cons f fields ih => rw [readFields, List.map_cons, ih, List.map_cons]

/-- What is written of a field is read as what it conveys. -/
theorem conveys_of_putField {message : String} {v : MessageValue} {f : Field}
    {w w' : PayloadWriter} (h : putField message v w f = .ok w') :
    ∃ bytes, w' = w.putBytes bytes ∧ bytes.length = f.size ∧
      f.Conveys .v2 (v.get? f.name) (readValue ⟨bytes⟩ f.type) := by
  unfold putField at h
  simp only [Field.conveys_iff f.carried_v2]
  cases given : v.get? f.name with
  | some value =>
    rw [given] at h
    exact conveys_of_putValue h
  | none =>
    rw [given] at h
    simp only at h
    split at h
    · next extension =>
      cases h
      refine ⟨_, rfl, List.length_replicate, extension, ?_⟩
      rw [← readValue_nil]
      exact readValue_padded ⟨[]⟩ f.size f.type
    · cases h

/-- Fields that were written one after another are read one after another. -/
theorem conveys_of_foldlM_putField {message : String} {v : MessageValue} {fields : List Field}
    {w w' : PayloadWriter} (h : fields.foldlM (putField message v) w = .ok w') :
    ∃ bytes, w' = w.putBytes bytes ∧ bytes.length = Layout.size fields ∧
      ∀ f ∈ fields, ∃ told, (f.name, told) ∈ readFields ⟨bytes⟩ fields ∧
        f.Conveys .v2 (v.get? f.name) told := by
  induction fields generalizing w with
  | nil =>
    cases h
    exact ⟨[], by simp [PayloadWriter.putBytes], rfl, fun _ hf => absurd hf List.not_mem_nil⟩
  | cons f fields ih =>
    rw [List.foldlM_cons] at h
    cases first : putField message v w f with
    | error e =>
      rw [first] at h
      cases h
    | ok w₁ =>
      rw [first] at h
      obtain ⟨bytes, rfl, length, told⟩ := conveys_of_putField first
      obtain ⟨others, rfl, lengths, each⟩ := ih h
      have here : readValue ⟨bytes ++ others⟩ f.type = readValue ⟨bytes⟩ f.type :=
        readValue_append (Nat.le_of_eq length.symm) others
      have there : PayloadReader.skip ⟨bytes ++ others⟩ f.size = ⟨others⟩ := by
        rw [PayloadReader.skip, ← length, List.drop_left]
      refine ⟨bytes ++ others, ?_, ?_, ?_⟩
      · simp only [PayloadWriter.putBytes, List.append_assoc]
      · rw [List.length_append, length, lengths, Layout.size_cons]
      · intro g hg
        rw [readFields, here, there]
        rcases List.mem_cons.1 hg with rfl | hg
        · exact ⟨_, List.mem_cons_self, told⟩
        · obtain ⟨x, hx, conveyed⟩ := each g hg
          exact ⟨x, List.mem_cons_of_mem _ hx, conveyed⟩

/-! ## Messages -/

/-- A table in which every message stands under its own number. -/
def Keyed (t : Table) : Prop := ∀ id m, t.messages.find? id = some m → m.id = id

/-- What a table knows comes from its dialect. -/
theorem mem_of_find?_ofDialect {d : Dialect} {id : MessageId} {m : Message}
    (h : (ofDialect d).messages.find? id = some m) : m ∈ d.messages.values ∧ m.id = id := by
  obtain ⟨_, hm, same⟩ := List.mem_map.1 (Dictionary.mem_of_find?_ofList h)
  cases same
  exact ⟨hm, rfl⟩

theorem keyed_ofDialect (d : Dialect) : (ofDialect d).Keyed :=
  fun _ _ h => (mem_of_find?_ofDialect h).2

/-- A message that gives no field but those of its layout is encoded field by field. -/
theorem encode_eq {t : Table} {m : Message} {v : MessageValue}
    (known : t.messages.find? v.id = some m)
    (named : ∀ name ∈ v.fields.keys, (m.field? name).isSome = true) (version : Version) :
    t.encode v version = m.wireFields.foldlM (putField m.name v) (.start m.id m.baseLength)
      >>= (·.finish version) := by
  have unknown : v.fields.keys.find? (fun name => (m.field? name).isNone) = none :=
    List.find?_eq_none.2 fun name given => by
      simpa using Option.isSome_iff_ne_none.1 (named name given)
  rw [encode, known]
  simp only [unknown]

/-- What becomes of a message that is encoded. -/
theorem exists_of_encode {t : Table} {v : MessageValue} {version : Version} {payload : Payload}
    (h : t.encode v version = .ok payload) :
    ∃ m w, t.messages.find? v.id = some m ∧
      m.wireFields.foldlM (putField m.name v) (.start m.id m.baseLength) = .ok w ∧
      w.finish version = .ok payload := by
  unfold encode at h
  split at h
  · cases h
  · next m hm =>
    split at h
    · cases h
    · cases hw : m.wireFields.foldlM (putField m.name v) (.start m.id m.baseLength) with
      | error e =>
        rw [hw] at h
        cases h
      | ok w =>
        rw [hw] at h
        exact ⟨m, w, hm, hw, h⟩

/-- The payload of a message: it has the number of the message and fits it, and whatever
was left out of it is read all the same. -/
theorem conveys_of_finish {m : Message} {v : MessageValue} {version : Version} {w : PayloadWriter}
    {payload : Payload}
    (written : m.wireFields.foldlM (putField m.name v) (.start m.id m.baseLength) = .ok w)
    (finished : w.finish version = .ok payload) :
    payload.id = m.id ∧ payload.version = version ∧ payload.size ≤ m.maxLength ∧
      m.id ≤ version.maxMessageId ∧
      ∀ f ∈ m.fields, ∃ told, (f.name, told) ∈ readFields ⟨payload.bytes⟩ m.wireFields ∧
        f.Conveys version (v.get? f.name) told := by
  cases version with
  | v2 =>
    obtain ⟨bytes, rfl, length, each⟩ := conveys_of_foldlM_putField written
    cases finished
    obtain ⟨k, whole⟩ := Bytes.truncate_append_zeros bytes
    refine ⟨rfl, rfl, ?_, m.id_le, ?_⟩
    · rw [← m.size_wireFields, ← length]
      exact Bytes.length_truncate_le bytes
    · have read : readFields ⟨bytes.truncate⟩ m.wireFields = readFields ⟨bytes⟩ m.wireFields := by
        rw [← readFields_padded ⟨bytes.truncate⟩ k, PayloadReader.padded, whole]
      intro f hf
      obtain ⟨told, present, conveyed⟩ := each f (m.mem_wireFields.2 hf)
      exact ⟨told, read.symm ▸ present, conveyed⟩
  | v1 =>
    obtain ⟨base, order, baseSize, isBase⟩ := m.exists_base
    rw [order, List.foldlM_append] at written
    cases first : base.foldlM (putField m.name v) (.start m.id m.baseLength) with
    | error e =>
      rw [first] at written
      cases written
    | ok w₁ =>
      rw [first] at written
      obtain ⟨bytes, rfl, length, each⟩ := conveys_of_foldlM_putField first
      obtain ⟨others, rfl, -, -⟩ := conveys_of_foldlM_putField written
      have taken : (bytes ++ others).take m.baseLength = bytes := by
        rw [← baseSize, ← length, List.take_left]
      simp only [PayloadWriter.finish] at finished
      split at finished
      · cases finished
      · next id =>
        cases finished
        refine ⟨rfl, rfl, ?_, Nat.le_of_not_lt id, ?_⟩
        · have total := m.size_wireFields
          rw [order, Layout.size_append, baseSize] at total
          show (List.take m.baseLength (bytes ++ others)).length ≤ m.maxLength
          rw [taken, length, baseSize]
          omega
        · show ∀ f ∈ m.fields, ∃ told,
            (f.name, told) ∈ readFields ⟨(bytes ++ others).take m.baseLength⟩ m.wireFields ∧
              f.Conveys .v1 (v.get? f.name) told
          have nothing : PayloadReader.skip ⟨bytes⟩ (Layout.size base) = ⟨[]⟩ := by
            rw [PayloadReader.skip, ← length, List.drop_length]
          rw [taken, order, readFields_append, nothing]
          intro f hf
          rcases List.mem_append.1 (order ▸ m.mem_wireFields.2 hf) with inBase | inExtensions
          · obtain ⟨told, present, conveyed⟩ := each f inBase
            have carried : ¬ (Version.v1 = .v1 ∧ f.isExtension = true) := by simp [isBase f inBase]
            refine ⟨told, List.mem_append_left _ present, (Field.conveys_iff carried ..).2 ?_⟩
            exact (Field.conveys_iff f.carried_v2 ..).1 conveyed
          · have extension := Message.isExtension_of_mem_extensionFields inExtensions
            refine ⟨_, List.mem_append_right _ (zero_mem_readFields inExtensions), ?_⟩
            unfold Field.Conveys
            rw [if_pos ⟨rfl, extension⟩]

/-- The message that is read of bytes. -/
def read (m : Message) (bytes : Bytes) : MessageValue :=
  ⟨m.id, Dictionary.ofList (readFields ⟨bytes⟩ m.wireFields)⟩

/-- No two fields that are read have one name. -/
theorem pairwise_readFields (m : Message) (r : PayloadReader) :
    (readFields r m.wireFields).Pairwise fun a b => a.1 ≠ b.1 := by
  have names : ((readFields r m.wireFields).map (·.1)).Pairwise (· ≠ ·) := by
    rw [map_fst_readFields, List.pairwise_map]
    exact m.nodup_names
  exact List.pairwise_map.1 names

/-- Every field that is read is told. -/
theorem get?_read {m : Message} {bytes : Bytes} {name : String} {value : Value}
    (h : (name, value) ∈ readFields ⟨bytes⟩ m.wireFields) :
    (read m bytes).get? name = some value :=
  Dictionary.find?_ofList_of_mem (pairwise_readFields m _) h

/-- Nothing else is told. -/
theorem exists_field_of_read {m : Message} {bytes : Bytes} {name : String} {value : Value}
    (h : (read m bytes).get? name = some value) : ∃ f ∈ m.fields, f.name = name := by
  have named : name ∈ (readFields ⟨bytes⟩ m.wireFields).map (·.1) :=
    List.mem_map.2 ⟨_, Dictionary.mem_of_find?_ofList h, rfl⟩
  rw [map_fst_readFields] at named
  obtain ⟨f, hf, same⟩ := List.mem_map.1 named
  exact ⟨f, m.mem_wireFields.1 hf, same⟩

/-- A payload of a known message is decoded field by field. -/
theorem decode_eq {t : Table} {m : Message} {payload : Payload}
    (known : t.messages.find? payload.id = some m) (fits : payload.size ≤ m.maxLength) :
    t.decode payload = .ok (read m payload.bytes) := by
  unfold decode PayloadReader.start
  rw [known]
  simp only [if_neg (Nat.not_lt.2 fits)]
  rfl

/-- What becomes of a payload that is decoded. -/
theorem exists_of_decode {t : Table} {payload : Payload} {told : MessageValue}
    (h : t.decode payload = .ok told) : ∃ m, t.messages.find? payload.id = some m ∧
      payload.size ≤ m.maxLength ∧ told = read m payload.bytes := by
  cases known : t.messages.find? payload.id with
  | none =>
    rw [decode, known] at h
    cases h
  | some m =>
    rcases Nat.lt_or_ge m.maxLength payload.size with long | fits
    · rw [decode, known] at h
      simp only [PayloadReader.start, if_pos long] at h
      cases h
    · refine ⟨m, rfl, fits, ?_⟩
      exact Except.ok.inj (h.symm.trans (decode_eq known fits))

/-- **A message that is encoded is decoded as what it conveys.** -/
theorem conveys_of_encode {t : Table} (keyed : t.Keyed) {v : MessageValue} {version : Version}
    {payload : Payload} (h : t.encode v version = .ok payload) :
    ∃ m told, t.messages.find? v.id = some m ∧ t.decode payload = .ok told ∧
      m.Conveys version v told ∧ payload.id = m.id ∧ payload.version = version ∧
      payload.size ≤ m.maxLength ∧ m.id ≤ version.maxMessageId := by
  obtain ⟨m, w, known, written, finished⟩ := exists_of_encode h
  obtain ⟨id, hversion, fits, low, each⟩ := conveys_of_finish written finished
  have own : m.id = v.id := keyed _ _ known
  have known' : t.messages.find? payload.id = some m := by
    rw [id, own]
    exact known
  refine ⟨m, _, known, decode_eq known' fits, ⟨own, ?_, ?_⟩, id, hversion, fits, low⟩
  · intro f hf
    obtain ⟨told, present, conveyed⟩ := each f hf
    exact ⟨told, get?_read present, conveyed⟩
  · exact fun _ _ present => exists_field_of_read present

/-! ## Frames -/

/-- A table knows a message to read frames if it knows it to write them. -/
theorem lookup_of_known {t : Table} {id : MessageId} {m : Message}
    (known : t.messages.find? id = some m) :
    t.lookup.fingerprint id = some m.fingerprint ∧ t.lookup.maxLength id = some m.maxLength := by
  simp only [lookup, known, Option.map_some, and_self]

/-- A message that is encoded is sent in a frame, which is read back whatever follows it. -/
theorem exists_of_sendValue {t : Table} (keyed : t.Keyed) {s : Transmitter} {v : MessageValue}
    {payload : Payload} (h : t.encode v s.encoder.version = .ok payload) (now : Timestamp)
    (r : Bytes) :
    ∃ f s', s.sendValue now t v = .ok (f, s') ∧ f.payload = payload ∧
      Frame.decode (f.toBytes ++ r) t.lookup = .ok f := by
  obtain ⟨m, _, known, -, -, id, version, fits, low⟩ := conveys_of_encode keyed h
  have own : m.id = v.id := keyed _ _ known
  have built : ∃ f, Frame.build ⟨s.encoder.sequencer.advance.1, s.encoder.sender, 0⟩ payload
      m.fingerprint s.encoder.signer (s.clock.next now).1 = .ok f := by
    cases hb : Frame.build ⟨s.encoder.sequencer.advance.1, s.encoder.sender, 0⟩ payload
      m.fingerprint s.encoder.signer (s.clock.next now).1 with
    | ok f => exact ⟨f, rfl⟩
    | error e =>
      have small := m.maxLength_le
      rcases Frame.build_eq_error_iff.1 hb with ⟨large, -⟩ | ⟨-, long, -⟩
      · rw [version, id] at large
        exact absurd low (Nat.not_le.2 large)
      · exact absurd (Nat.le_trans fits small) (Nat.not_le.2 long)
  obtain ⟨f, hf⟩ := built
  obtain ⟨consistent, carried, sum⟩ := Frame.of_build hf
  refine ⟨f, { encoder := { s.encoder with sequencer := s.encoder.sequencer.advance.2 }
               clock := if f.signature.isSome then (s.clock.next now).2 else s.clock }, ?_,
    carried, ?_⟩
  · have same : ¬ payload.version ≠ s.encoder.version := fun other => other version
    unfold Transmitter.sendValue
    rw [known]
    simp only [h]
    show s.sendPayload now payload m.fingerprint = _
    unfold Transmitter.sendPayload
    rw [if_neg same]
    simp only [hf]
    rfl
  · rw [Frame.decode_eq_ok_iff]
    have number : f.messageId = v.id := by
      rw [← own, ← id, ← carried]
      exact consistent.id.symm
    obtain ⟨fingerprint, maxLength⟩ := lookup_of_known known
    refine ⟨List.prefix_append _ _, consistent, ⟨m.fingerprint, ?_, sum⟩, ?_⟩
    · rw [number]
      exact fingerprint
    · intro limit hlimit
      rw [number, maxLength] at hlimit
      cases hlimit
      rw [carried]
      exact fits

/-- **Messages there and back.**  Suppose that a message is encoded by the table of a
dialect for a version of the protocol.  Then the payload is decoded, and the receiver is
told just the fields of the message of that number in the dialect, of each the value that
it conveys.  It is told the same if any device that speaks this version sends the message
in a frame, whatever comes behind the frame.  A not-a-number stays one when it is rounded. -/
theorem values_there_and_back (d : Dialect) (v : MessageValue) (version : Version)
    (payload : Payload) (accepted : (ofDialect d).encode v version = .ok payload) :
    (∃ m told, m ∈ d.messages.values ∧ m.id = v.id ∧
      (ofDialect d).messages.find? v.id = some m ∧
      (ofDialect d).decode payload = .ok told ∧ m.Conveys version v told ∧
      ∀ (s : Transmitter) (now : Timestamp) (r : Bytes), s.encoder.version = version →
        ∃ f s', s.sendValue now (ofDialect d) v = .ok (f, s') ∧
          Frame.decode (f.toBytes ++ r) (ofDialect d).lookup = .ok f ∧
          (ofDialect d).decode f.payload = .ok told) ∧
    ∀ x : Binary64, x.isNaN = true → x.narrow.widen.isNaN = true := by
  have keyed := keyed_ofDialect d
  obtain ⟨m, told, known, decoded, conveyed, -, -, -, -⟩ := conveys_of_encode keyed accepted
  obtain ⟨listed, own⟩ := mem_of_find?_ofDialect known
  refine ⟨⟨m, told, listed, own, known, decoded, conveyed, ?_⟩,
    fun _ => Binary64.isNaN_widen_narrow⟩
  intro s now r speaks
  obtain ⟨f, s', sent, carried, read⟩ := exists_of_sendValue keyed (speaks ▸ accepted) now r
  refine ⟨f, s', sent, read, ?_⟩
  rw [carried]
  exact decoded

/-- A dialect of one message: a text, and a level that only the second version carries. -/
def notes : Dialect where
  name := "notes"
  version := none
  number := none
  includes := []
  messages := Dictionary.ofList [(7, ⟨7, "NOTE", none, false,
    [{ name := "text", type := .array .char 4 },
      { name := "level", type := .scalar .float, isExtension := true }], by decide⟩)]
  enums := ∅

/-- The layout of a note. -/
theorem exists_note : ∃ m, (ofDialect notes).messages.find? 7 = some m ∧
    m.fields = [{ name := "text", type := .array .char 4 },
      { name := "level", type := .scalar .float, isExtension := true }] ∧ m.baseLength = 4 := by
  have layout : ((ofDialect notes).messages.find? 7).map (·.fields)
      = some [{ name := "text", type := .array .char 4 },
        { name := "level", type := .scalar .float, isExtension := true }] := by decide +kernel
  obtain ⟨m, known, fields⟩ := Option.map_eq_some_iff.1 layout
  refine ⟨m, known, fields, ?_⟩
  rw [Message.baseLength, fields]
  rfl

/-- A short note whose level is one, as the second version sends it. -/
def noteBytes : Bytes := [0x61, 0x62, 0, 0, 0, 0, 0x80, 0x3F]

/-- A note without a level is sent in two bytes, and both its fields are told. -/
theorem note_there_and_back :
    (ofDialect notes).encode ⟨7, Dictionary.ofList [("text", .text "ab")]⟩ .v2
        = .ok ⟨7, .v2, [0x61, 0x62]⟩ ∧
      ∃ m told, m ∈ notes.messages.values ∧
        (ofDialect notes).decode ⟨7, .v2, [0x61, 0x62]⟩ = .ok told ∧
        m.Conveys .v2 ⟨7, Dictionary.ofList [("text", .text "ab")]⟩ told := by
  have accepted : (ofDialect notes).encode ⟨7, Dictionary.ofList [("text", .text "ab")]⟩ .v2
      = .ok ⟨7, .v2, [0x61, 0x62]⟩ := by
    have evaluated : ((ofDialect notes).encode ⟨7, Dictionary.ofList [("text", .text "ab")]⟩
        .v2).toOption = some ⟨7, .v2, [0x61, 0x62]⟩ := by decide +kernel
    generalize (ofDialect notes).encode _ _ = result at evaluated
    cases result with
    | error e => cases evaluated
    | ok p => exact congrArg Except.ok (Option.some.inj evaluated)
  obtain ⟨⟨m, told, listed, -, -, decoded, conveyed, -⟩, -⟩ :=
    values_there_and_back notes _ .v2 _ accepted
  exact ⟨accepted, m, told, listed, decoded, conveyed⟩

end Table
end Mavlink
