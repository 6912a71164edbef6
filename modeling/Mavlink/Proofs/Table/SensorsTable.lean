import Mathlib
import Mavlink.Proofs.Codegen.RustProgram
import Mavlink.Proofs.Schema.EnumMerging
import Mavlink.Proofs.Table.MessageRoundTrip
import Mavlink.Sensors

/-!
# The sensors dialect by name

The two messages of the sensors dialect are encoded and decoded by code of their own, which
knows their layout.  The dialect also has a definition file, and a table that is made of it
encodes and decodes the same messages with their fields given by name.  Neither of the two can
be told from the other by what it writes, by what it refuses and by what it reads.

A field has one value by name: an integer with a sign or without one as its type has it, and a
number of 32 bits widened.  So the kinds of the values are settled, and what is told of a payload
is compared as a whole.

* `SensorReport.table_encode`, `SensorReport.table_decode` --- reports;
* `SensorReset.table_encode`, `SensorReset.table_decode` --- requests;
* `Sensors.messages_of_definition` --- what the definition file says;
* `Sensors.codecs_agree` --- and the codecs agree with the table that is made of it.
-/

namespace Mavlink

/-! ## Values by name -/

/-- A message whose fields are given in a list. -/
def MessageValue.ofFields (id : MessageId) (values : List (String × Value)) : MessageValue :=
  ⟨id, Dictionary.ofList values⟩

/-- A codec that does what a table does with the fields given by name. -/
structure MessageCodec.Agrees {α : Type} (c : MessageCodec α) (toMessage : α → MessageValue)
    (Ordered : α → Prop) (t : Table) : Prop where
  /-- The numbers of the layout. -/
  layout : ∃ m, t.messages.find? c.id = some m ∧ m.id = c.id ∧ m.name = c.name ∧
    m.fingerprint = c.fingerprint ∧ m.baseLength = c.baseLength ∧ m.maxLength = c.maxLength
  /-- The same payload, or the same error. -/
  encode : ∀ a version, Ordered a → t.encode (toMessage a) version = c.encode a version
  /-- The same fields, or the same error. -/
  decode : ∀ p : Payload, p.id = c.id → t.decode p = (c.decode p).map toMessage

namespace PayloadReader

variable (r : PayloadReader)

theorem toUInt64_word_one : (UInt8.ofNat (r.word 1)).toUInt64 = UInt64.ofNat (r.word 1) :=
  UInt8.toUInt64_ofNat' (r.word_lt 1)

theorem toUInt64_word_two : (UInt16.ofNat (r.word 2)).toUInt64 = UInt64.ofNat (r.word 2) :=
  UInt16.toUInt64_ofNat' (r.word_lt 2)

theorem toUInt64_word_four : (UInt32.ofNat (r.word 4)).toUInt64 = UInt64.ofNat (r.word 4) :=
  UInt32.toUInt64_ofNat' (r.word_lt 4)

theorem toInt64_int_two : (Int16.ofInt (r.int 2)).toInt64 = Int64.ofInt (r.int 2) := by
  obtain ⟨low, high⟩ := Codegen.intOfWord_range (by decide) (r.word_lt 2)
  have low : -32768 ≤ r.int 2 := low
  have high : r.int 2 ≤ 32767 := high
  rw [← Int64.toInt_inj, Int16.toInt_toInt64, Int16.toInt_ofInt_of_le (by omega) (by omega),
    Int64.toInt_ofInt_of_le (by omega) (by omega)]

end PayloadReader

theorem Resolver.fetch_ofTexts {texts : Dictionary String String} {name text : String}
    (listed : texts.find? name = some text) : (ofTexts texts).fetch name = .ok text := by
  simp only [ofTexts, listed]
  rfl

namespace Table

section Writing

variable (message : String) (f : Field) (w : PayloadWriter)

/-- An integer in the range of its type is written. -/
theorem putPrimitive_of_range {p : Primitive} {value : Value} {n low high : Int}
    (number : p.isFloat = false) (given : value.toInt? = some n)
    (range : p.range? = some (low, high)) (above : low ≤ n) (below : n ≤ high) :
    putPrimitive message f p w value = .ok (w.putInt p.number n) := by
  simp only [putPrimitive, number, Bool.false_eq_true, if_false, given, range, Option.getD_some]
  exact if_neg (by omega)

theorem putPrimitive_uint {p : Primitive} (unsigned : p.isUnsigned = true) {n : UInt64}
    (fits : n.toNat < Nat.pow 256 p.size) :
    putPrimitive message f p w (.uint n) = .ok (w.putInt p.number n.toNat) :=
  putPrimitive_of_range message f w (Primitive.isFloat_of_isUnsigned unsigned) rfl
    (Primitive.range?_of_unsigned unsigned) (by omega) (by omega)

theorem putPrimitive_int16 (n : Int16) :
    putPrimitive message f .int16 w (.int n.toInt64) = .ok (w.putInt .i16 n.toInt) :=
  putPrimitive_of_range message f w rfl (congrArg some (Int16.toInt_toInt64 n))
    (show Primitive.int16.range? = some (-32768, 32767) by decide) n.le_toInt
    (Int.le_of_lt_add_one n.toInt_lt)

theorem putPrimitive_widen {x : Binary32} (ordered : x.isNaN = false) :
    putPrimitive message f .float w (.float x.widen) = .ok (w.putSingle x) := by
  have isFloat : Primitive.float.isFloat = true := rfl
  rw [putPrimitive, if_pos isFloat]
  simp only [Value.toFloat?, if_true, Binary32.exceedsSingle_widen ordered,
    Binary32.narrow_widen ordered, Bool.false_eq_true, if_false]

theorem foldlM_putPrimitive_int16 (ns : List Int16) :
    (ns.map fun n => Value.int n.toInt64).foldlM (putPrimitive message f .int16) w
      = .ok (ns.foldl (fun w n => w.putInt .i16 n.toInt) w) := by
  induction ns generalizing w with
  | nil => rfl
  | cons n ns ih =>
    rw [List.map_cons, List.foldlM_cons, putPrimitive_int16, List.foldl_cons]
    exact ih _

end Writing

variable {m : Message} {values : List (String × Value)}

/-- A field whose value is in the list is written from there. -/
theorem putField_of_mem (distinct : values.Pairwise fun a b => a.1 ≠ b.1) {f : Field}
    {value : Value} (given : (f.name, value) ∈ values) (message : String) (id : MessageId)
    (w : PayloadWriter) :
    putField message (.ofFields id values) w f = putValue message f w value := by
  have found : (MessageValue.ofFields id values).get? f.name = some value :=
    Dictionary.find?_ofList_of_mem distinct given
  rw [putField, found]

/-- A field without sign is written from the list. -/
theorem putField_uint (distinct : values.Pairwise fun a b => a.1 ≠ b.1) (f : Field) {p : Primitive}
    (type : f.type = .scalar p) (unsigned : p.isUnsigned = true) {n : UInt64}
    (given : (f.name, .uint n) ∈ values) (fits : n.toNat < Nat.pow 256 p.size) (message : String)
    (id : MessageId) (w : PayloadWriter) :
    putField message (.ofFields id values) w f = .ok (w.putInt p.number n.toNat) := by
  have scalar : putValue message f w (.uint n) = putPrimitive message f p w (.uint n) := by
    rw [putValue, type]
    cases p <;> first | rfl | cases unsigned
  rw [putField_of_mem distinct given, scalar, putPrimitive_uint message f w unsigned fits]

/-- A list of values for fields of a message is encoded field by field. -/
theorem encode_ofFields {t : Table} (known : t.messages.find? m.id = some m)
    (named : ∀ p ∈ values, (m.field? p.1).isSome = true) (version : Version) :
    t.encode (.ofFields m.id values) version
      = m.wireFields.foldlM (putField m.name (.ofFields m.id values)) (.start m.id m.baseLength)
          >>= (·.finish version) := by
  refine encode_eq known (fun name given => ?_) version
  obtain ⟨p, hp, rfl⟩ := List.mem_map.1 (Dictionary.mem_keys_ofList given)
  exact named p hp

end Table

/-! ## Reports -/

namespace SensorReport

/-- The values of the fields, in wire order. -/
def values (r : SensorReport) : List (String × Value) := [
  ("temperature", .float r.temperature.widen),
  ("offsets", .array (r.offsets.toList.map fun n => .int n.toInt64)),
  ("sensor_id", .uint r.sensorId.toUInt64),
  ("status", .uint r.status.toUInt64),
  ("label", .text r.label),
  ("capabilities", .uint r.capabilities.toUInt64),
  ("pressure", .float r.pressure)]

/-- The report with its fields given by name. -/
def toMessage (r : SensorReport) : MessageValue := .ofFields id r.values

def sensorIdField : Field :=
  { name := "sensor_id", type := .scalar .uint8, description := some "Sensor index." }

def statusField : Field :=
  { name := "status", type := .scalar .uint8, enum := some "SENSOR_STATUS",
    description := some "Health." }

def temperatureField : Field :=
  { name := "temperature", type := .scalar .float, units := some "degC",
    description := some "Temperature." }

def offsetsField : Field :=
  { name := "offsets", type := .array .int16 3, description := some "Calibration offsets." }

def labelField : Field :=
  { name := "label", type := .array .char 8, description := some "Sensor label." }

def capabilitiesField : Field :=
  { name := "capabilities", type := .scalar .uint32, isExtension := true,
    enum := some "SENSOR_CAPABILITY", description := some "Capabilities." }

def pressureField : Field :=
  { name := "pressure", type := .scalar .double, isExtension := true, units := some "Pa",
    description := some "Pressure." }

/-- The message of reports. -/
def message : Message where
  id := id
  name := name
  description := some "Reading of a single sensor."
  deprecated := false
  fields := [sensorIdField, statusField, temperatureField, offsetsField, labelField,
    capabilitiesField, pressureField]
  sound := by decide

theorem wireFields_message : message.wireFields = [temperatureField, offsetsField, sensorIdField,
    statusField, labelField, capabilitiesField, pressureField] := by cbv

theorem fingerprint_message : message.fingerprint = fingerprint := by cbv

theorem distinct_values (r : SensorReport) : r.values.Pairwise fun a b => a.1 ≠ b.1 := by
  have names : ["temperature", "offsets", "sensor_id", "status", "label", "capabilities",
      "pressure"].Pairwise (· ≠ ·) := by decide
  exact List.pairwise_map.1 (show (r.values.map (·.1)).Pairwise (· ≠ ·) from names)

theorem named_values (r : SensorReport) : ∀ p ∈ r.values, (message.field? p.1).isSome = true := by
  have names : ∀ name ∈ ["temperature", "offsets", "sensor_id", "status", "label",
      "capabilities", "pressure"], (message.field? name).isSome = true := by decide
  exact fun p hp => names p.1 (List.mem_map.2 ⟨p, hp, rfl⟩)

/-- **A table encodes a report** as it is encoded without one. -/
theorem table_encode {t : Table} (known : t.messages.find? id = some message) {r : SensorReport}
    (ordered : r.temperature.isNaN = false) (version : Version) :
    t.encode r.toMessage version = r.encode version := by
  have put {f : Field} (w : PayloadWriter) (value : Value) (given : (f.name, value) ∈ r.values) :
      Table.putField name r.toMessage w f = Table.putValue name f w value :=
    Table.putField_of_mem r.distinct_values given name id w
  have temperature (w : PayloadWriter) : Table.putField name r.toMessage w temperatureField
      = .ok (w.putSingle r.temperature) := by
    rw [put w (.float r.temperature.widen) (by simp [values, temperatureField])]
    exact Table.putPrimitive_widen name temperatureField w ordered
  have offsets (w : PayloadWriter) : Table.putField name r.toMessage w offsetsField
      = .ok (r.offsets.toList.foldl (fun w n => w.putInt .i16 n.toInt) w) := by
    have three : (r.offsets.toList.map fun n => Value.int n.toInt64).length = 3 := by simp
    rw [← Table.foldlM_putPrimitive_int16 name offsetsField,
      put w _ (List.mem_cons_of_mem _ List.mem_cons_self)]
    exact if_neg (not_not_intro three)
  have sensorId (w : PayloadWriter) : Table.putField name r.toMessage w sensorIdField
      = .ok (w.putInt .u8 r.sensorId.toNat) :=
    Table.putField_uint r.distinct_values sensorIdField rfl rfl
      (show (sensorIdField.name, .uint r.sensorId.toUInt64) ∈ r.values by simp [values, sensorIdField])
      r.sensorId.toNat_lt name id w
  have status (w : PayloadWriter) : Table.putField name r.toMessage w statusField
      = .ok (w.putInt .u8 r.status.toNat) :=
    Table.putField_uint r.distinct_values statusField rfl rfl
      (show (statusField.name, .uint r.status.toUInt64) ∈ r.values by simp [values, statusField])
      r.status.toNat_lt name id w
  have label (w : PayloadWriter) : Table.putField name r.toMessage w labelField
      = w.putText name "label" r.label 8 :=
    put w (.text r.label) (by simp [values, labelField])
  have capabilities (w : PayloadWriter) : Table.putField name r.toMessage w capabilitiesField
      = .ok (w.putInt .u32 r.capabilities.toNat) :=
    Table.putField_uint r.distinct_values capabilitiesField rfl rfl
      (show (capabilitiesField.name, .uint r.capabilities.toUInt64) ∈ r.values by simp [values, capabilitiesField])
      r.capabilities.toNat_lt name id w
  have pressure (w : PayloadWriter) : Table.putField name r.toMessage w pressureField
      = .ok (w.putDouble r.pressure) :=
    put w (.float r.pressure) (by simp [values, pressureField])
  have fields := Table.encode_ofFields known r.named_values version
  rw [wireFields_message] at fields
  refine fields.trans ?_
  show (List.foldlM (Table.putField name r.toMessage) _ _ >>= _) = _
  simp only [List.foldlM_cons, List.foldlM_nil, temperature, offsets, sensorId, status, label,
    capabilities, pressure, bind_assoc]
  rfl

/-- What a table reads of a report. -/
theorem readFields_message (r : PayloadReader) :
    Table.readFields r message.wireFields = values {
      temperature := r.single
      offsets := Vector.ofFn fun i => Int16.ofInt ((r.skip (4 + 2 * i)).int 2)
      sensorId := UInt8.ofNat ((r.skip 10).word 1)
      status := UInt8.ofNat ((r.skip 11).word 1)
      label := (r.skip 12).text 8
      capabilities := UInt32.ofNat ((r.skip 20).word 4)
      pressure := (r.skip 24).double } := by
  have offset (i : Nat) : Table.readPrimitive ((r.skip 4).skip (i * Primitive.int16.size)) .int16
      = .int (Int64.ofInt ((r.skip (4 + 2 * i)).int 2)) := by
    rw [PayloadReader.skip_skip, Nat.mul_comm]
    rfl
  have offsets : Table.readValue (r.skip 4) (.array .int16 3) = .array
      ((Vector.ofFn fun i : Fin 3 => Int16.ofInt ((r.skip (4 + 2 * i)).int 2)).toList.map
        fun n => .int n.toInt64) := by
    rw [Table.readValue_array (by decide)]
    simp only [offset, Vector.toList_ofFn, List.map_ofFn, Function.comp_def,
      PayloadReader.toInt64_int_two]
    rfl
  rw [wireFields_message]
  simp only [values, PayloadReader.toUInt64_word_one, PayloadReader.toUInt64_word_four, ← offsets,
    Table.readFields, PayloadReader.skip_skip]
  rfl

/-- **A table decodes a report** as it is decoded without one. -/
theorem table_decode {t : Table} (known : t.messages.find? id = some message) {p : Payload}
    (own : p.id = id) : t.decode p = (decode p).map toMessage := by
  have limit : message.maxLength = maxLength := by decide
  unfold Table.decode decode
  rw [own, known]
  simp only [limit]
  cases PayloadReader.start p maxLength with
  | error e => rfl
  | ok r => exact congrArg (Except.ok ∘ MessageValue.ofFields id) (readFields_message r)

end SensorReport

/-! ## Requests -/

namespace SensorReset

/-- The values of the fields, in wire order. -/
def values (r : SensorReset) : List (String × Value) := [
  ("delay", .uint r.delay.toUInt64),
  ("type", .uint r.type.toUInt64)]

/-- The request with its fields given by name. -/
def toMessage (r : SensorReset) : MessageValue := .ofFields id r.values

def typeField : Field :=
  { name := "type", type := .scalar .uint8, description := some "Sensor type." }

def delayField : Field :=
  { name := "delay", type := .scalar .uint16, units := some "ms" }

/-- The message of requests. -/
def message : Message where
  id := id
  name := name
  description := none
  deprecated := true
  fields := [typeField, delayField]
  sound := by decide

theorem wireFields_message : message.wireFields = [delayField, typeField] := by cbv

theorem fingerprint_message : message.fingerprint = fingerprint := by cbv

theorem distinct_values (r : SensorReset) : r.values.Pairwise fun a b => a.1 ≠ b.1 := by
  simp [values]

theorem named_values (r : SensorReset) : ∀ p ∈ r.values, (message.field? p.1).isSome = true := by
  have names : ∀ name ∈ ["delay", "type"], (message.field? name).isSome = true := by decide
  exact fun p hp => names p.1 (List.mem_map.2 ⟨p, hp, rfl⟩)

/-- **A table encodes a request** as it is encoded without one. -/
theorem table_encode {t : Table} (known : t.messages.find? id = some message) (r : SensorReset)
    (version : Version) : t.encode r.toMessage version = r.encode version := by
  have delay (w : PayloadWriter) : Table.putField name r.toMessage w delayField
      = .ok (w.putInt .u16 r.delay.toNat) :=
    Table.putField_uint r.distinct_values delayField rfl rfl
      (show (delayField.name, .uint r.delay.toUInt64) ∈ r.values by simp [values, delayField])
      r.delay.toNat_lt name id w
  have type (w : PayloadWriter) : Table.putField name r.toMessage w typeField
      = .ok (w.putInt .u8 r.type.toNat) :=
    Table.putField_uint r.distinct_values typeField rfl rfl
      (show (typeField.name, .uint r.type.toUInt64) ∈ r.values by simp [values, typeField])
      r.type.toNat_lt name id w
  have fields := Table.encode_ofFields known r.named_values version
  rw [wireFields_message] at fields
  refine fields.trans ?_
  show (List.foldlM (Table.putField name r.toMessage) _ _ >>= _) = _
  simp only [List.foldlM_cons, List.foldlM_nil, delay, type]
  rfl

/-- **A table decodes a request** as it is decoded without one. -/
theorem table_decode {t : Table} (known : t.messages.find? id = some message) {p : Payload}
    (own : p.id = id) : t.decode p = (decode p).map toMessage := by
  have limit : message.maxLength = maxLength := by decide
  unfold Table.decode decode
  rw [own, known]
  simp only [limit]
  cases PayloadReader.start p maxLength with
  | error e => rfl
  | ok r =>
    have read : Table.readFields r message.wireFields = values {
        delay := UInt16.ofNat (r.word 2)
        type := UInt8.ofNat ((r.skip 2).word 1) } := by
      rw [wireFields_message]
      simp only [values, PayloadReader.toUInt64_word_one, PayloadReader.toUInt64_word_two]
      rfl
    exact congrArg (Except.ok ∘ MessageValue.ofFields id) read

end SensorReset

/-! ## The definition file -/

namespace Sensors

/-- The lines of the definition file. -/
def definitionLines : List String := [
  "<?xml version=\"1.0\"?>",
  "<mavlink>",
  "  <version>2</version>",
  "  <dialect>7</dialect>",
  "  <enums>",
  "    <enum name=\"SENSOR_STATUS\">",
  "      <description>Health of a sensor.</description>",
  "      <entry value=\"0\" name=\"SENSOR_STATUS_OK\">",
  "        <description>Sensor is healthy.</description>",
  "      </entry>",
  "      <entry value=\"1\" name=\"SENSOR_STATUS_DEGRADED\"/>",
  "      <entry value=\"2\" name=\"SENSOR_STATUS_FAILED\"/>",
  "    </enum>",
  "    <enum name=\"SENSOR_CAPABILITY\" bitmask=\"true\">",
  "      <entry value=\"1\" name=\"SENSOR_CAPABILITY_TEMPERATURE\"/>",
  "      <entry value=\"2\" name=\"SENSOR_CAPABILITY_PRESSURE\"/>",
  "    </enum>",
  "  </enums>",
  "  <messages>",
  "    <message id=\"200\" name=\"SENSOR_REPORT\">",
  "      <description>Reading of a single sensor.</description>",
  "      <field type=\"uint8_t\" name=\"sensor_id\">Sensor index.</field>",
  "      <field type=\"uint8_t\" name=\"status\" enum=\"SENSOR_STATUS\">Health.</field>",
  "      <field type=\"float\" name=\"temperature\" units=\"degC\">Temperature.</field>",
  "      <field type=\"int16_t[3]\" name=\"offsets\">Calibration offsets.</field>",
  "      <field type=\"char[8]\" name=\"label\">Sensor label.</field>",
  "      <extensions/>",
  "      <field type=\"uint32_t\" name=\"capabilities\" enum=\"SENSOR_CAPABILITY\">Capabilities.</field>",
  "      <field type=\"double\" name=\"pressure\" units=\"Pa\">Pressure.</field>",
  "    </message>",
  "    <message id=\"201\" name=\"SENSOR_RESET\">",
  "      <deprecated since=\"2024-01\" replaced_by=\"SENSOR_REPORT\"/>",
  "      <field type=\"uint8_t\" name=\"type\">Sensor type.</field>",
  "      <field type=\"uint16_t\" name=\"delay\" units=\"ms\"/>",
  "    </message>",
  "  </messages>",
  "</mavlink>"]

/-- The text of the definition file. -/
def definition : String := String.join (definitionLines.map (· ++ "\n"))

theorem toList_definition :
    definition.toList = (definitionLines.map String.toList).flatMap (· ++ ['\n']) := by
  simp [definition, String.toList_join, List.flatMap_map]

/-- **The messages of the definition file** are those that have types of their own. -/
theorem messages_of_definition : (Definition.read "sensors.xml" definition).map (fun d =>
      (d.includes, (Dialect.ofDefinitions "sensors" [("sensors.xml", d)]).map fun d =>
        ((Table.ofDialect d).messages.find? SensorReport.id,
          (Table.ofDialect d).messages.find? SensorReset.id)))
    = .ok ([], .ok (some SensorReport.message, some SensorReset.message)) := by
  unfold Definition.read
  rw [toList_definition]
  -- the characters of a line are named before anything is evaluated: a string is made of bytes
  simp only [definitionLines, List.map_cons, List.map_nil]
  repeat rw [String.toList_ofList]
  decide +kernel

/-- **The codecs of the sensors dialect agree with its table.**  Suppose that the definition file
of the dialect is found.  Then the dialect is loaded, and its table encodes a report or a request
with its fields given by name as it is encoded without a table: the payload is the same for either
version, or the error is.  Only a temperature that is not a number is left out.  Of a payload, of
whatever version, length and bytes, the table tells the same fields, or refuses it with the same
error. -/
theorem codecs_agree (r : Resolver) (found : r.fetch "sensors.xml" = .ok definition) :
    ∃ d, Dialect.load r "sensors.xml" = some (.ok d) ∧
      SensorReport.codec.Agrees SensorReport.toMessage (·.temperature.isNaN = false)
        (Table.ofDialect d) ∧
      SensorReset.codec.Agrees SensorReset.toMessage (fun _ => True) (Table.ofDialect d) := by
  obtain ⟨contents, read, told⟩ := exists_of_map_eq_ok messages_of_definition
  obtain ⟨alone, made⟩ := Prod.mk.inj told
  have own : r.definition "sensors.xml" = .ok contents := by
    rw [Resolver.definition, found]
    exact (pure_bind definition _).trans read
  have trimmed : Text.trimmed "sensors.xml" = "sensors.xml" := by decide +kernel
  have named : Dialect.nameOf "sensors.xml" = "sensors" := by decide +kernel
  have merged : (r.definition "sensors.xml" >>= fun d =>
      Dialect.ofDefinitions (Dialect.nameOf "sensors.xml") [("sensors.xml", d)]).map (fun d =>
        ((Table.ofDialect d).messages.find? SensorReport.id,
          (Table.ofDialect d).messages.find? SensorReset.id))
      = .ok (some SensorReport.message, some SensorReset.message) := by
    rw [own, named]
    exact made
  obtain ⟨_, d, -, -, loaded, known⟩ := Dialect.exists_load_of_no_includes trimmed
    (by rw [own]; exact congrArg Except.ok alone) merged
  obtain ⟨report, reset⟩ := Prod.mk.inj known
  refine ⟨d, loaded, ?_, ?_⟩
  · exact {
      layout := ⟨_, report, rfl, rfl, SensorReport.fingerprint_message, by decide, by decide⟩
      encode := fun _ version ordered => SensorReport.table_encode report ordered version
      decode := fun _ own => SensorReport.table_decode report own }
  · exact {
      layout := ⟨_, reset, rfl, rfl, SensorReset.fingerprint_message, by decide, by decide⟩
      encode := fun a version _ => SensorReset.table_encode reset a version
      decode := fun _ own => SensorReset.table_decode reset own }

/-- The table of the definition file encodes a report of one degree from the sensor 1, which has
a label of two letters and an offset below zero. -/
theorem report_encoded_by_table :
    (Resolver.ofTexts (.ofList [("sensors.xml", definition)])).fetch "sensors.xml"
        = .ok definition ∧
      ∃ d, Dialect.load (.ofTexts (.ofList [("sensors.xml", definition)])) "sensors.xml"
          = some (.ok d) ∧
        (Table.ofDialect d).encode (SensorReport.toMessage
            { sensorId := 1, temperature := ⟨0x3F800000⟩, offsets := #v[0, -1, 0], label := "ab" })
            .v2
          = .ok ⟨200, .v2, [0, 0, 0x80, 0x3F, 0, 0, 0xFF, 0xFF, 0, 0, 1, 0, 0x61, 0x62]⟩ := by
  have found : (Resolver.ofTexts (.ofList [("sensors.xml", definition)])).fetch "sensors.xml"
      = .ok definition :=
    Resolver.fetch_ofTexts
      (Dictionary.find?_ofList_of_mem (List.pairwise_singleton ..) List.mem_cons_self)
  obtain ⟨d, loaded, report, -⟩ := codecs_agree _ found
  refine ⟨found, d, loaded, ?_⟩
  rw [report.encode _ .v2 (by decide +kernel)]
  decide +kernel

end Sensors
end Mavlink
