import Mathlib
import Mavlink.Proofs.Mission.FileRoundTrip
import Mavlink.Proofs.Table.ListedValues

/-!
# Mission items in messages

An item names the fields of the message that carries it, and a table that was loaded from a
definition file checks them, puts them in the order in which they are sent, and reads them back by
name.  That the two agree is a matter of the definition file: all names are those of its fields,
and all numbers but the decimals fit.  Decimals are rounded to 32 bits, and one that exceeds these
is refused.

* `MissionItem.message_of_definition` --- the message of the definition file;
* `MissionItem.admits_iff`, `MissionItem.conveys` --- the items that it accepts, and what it tells;
* `MissionItem.Tells` --- a message that tells an item, name by name;
* `MissionItem.travels` --- items in payloads.
-/

namespace Mavlink

namespace MissionItem

/-! ## The message -/

/-- The message of the common dialect that carries an item. -/
def message : Message where
  id := messageId
  name := "MISSION_ITEM"
  description := some "Message encoding a mission item."
  deprecated := true
  fields := [
    { name := "target_system", type := .scalar .uint8, description := some "System ID" },
    { name := "target_component", type := .scalar .uint8, description := some "Component ID" },
    { name := "seq", type := .scalar .uint16, description := some "Sequence" },
    { name := "frame", type := .scalar .uint8, enum := some "MAV_FRAME",
      description := some "The coordinate system of the waypoint." },
    { name := "command", type := .scalar .uint16, enum := some "MAV_CMD",
      description := some "The scheduled action for the waypoint." },
    { name := "current", type := .scalar .uint8, description := some "false:0, true:1" },
    { name := "autocontinue", type := .scalar .uint8,
      description := some "Autocontinue to next waypoint" },
    { name := "param1", type := .scalar .float, description := some "PARAM1, see MAV_CMD enum" },
    { name := "param2", type := .scalar .float, description := some "PARAM2, see MAV_CMD enum" },
    { name := "param3", type := .scalar .float, description := some "PARAM3, see MAV_CMD enum" },
    { name := "param4", type := .scalar .float, description := some "PARAM4, see MAV_CMD enum" },
    { name := "x", type := .scalar .float,
      description := some "PARAM5 / local: X coordinate, global: latitude" },
    { name := "y", type := .scalar .float,
      description := some "PARAM6 / local: Y coordinate, global: longitude" },
    { name := "z", type := .scalar .float,
      description := some "PARAM7 / local: Z coordinate, global: altitude" },
    { name := "mission_type", type := .scalar .uint8, isExtension := true,
      enum := some "MAV_MISSION_TYPE", description := some "Mission type." }]
  sound := by decide

variable (i : MissionItem) (target : Address) (type : UInt8)

/-- The values of the fields. -/
def values : List (String × Value) := [
  ("target_system", .uint target.system.toUInt64),
  ("target_component", .uint target.component.toUInt64),
  ("seq", .uint i.seq.toUInt64),
  ("frame", .uint i.frame.toUInt64),
  ("command", .uint i.command.toUInt64),
  ("current", .uint i.current.toUInt64),
  ("autocontinue", .uint i.autocontinue.toUInt64),
  ("param1", .float i.param1),
  ("param2", .float i.param2),
  ("param3", .float i.param3),
  ("param4", .float i.param4),
  ("x", .float i.x),
  ("y", .float i.y),
  ("z", .float i.z),
  ("mission_type", .uint type.toUInt64)]

theorem map_fst_values : (i.values target type).map (·.1) = message.fields.map (·.name) := rfl

variable {i target type}

/-- What a decimal is after it is sent. -/
def sent (i : MissionItem) : MissionItem := i.mapDecimals fun x => x.narrow.widen

/-- **The items that are accepted** have no decimal that exceeds 32 bits. -/
theorem admits_iff {version : Version} : message.Admits version (i.toMessage target type)
    ↔ ∀ x ∈ i.decimals, x.exceedsSingle = false := by
  refine (Message.admits_ofFields_iff (m := message) (map_fst_values i target type)
    (by decide)).trans ?_
  simp only [message, values, decimals, List.forall₂_cons, List.forall₂_nil_right_iff,
    List.forall_mem_cons, FieldType.admits_byte, FieldType.admits_short,
    FieldType.admits_single_iff, List.not_mem_nil, false_imp_iff, implies_true, true_and, and_true]

/-- **What is told of an item.** -/
theorem conveys {version : Version} : message.Conveys version (i.toMessage target type)
    (i.sent.toMessage target (if version = .v1 then 0 else type)) := by
  have byte {f : Field} (type : f.type = .scalar .uint8) (base : f.isExtension = false)
      (n : UInt8) : f.Conveys version (some (.uint n.toUInt64)) (.uint n.toUInt64) :=
    f.conveys_base base (type ▸ FieldType.conveys_uint rfl n.toUInt64)
  have short {f : Field} (type : f.type = .scalar .uint16) (base : f.isExtension = false)
      (n : UInt16) : f.Conveys version (some (.uint n.toUInt64)) (.uint n.toUInt64) :=
    f.conveys_base base (type ▸ FieldType.conveys_uint rfl n.toUInt64)
  have decimal {f : Field} (type : f.type = .scalar .float) (base : f.isExtension = false)
      (x : Binary64) : f.Conveys version (some (.float x)) (.float x.narrow.widen) :=
    f.conveys_base base (type ▸ FieldType.conveys_single x)
  have last {f : Field} (kind : f.type = .scalar .uint8) (extension : f.isExtension = true) :
      f.Conveys version (some (.uint type.toUInt64))
        (.uint (if version = .v1 then 0 else type).toUInt64) := by
    unfold Field.Conveys
    cases version with
    | v1 =>
      rw [if_pos ⟨rfl, extension⟩, kind]
      rfl
    | v2 =>
      rw [if_neg f.carried_v2, kind]
      exact FieldType.conveys_uint rfl type.toUInt64
  exact Message.conveys_ofFields (m := message) (map_fst_values i target type)
    (map_fst_values i.sent target _) <|
    .cons (byte rfl rfl target.system) <| .cons (byte rfl rfl target.component) <|
    .cons (short rfl rfl i.seq) <| .cons (byte rfl rfl i.frame) <|
    .cons (short rfl rfl i.command) <| .cons (byte rfl rfl i.current) <|
    .cons (byte rfl rfl i.autocontinue) <| .cons (decimal rfl rfl i.param1) <|
    .cons (decimal rfl rfl i.param2) <| .cons (decimal rfl rfl i.param3) <|
    .cons (decimal rfl rfl i.param4) <| .cons (decimal rfl rfl i.x) <|
    .cons (decimal rfl rfl i.y) <| .cons (decimal rfl rfl i.z) <| .cons (last rfl rfl) .nil

/-- A message that tells an item for a target, each value under the name of its field.  Decimals
are as they are in 32 bits. -/
structure Tells (told : MessageValue) (i : MissionItem) (target : Address) (type : UInt8) :
    Prop where
  id : told.id = 39
  targetSystem : told.get? "target_system" = some (.uint target.system.toUInt64)
  targetComponent : told.get? "target_component" = some (.uint target.component.toUInt64)
  seq : told.get? "seq" = some (.uint i.seq.toUInt64)
  frame : told.get? "frame" = some (.uint i.frame.toUInt64)
  command : told.get? "command" = some (.uint i.command.toUInt64)
  current : told.get? "current" = some (.uint i.current.toUInt64)
  autocontinue : told.get? "autocontinue" = some (.uint i.autocontinue.toUInt64)
  param1 : told.get? "param1" = some (.float i.param1.narrow.widen)
  param2 : told.get? "param2" = some (.float i.param2.narrow.widen)
  param3 : told.get? "param3" = some (.float i.param3.narrow.widen)
  param4 : told.get? "param4" = some (.float i.param4.narrow.widen)
  x : told.get? "x" = some (.float i.x.narrow.widen)
  y : told.get? "y" = some (.float i.y.narrow.widen)
  z : told.get? "z" = some (.float i.z.narrow.widen)
  missionType : told.get? "mission_type" = some (.uint type.toUInt64)
  /-- Nothing else is told. -/
  only : ∀ name value, told.get? name = some value → name ∈ message.fields.map (·.name)

/-- A message of an item has each value under the name that it is listed with. -/
theorem get?_toMessage {name : String} {value : Value} (h : (name, value) ∈ i.values target type) :
    (i.toMessage target type).get? name = some value := by
  have distinct : ((i.values target type).map (·.1)).Pairwise (· ≠ ·) := by
    rw [map_fst_values]
    decide
  exact Dictionary.find?_ofList_of_mem (List.pairwise_map.1 distinct) h

/-- What is told of an item tells it. -/
theorem tells_sent : Tells (i.sent.toMessage target type) i target type where
  id := rfl
  targetSystem := get?_toMessage (by simp [values])
  targetComponent := get?_toMessage (by simp [values])
  seq := get?_toMessage (by simp [values, sent, mapDecimals])
  frame := get?_toMessage (by simp [values, sent, mapDecimals])
  command := get?_toMessage (by simp [values, sent, mapDecimals])
  current := get?_toMessage (by simp [values, sent, mapDecimals])
  autocontinue := get?_toMessage (by simp [values, sent, mapDecimals])
  param1 := get?_toMessage (by simp [values, sent, mapDecimals])
  param2 := get?_toMessage (by simp [values, sent, mapDecimals])
  param3 := get?_toMessage (by simp [values, sent, mapDecimals])
  param4 := get?_toMessage (by simp [values, sent, mapDecimals])
  x := get?_toMessage (by simp [values, sent, mapDecimals])
  y := get?_toMessage (by simp [values, sent, mapDecimals])
  z := get?_toMessage (by simp [values, sent, mapDecimals])
  missionType := get?_toMessage (by simp [values])
  only name value given := by
    rw [← map_fst_values i.sent target type]
    exact List.mem_map.2 ⟨_, Dictionary.mem_of_find?_ofList given, rfl⟩

/-- **Items travel in messages.**  Suppose that a dialect has the message of the common dialect that
carries items.  Then its table encodes an item just if none of its decimals is a finite number that
exceeds 32 bits.  Whatever is encoded has the number of the message, and what is decoded tells the
same item, name by name, with each decimal rounded to 32 bits, for the same target; the second
version tells the type of the mission too, and the first tells zero for it. -/
theorem travels {d : Dialect} {m : Message}
    (known : (Table.ofDialect d).messages.find? messageId = some m) (layout : m.SameLayout message)
    (i : MissionItem) (target : Address) (type : UInt8) (version : Version) :
    ((∃ p, (Table.ofDialect d).encode (i.toMessage target type) version = .ok p)
        ↔ ∀ x ∈ i.decimals, x.exceedsSingle = false) ∧
      ∀ p, (Table.ofDialect d).encode (i.toMessage target type) version = .ok p →
        p.id = messageId ∧ p.version = version ∧
          ∃ told, (Table.ofDialect d).decode p = .ok told ∧
            Tells told i target (if version = .v1 then 0 else type) := by
  have own : m.id = messageId := layout.1
  constructor
  · exact (Table.exists_encode_iff own known).trans
      (Iff.trans ⟨layout.admits, layout.symm.admits⟩ admits_iff)
  · intro p encoded
    obtain ⟨m', told, known', decoded, conveyed, id, same_version, -⟩ :=
      Table.conveys_of_encode (Table.keyed_ofDialect d) encoded
    obtain rfl : m = m' := Option.some.inj (known.symm.trans known')
    refine ⟨id.trans own, same_version, told, decoded, ?_⟩
    rw [conveyed.eq (layout.symm.conveys conveys)]
    exact tells_sent

/-! ## The definition file -/

/-- The lines of a definition file of the message, with the enumerations that it refers to but for
their entries. -/
def definitionLines : List String := [
  "<mavlink>",
  "  <enums>",
  "    <enum name=\"MAV_FRAME\"/>",
  "    <enum name=\"MAV_CMD\"/>",
  "    <enum name=\"MAV_MISSION_TYPE\"/>",
  "  </enums>",
  "  <messages>",
  "    <message id=\"39\" name=\"MISSION_ITEM\">",
  "      <deprecated since=\"2020-06\" replaced_by=\"MISSION_ITEM_INT\">Superseded by MISSION_ITEM_INT.</deprecated>",
  "      <description>Message encoding a mission item.</description>",
  "      <field type=\"uint8_t\" name=\"target_system\">System ID</field>",
  "      <field type=\"uint8_t\" name=\"target_component\">Component ID</field>",
  "      <field type=\"uint16_t\" name=\"seq\">Sequence</field>",
  "      <field type=\"uint8_t\" name=\"frame\" enum=\"MAV_FRAME\">The coordinate system of the waypoint.</field>",
  "      <field type=\"uint16_t\" name=\"command\" enum=\"MAV_CMD\">The scheduled action for the waypoint.</field>",
  "      <field type=\"uint8_t\" name=\"current\">false:0, true:1</field>",
  "      <field type=\"uint8_t\" name=\"autocontinue\">Autocontinue to next waypoint</field>",
  "      <field type=\"float\" name=\"param1\">PARAM1, see MAV_CMD enum</field>",
  "      <field type=\"float\" name=\"param2\">PARAM2, see MAV_CMD enum</field>",
  "      <field type=\"float\" name=\"param3\">PARAM3, see MAV_CMD enum</field>",
  "      <field type=\"float\" name=\"param4\">PARAM4, see MAV_CMD enum</field>",
  "      <field type=\"float\" name=\"x\">PARAM5 / local: X coordinate, global: latitude</field>",
  "      <field type=\"float\" name=\"y\">PARAM6 / local: Y coordinate, global: longitude</field>",
  "      <field type=\"float\" name=\"z\">PARAM7 / local: Z coordinate, global: altitude</field>",
  "      <extensions/>",
  "      <field type=\"uint8_t\" name=\"mission_type\" enum=\"MAV_MISSION_TYPE\">Mission type.</field>",
  "    </message>",
  "  </messages>",
  "</mavlink>"]

/-- The text of these lines. -/
def definition : String := String.join (definitionLines.map (· ++ "\n"))

theorem toList_definition :
    definition.toList = (definitionLines.map String.toList).flatMap (· ++ ['\n']) := by
  simp [definition, String.toList_join, List.flatMap_map]

/-- **The message of the definition file.** -/
theorem message_of_definition : (Definition.read "common.xml" definition >>= fun contents =>
      Dialect.ofDefinitions "common" [("common.xml", contents)]).map (fun d =>
        (Table.ofDialect d).messages.find? messageId) = .ok (some message) := by
  unfold Definition.read
  rw [toList_definition]
  -- the characters of a line are named before anything is evaluated: a string is made of bytes
  simp only [definitionLines, List.map_cons, List.map_nil]
  repeat rw [String.toList_ofList]
  decide +kernel

/-- An item with a value of its own in each field: one of its parameters is infinite, and its
latitude has no exact value in 32 bits. -/
def surveyPoint : MissionItem where
  seq := 5
  current := 1
  frame := 3
  command := Command.waypoint
  param1 := .infinity true
  param2 := .ofInt 2
  param3 := .ofInt 3
  param4 := .ofInt 4
  x := .ofRatio false 1 10
  y := .ofInt 6
  z := .ofInt 7
  autocontinue := 9

/-- It is told name by name, in the first version without the type of the mission; with a coordinate
that exceeds 32 bits it is refused. -/
theorem travels_by_definition : ∃ d, (Definition.read "common.xml" definition >>= fun contents =>
        Dialect.ofDefinitions "common" [("common.xml", contents)]) = .ok d ∧
      (Table.ofDialect d).messages.find? messageId = some message ∧ message.SameLayout message ∧
      (∃ p told, (Table.ofDialect d).encode (surveyPoint.toMessage ⟨1, 190⟩ 2) .v1 = .ok p ∧
        (Table.ofDialect d).decode p = .ok told ∧ told.id = 39 ∧
        ["target_system", "target_component", "seq", "frame", "command", "current",
          "autocontinue"].map told.get? = [1, 190, 5, 3, 16, 1, 9].map (some ∘ Value.uint) ∧
        ["param1", "param2", "param3", "param4", "x", "y", "z"].map told.get?
          = [0xFFF0000000000000, 0x4000000000000000, 0x4008000000000000, 0x4010000000000000,
              0x3FB99999A0000000, 0x4018000000000000, 0x401C000000000000].map
            (some ∘ Value.float ∘ Binary64.mk) ∧
        told.get? "mission_type" = some (.uint 0)) ∧
      (∃ p told, (Table.ofDialect d).encode (surveyPoint.toMessage ⟨1, 190⟩ 2) .v2 = .ok p ∧
        (Table.ofDialect d).decode p = .ok told ∧
        told.get? "mission_type" = some (.uint 2)) ∧
      ∀ p, (Table.ofDialect d).encode
        ({ surveyPoint with y := .ofInt (10 ^ 39) }.toMessage ⟨1, 190⟩ 2) .v2 ≠ .ok p := by
  obtain ⟨d, loaded, known⟩ := exists_of_map_eq_ok message_of_definition
  have layout := Message.SameLayout.refl message
  have within : ∀ x ∈ surveyPoint.decimals, x.exceedsSingle = false := by decide +kernel
  obtain ⟨accepted, told⟩ := travels known layout surveyPoint ⟨1, 190⟩ 2 .v1
  obtain ⟨p, encoded⟩ := accepted.2 within
  obtain ⟨-, -, v, decoded, tells⟩ := told p encoded
  obtain ⟨accepted', told'⟩ := travels known layout surveyPoint ⟨1, 190⟩ 2 .v2
  obtain ⟨p', encoded'⟩ := accepted'.2 within
  obtain ⟨-, -, v', decoded', tells'⟩ := told' p' encoded'
  have decimals : surveyPoint.decimals.map (fun x => x.narrow.widen)
      = [0xFFF0000000000000, 0x4000000000000000, 0x4008000000000000, 0x4010000000000000,
          0x3FB99999A0000000, 0x4018000000000000, 0x401C000000000000].map Binary64.mk := by
    decide +kernel
  refine ⟨d, loaded, known, layout, ⟨p, v, encoded, decoded, tells.id, ?_, ?_, tells.missionType⟩,
    ⟨p', v', encoded', decoded', tells'.missionType⟩, fun p large => ?_⟩
  · simp only [List.map_cons, List.map_nil, tells.targetSystem, tells.targetComponent, tells.seq,
      tells.frame, tells.command, tells.current, tells.autocontinue]
    rfl
  · have listed : ["param1", "param2", "param3", "param4", "x", "y", "z"].map v.get?
        = (surveyPoint.decimals.map fun x => x.narrow.widen).map (some ∘ Value.float) := by
      simp only [List.map_cons, List.map_nil, tells.param1, tells.param2, tells.param3,
        tells.param4, tells.x, tells.y, tells.z]
      rfl
    rw [listed, decimals, List.map_map]
    rfl
  · have refused := (travels known layout { surveyPoint with y := .ofInt (10 ^ 39) } ⟨1, 190⟩ 2
      .v2).1.1 ⟨p, large⟩
    exact absurd refused (by decide +kernel)

end MissionItem

end Mavlink
