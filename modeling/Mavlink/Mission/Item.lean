import Mavlink.Value
import Mavlink.Wire.Address

/-!
# Mission items

A mission is a list of items, each a command with its parameters and a place.
Fences and rally points are lists of items of their own commands.
-/

namespace Mavlink

/-- What the items of a list are. -/
inductive MissionType where
  | mission
  | fence
  | rally
  deriving DecidableEq, Repr

/-- The number of a type in messages. -/
def MissionType.code : MissionType → UInt8
  | mission => 0
  | fence => 1
  | rally => 2

/-! ## The commands that are made here -/

namespace Command

def waypoint : UInt16 := 16
def loiter : UInt16 := 17
def returnToLaunch : UInt16 := 20
def land : UInt16 := 21
def takeoff : UInt16 := 22
def fenceReturn : UInt16 := 5000
def fenceVertex : UInt16 := 5001
def rallyPoint : UInt16 := 5100

end Command

/-- An item of a mission. -/
structure MissionItem where
  /-- The position in the list. -/
  seq : UInt16 := 0
  /-- One for the item that is under way. -/
  current : UInt8 := 0
  /-- The frame of reference of the place. -/
  frame : UInt8 := 0
  command : UInt16 := 0
  param1 : Binary64 := .zero
  param2 : Binary64 := .zero
  param3 : Binary64 := .zero
  param4 : Binary64 := .zero
  /-- Latitude. -/
  x : Binary64 := .zero
  /-- Longitude. -/
  y : Binary64 := .zero
  /-- Altitude. -/
  z : Binary64 := .zero
  /-- One if the next item follows by itself. -/
  autocontinue : UInt8 := 0
  /-- What is written above the item. -/
  comment : Option String := none
  deriving DecidableEq

namespace MissionItem

/-- A point to fly to. -/
def waypoint (frame : UInt8) (x y z : Binary64) : MissionItem :=
  { frame, command := Command.waypoint, x, y, z, autocontinue := 1 }

/-- The number of the message that carries an item. -/
def messageId : MessageId := 39

/-- The message that carries the item. -/
def toMessage (i : MissionItem) (target : Address) (type : UInt8) : MessageValue :=
  ⟨messageId, Dictionary.ofList [
    ("target_system", .uint target.system.toUInt64),
    ("target_component", .uint target.component.toUInt64),
    ("seq", .uint i.seq.toUInt64),
    ("frame", .uint i.frame.toUInt64),
    ("command", .uint i.command.toUInt64),
    ("current", .uint i.current.toUInt64),
    ("autocontinue", .uint i.autocontinue.toUInt64),
    ("param1", .float i.param1),
    ("param2", .float i.param2),
    ("param3", .float i.param3),
    ("param4", .float i.param4),
    ("x", .float i.x),
    ("y", .float i.y),
    ("z", .float i.z),
    ("mission_type", .uint type.toUInt64)]⟩

end MissionItem
end Mavlink
