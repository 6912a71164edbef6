import Mavlink.Decimal.Fixed
import Mavlink.Decimal.Read
import Mavlink.Error
import Mavlink.Mission.List
import Mavlink.Text.Blank
import Mavlink.Text.Utf8

/-!
# Mission files

A mission file is a header line and a line of columns for each item, with blank
lines and comments between them.  A line that begins with a number sign is a
comment; the last one before an item belongs to the item.

There are two formats.  The older one has its own actions for commands and its own
order of columns, one of which means nothing.  Missions are only written in the
newer one.  Fences and rally points have formats without a header beside these: a
list of places, and a list of lines that begin with a keyword.
-/

namespace Mavlink.Mission

/-- The formats with a header. -/
inductive Format where
  | qgc110
  | qgc100
  deriving DecidableEq, Repr

namespace Format

/-- The line that a file of the format begins with. -/
def header : Format → String
  | qgc110 => "QGC WPL 110"
  | qgc100 => "QGC WPL 100"

/-- The columns of a line. -/
def columns : Format → Nat
  | qgc110 => 12
  | qgc100 => 13

/-- The format of a header line. -/
def ofHeader? (line : String) : Option Format := [qgc110, qgc100].find? (·.header = line)

end Format

/-! ## Columns -/

/-- Splits a line into exactly as many columns as expected. -/
def splitColumns (line : Nat) (text : List Char) (expected : Nat) :
    Except MissionError (List (List Char)) :=
  let columns := Text.words text
  if columns.length = expected then .ok columns
  else .error (.invalidLine line columns.length)

/-- A column that holds a whole number of at most `limit`. -/
def whole (line limit : Nat) (columns : List (List Char)) (i : Nat) : Except MissionError Nat :=
  let column := columns.getD i []
  match Text.decimal? limit column with
  | some n => .ok n
  | none => .error (.invalidNumber line (String.ofList column))

/-- A column that holds a byte. -/
def byte (line : Nat) (columns : List (List Char)) (i : Nat) : Except MissionError UInt8 :=
  (whole line 0xFF columns i).map UInt8.ofNat

/-- A column that holds a number of 16 bits. -/
def short (line : Nat) (columns : List (List Char)) (i : Nat) : Except MissionError UInt16 :=
  (whole line 0xFFFF columns i).map UInt16.ofNat

/-- A column that holds a decimal. -/
def decimal (line : Nat) (columns : List (List Char)) (i : Nat) :
    Except MissionError Binary64 :=
  let column := columns.getD i []
  match Decimal.read? column with
  | some x => .ok x
  | none => .error (.invalidNumber line (String.ofList column))

/-- The command of an action of the older format. -/
def ofAction? (action : Nat) : Option UInt16 :=
  if action = 2 ∨ action = 24 then some Command.takeoff
  else if action = 3 then some Command.returnToLaunch
  else if action = 4 ∨ action = 26 then some Command.land
  else if action = 25 then some Command.waypoint
  else if action = 27 then some Command.loiter
  else none

/-- The item of a line of the newer format. -/
def readItem110 (line : Nat) (text : List Char) : Except MissionError MissionItem := do
  let columns ← splitColumns line text Format.qgc110.columns
  let seq ← short line columns 0
  let current ← byte line columns 1
  let frame ← byte line columns 2
  let command ← short line columns 3
  let param1 ← decimal line columns 4
  let param2 ← decimal line columns 5
  let param3 ← decimal line columns 6
  let param4 ← decimal line columns 7
  let x ← decimal line columns 8
  let y ← decimal line columns 9
  let z ← decimal line columns 10
  let autocontinue ← byte line columns 11
  return { seq, current, frame, command, param1, param2, param3, param4, x, y, z, autocontinue }

/-- The item of a line of the older format. -/
def readItem100 (line : Nat) (text : List Char) : Except MissionError MissionItem := do
  let columns ← splitColumns line text Format.qgc100.columns
  let action ← whole line 0xFFFF columns 2
  match ofAction? action with
  | none => .error (.unknownAction line action)
  | some command =>
    let seq ← short line columns 0
    let current ← byte line columns 7
    let frame ← byte line columns 1
    let param1 ← decimal line columns 5
    let param2 ← decimal line columns 6
    let param3 ← decimal line columns 3
    let param4 ← decimal line columns 4
    let x ← decimal line columns 9
    let y ← decimal line columns 8
    let z ← decimal line columns 10
    let autocontinue ← byte line columns 12
    return { seq, current, frame, command, param1, param2, param3, param4, x, y, z, autocontinue }

/-- The item of a line. -/
def Format.readItem : Format → Nat → List Char → Except MissionError MissionItem
  | .qgc110 => readItem110
  | .qgc100 => readItem100

/-! ## Files with a header -/

/-- The first item of a mission is home, which some planners write without a command. -/
def withHome : List MissionItem → List MissionItem
  | [] => []
  | i :: items =>
    (if i.seq = 0 ∧ i.command = 0 then { i with command := Command.waypoint } else i) :: items

/-- Reads the lines from number `line` on.  `comment` is the last comment since the
item before. -/
def readItems (format : Format) (line : Nat) (comment : Option String) :
    List (List Char) → Except MissionError (List MissionItem)
  | [] => .ok []
  | ('#' :: text) :: rest =>
    readItems format (line + 1) (some (String.ofList (Text.trim text))) rest
  | text :: rest =>
    if Text.trim text = [] then readItems format (line + 1) comment rest
    else do
      let item ← format.readItem line (Text.trim text)
      let items ← readItems format (line + 1) none rest
      return { item with comment := comment } :: items

/-- Reads a mission. -/
def read (text : String) : Except MissionError Mission := do
  let lines := Text.lines text.toList
  let header := String.ofList (Text.trim (lines.headD []))
  match Format.ofHeader? header with
  | none => .error (.unsupportedFormat header)
  | some format =>
    return (empty .mission).addAll (withHome (← readItems format 2 none lines.tail))

/-- A line of columns without its end. -/
def itemLine (i : MissionItem) : String :=
  String.intercalate "\t" (
    [toString i.seq.toNat, toString i.current.toNat, toString i.frame.toNat,
      toString i.command.toNat]
    ++ [i.param1, i.param2, i.param3, i.param4, i.x, i.y, i.z].map (Decimal.fixed 6)
    ++ [toString i.autocontinue.toNat])

/-- The lines of an item: its comment, if it has one, and its columns. -/
def itemLines (i : MissionItem) : List String :=
  (i.comment.filter (· ≠ "")).toList.map ("# " ++ ·) ++ [itemLine i]

/-- Writes a mission. -/
def write (m : Mission) : String :=
  String.join ((Format.qgc110.header :: m.items.flatMap itemLines).map (· ++ "\n"))

/-! ## Fences and rally points -/

/-- The lines that carry data, with their numbers from one on.  A comment begins
with a number sign, with no blank before it. -/
def dataLines (text : String) : List (Nat × List Char) :=
  let numbered := (Text.lines text.toList).zipIdx 1
  (numbered.filter fun p => p.1.head? ≠ some '#').filterMap fun p =>
    if Text.trim p.1 = [] then none else some (p.2, Text.trim p.1)

/-- An item that is a place for a command. -/
def place (frame : UInt8) (command : UInt16) (x y z : Binary64) : MissionItem :=
  { frame, command, x, y, z }

/-- The points that a list of places must have: where to return to, three vertices,
and the first of them again. -/
def leastFencePoints : Nat := 5

/-- Whether the first line of data is a place. -/
def isPlaceList (lines : List (Nat × List Char)) : Bool :=
  match (lines.head?.map fun l => Text.words l.2) with
  | some (a :: b :: _) => (Decimal.read? a).isSome && (Decimal.read? b).isSome
  | _ => false

/-- The latitude and longitude of a line. -/
def readPlace (l : Nat × List Char) : Except MissionError (Binary64 × Binary64) := do
  let columns ← splitColumns l.1 l.2 2
  let latitude ← decimal l.1 columns 0
  let longitude ← decimal l.1 columns 1
  return (latitude, longitude)

/-- The fence of points: where to return to, and a polygon whose last point closes it. -/
def ofPoints (points : List (Binary64 × Binary64)) : Except MissionError Mission :=
  if points.length < leastFencePoints then
    .error (.notEnoughFencePoints points.length leastFencePoints)
  else
    let vertices := points.tail.dropLast
    let home := points.headD (.zero, .zero)
    let count := Binary64.ofInt vertices.length
    let items := place 0 Command.fenceReturn home.1 home.2 .zero
      :: vertices.map fun v =>
        { place 0 Command.fenceVertex v.1 v.2 .zero with param1 := count }
    .ok ((empty .fence).addAll items)

/-- Reads a fence, a list of places or a mission file. -/
def readFence (text : String) : Except MissionError Mission := do
  let lines := dataLines text
  if isPlaceList lines then ofPoints (← lines.mapM readPlace)
  else return { ← read text with type := .fence }

/-- The word that begins the line of a rally point. -/
def rallyKeyword : List Char := "RALLY".toList

/-- The item of the line of a rally point; a line with another keyword has none. -/
def readRallyPoint (l : Nat × List Char) : Except MissionError (Option MissionItem) := do
  let columns ← splitColumns l.1 l.2 7
  if (columns.getD 0 []).map Char.toUpper ≠ rallyKeyword then return none
  else
    let latitude ← decimal l.1 columns 1
    let longitude ← decimal l.1 columns 2
    let altitude ← decimal l.1 columns 3
    return some (place 3 Command.rallyPoint latitude longitude altitude)

/-- Reads rally points, a list of keyword lines or a mission file. -/
def readRally (text : String) : Except MissionError Mission := do
  let lines := dataLines text
  if (lines.head?.bind fun l => (Text.words l.2).head?) = some rallyKeyword then
    let points ← lines.mapM readRallyPoint
    return (empty .rally).addAll (points.filterMap id)
  else return { ← read text with type := .rally }

/-! ## Files -/

/-- Reads the contents of a file; without contents there is no such file. -/
def load (reader : String → Except MissionError Mission) (content : Option Bytes) :
    Except Error Mission :=
  match content.bind Text.decode? with
  | none => .error (.transfer .unreadableFile)
  | some text => (reader text).mapError .mission

/-- The contents of a file that holds the mission. -/
def save (m : Mission) : Bytes := Text.utf8 m.write

end Mavlink.Mission
