import Mavlink.Link.Encoder
import Mavlink.Wire.PayloadReader
import Mavlink.Wire.PayloadWriter

/-!
# The sensors dialect

Two messages with types of their own: a reading of a sensor, and a request to
reset one.  They are encoded without a table, field by field in wire order.
-/

namespace Mavlink

/-- A reading of a single sensor. -/
structure SensorReport where
  sensorId : UInt8 := 0
  /-- The health of the sensor. -/
  status : UInt8 := 0
  /-- Degrees Celsius. -/
  temperature : Binary32 := .zero
  /-- Calibration. -/
  offsets : Vector Int16 3 := Vector.replicate 3 0
  label : String := ""
  /-- What the sensor measures; only the second version of the protocol tells. -/
  capabilities : UInt32 := 0
  /-- Pascals; only the second version of the protocol tells. -/
  pressure : Binary64 := .zero
  deriving DecidableEq

namespace SensorReport

def id : MessageId := 200
def name : String := "SENSOR_REPORT"
def fingerprint : UInt8 := 14
def baseLength : Nat := 20
def maxLength : Nat := 32

/-- The payload of a report. -/
def encode (r : SensorReport) (version : Version) : Except EncodeError Payload := do
  let w := (PayloadWriter.start id baseLength).putSingle r.temperature
  let w := r.offsets.toList.foldl (fun w n => w.putInt .i16 n.toInt) w
  let w := (w.putInt .u8 r.sensorId.toNat).putInt .u8 r.status.toNat
  let w ← w.putText name "label" r.label 8
  ((w.putInt .u32 r.capabilities.toNat).putDouble r.pressure).finish version

/-- The report of a payload. -/
def decode (p : Payload) : Except DecodeError SensorReport := do
  let r ← PayloadReader.start p maxLength
  return {
    temperature := r.single
    offsets := Vector.ofFn fun i => Int16.ofInt ((r.skip (4 + 2 * i)).int 2)
    sensorId := UInt8.ofNat ((r.skip 10).word 1)
    status := UInt8.ofNat ((r.skip 11).word 1)
    label := (r.skip 12).text 8
    capabilities := UInt32.ofNat ((r.skip 20).word 4)
    pressure := (r.skip 24).double }

/-- How reports are sent. -/
def codec : MessageCodec SensorReport :=
  ⟨id, name, fingerprint, baseLength, maxLength, encode, decode⟩

end SensorReport

/-- A request to reset a sensor. -/
structure SensorReset where
  /-- The type of the sensor. -/
  type : UInt8 := 0
  /-- Milliseconds. -/
  delay : UInt16 := 0
  deriving DecidableEq

namespace SensorReset

def id : MessageId := 201
def name : String := "SENSOR_RESET"
def fingerprint : UInt8 := 55
def baseLength : Nat := 3
def maxLength : Nat := 3

/-- The payload of a request. -/
def encode (r : SensorReset) (version : Version) : Except EncodeError Payload :=
  (((PayloadWriter.start id baseLength).putInt .u16 r.delay.toNat).putInt .u8
    r.type.toNat).finish version

/-- The request of a payload. -/
def decode (p : Payload) : Except DecodeError SensorReset := do
  let r ← PayloadReader.start p maxLength
  return {
    delay := UInt16.ofNat (r.word 2)
    type := UInt8.ofNat ((r.skip 2).word 1) }

/-- How requests are sent. -/
def codec : MessageCodec SensorReset :=
  ⟨id, name, fingerprint, baseLength, maxLength, encode, decode⟩

end SensorReset

/-- What is known of the two messages to read frames. -/
def Sensors.lookup : Lookup where
  fingerprint id :=
    if id = SensorReport.id then some SensorReport.fingerprint
    else if id = SensorReset.id then some SensorReset.fingerprint
    else none
  maxLength id :=
    if id = SensorReport.id then some SensorReport.maxLength
    else if id = SensorReset.id then some SensorReset.maxLength
    else none

end Mavlink
