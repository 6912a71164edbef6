import Mavlink.Decimal.Shortest
import Mavlink.Dictionary
import Mavlink.Error
import Mavlink.Text.Quoted

/-!
# Values whose type is not known beforehand

The fields of a message of a dialect that was loaded are given by name, each with
a value that carries its own kind.  Integers come with and without a sign; which
of the two is given does not matter as long as the number fits the field.
-/

namespace Mavlink

/-- A value of a field. -/
inductive Value where
  | int (n : Int64)
  | uint (n : UInt64)
  | float (x : Binary64)
  | text (s : String)
  | array (values : List Value)
  deriving Inhabited

namespace Value

/-- The number of an integer. -/
def toInt? : Value → Option Int
  | int n => some n.toInt
  | uint n => some n.toNat
  | _ => none

/-- The number of 64 bits nearest to a number of any kind. -/
def toFloat? : Value → Option Binary64
  | int n => some (.ofInt n.toInt)
  | uint n => some (.ofInt n.toNat)
  | float x => some x
  | _ => none

/-- The text of a text. -/
def toText? : Value → Option String
  | text s => some s
  | _ => none

/-- The elements of an array. -/
def toList? : Value → Option (List Value)
  | array values => some values
  | _ => none

mutual

/-- How a value is shown. -/
def shown : Value → String
  | int n => toString n.toInt
  | uint n => toString n.toNat
  | float x => Decimal.text x
  | text s => Text.quoted s
  | array values => "[" ++ String.intercalate ", " (shownAll values) ++ "]"

/-- How values are shown. -/
def shownAll : List Value → List String
  | [] => []
  | v :: vs => shown v :: shownAll vs

end

end Value

/-- A message: its number, and its fields by name. -/
structure MessageValue where
  id : MessageId
  fields : Dictionary String Value

namespace MessageValue

/-- A message without fields. -/
def empty (id : MessageId) : MessageValue := ⟨id, ∅⟩

/-- Sets a field. -/
def set (m : MessageValue) (name : String) (value : Value) : MessageValue :=
  { m with fields := m.fields.insert name value }

/-- The value of a field. -/
def get? (m : MessageValue) (name : String) : Option Value := m.fields.find? name

end MessageValue
end Mavlink
