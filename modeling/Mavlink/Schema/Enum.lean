import Mavlink.Error

/-!
# Enumerations

An enumeration names numbers.  Definition files may add to an enumeration of
another file; entries that are there already are passed over, and an entry that
gives an old name a new number, or an old number a new name, is refused.
-/

namespace Mavlink

/-- A named number. -/
structure EnumEntry where
  value : Nat
  name : String
  description : Option String := none
  deriving DecidableEq

namespace EnumEntry

/-- The greatest number that an entry can have. -/
def maxValue : Nat := 0xFFFFFFFFFFFFFFFF

end EnumEntry

/-- An enumeration. -/
structure Enum where
  name : String
  /-- Whether the numbers are flags that are combined. -/
  bitmask : Bool := false
  description : Option String := none
  entries : List EnumEntry := []
  deriving DecidableEq

namespace Enum

/-- The first entry of a number. -/
def entry? (e : Enum) (value : Nat) : Option EnumEntry := e.entries.find? (·.value = value)

/-- Adds an entry to the entries of an enumeration. -/
def addEntry (enum : String) (entries : List EnumEntry) (new : EnumEntry) :
    Except SchemaError (List EnumEntry) :=
  match entries.find? (·.name = new.name), entries.find? (·.value = new.value) with
  | none, none => .ok (entries ++ [new])
  | some a, some b =>
    if a.name = b.name then .ok entries else .error (.conflictingEnumEntry enum new.name)
  | _, _ => .error (.conflictingEnumEntry enum new.name)

/-- Adds what another definition of the enumeration says. -/
def merge (e other : Enum) : Except SchemaError Enum := do
  let entries ← other.entries.foldlM (addEntry e.name) e.entries
  return { e with
    entries := entries
    bitmask := e.bitmask || other.bitmask
    description := e.description <|> other.description }

end Enum
end Mavlink
