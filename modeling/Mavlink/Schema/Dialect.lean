import Mavlink.Dictionary
import Mavlink.Schema.Definition

/-!
# Dialects

A dialect is a definition together with everything it includes.  Definitions are
added one after another; two of them may say the same thing about a message or an
enumeration, but not different things.  At the end every enumeration that a field
refers to must be there.
-/

namespace Mavlink

/-- A merged set of definitions. -/
structure Dialect where
  name : String
  version : Option Nat
  /-- The number of the dialect. -/
  number : Option Nat
  /-- The included definitions, each after those that it includes. -/
  includes : List String
  messages : Dictionary MessageId Message
  enums : Dictionary String Enum

namespace Dialect

/-- The message of a name. -/
def messageByName? (d : Dialect) (name : String) : Option Message :=
  d.messages.values.find? (·.name = name)

/-- Adds an enumeration. -/
def addEnum (enums : Dictionary String Enum) (new : Enum) :
    Except SchemaError (Dictionary String Enum) :=
  match enums.find? new.name with
  | none => .ok (enums.insert new.name new)
  | some old => do return enums.insert new.name (← old.merge new)

/-- The messages of a dialect in the making, and the number of each name. -/
structure MessageTable where
  byId : Dictionary MessageId Message
  idOf : Dictionary String MessageId

/-- Adds a message.  The first definition stays; a later one must agree with it. -/
def MessageTable.add (t : MessageTable) (new : Message) : Except SchemaError MessageTable :=
  match t.byId.find? new.id with
  | some old =>
    if old.name ≠ new.name then .error (.duplicateMessageId new.id old.name new.name)
    else if old.SameLayout new then .ok t
    else .error (.conflictingMessage new.name new.id)
  | none =>
    match t.idOf.find? new.name with
    | some id => .error (.duplicateMessageName new.name id new.id)
    | none => .ok ⟨t.byId.insert new.id new, t.idOf.insert new.name new.id⟩

/-- Adds messages one after another. -/
def MessageTable.merge (t : MessageTable) (messages : List Message) :
    Except SchemaError MessageTable := messages.foldlM add t

/-- What is merged so far. -/
structure Merged where
  messages : MessageTable
  enums : Dictionary String Enum

/-- Nothing merged. -/
def Merged.empty : Merged := ⟨⟨∅, ∅⟩, ∅⟩

/-- Adds a definition: its enumerations, then its messages. -/
def Merged.add (m : Merged) (d : Definition) : Except SchemaError Merged := do
  let enums ← d.enums.foldlM addEnum m.enums
  let messages ← m.messages.merge d.messages
  return ⟨messages, enums⟩

/-- The first field of messages that refers to an enumeration that is not there. -/
def dangling? (enums : Dictionary String Enum) (messages : List Message) : Option SchemaError :=
  messages.findSome? fun m => m.fields.findSome? fun f =>
    (f.enum.filter (!enums.contains ·)).map (.unknownEnum m.name f.name ·)

/-- The dialect of definitions, each after those that it includes; the last is the
one that the dialect is named for and has the version and number of. -/
def ofDefinitions (name : String) (definitions : List (String × Definition)) :
    Except SchemaError Dialect := do
  let merged ← (definitions.map (·.2)).foldlM Merged.add Merged.empty
  match dangling? merged.enums merged.messages.byId.values with
  | some error => .error error
  | none =>
    let root := definitions.getLast?.map (·.2)
    return {
      name := name
      version := root.bind (·.version)
      number := root.bind (·.dialect)
      includes := definitions.dropLast.map (·.1)
      messages := merged.messages.byId
      enums := merged.enums }

/-- What a dialect of definitions holds. -/
theorem exists_merged_of_ofDefinitions {name : String} {definitions : List (String × Definition)}
    {d : Dialect} (h : ofDefinitions name definitions = .ok d) :
    ∃ merged, (definitions.map (·.2)).foldlM Merged.add Merged.empty = .ok merged ∧
      d = {
        name := name
        version := definitions.getLast?.bind (·.2.version)
        number := definitions.getLast?.bind (·.2.dialect)
        includes := definitions.dropLast.map (·.1)
        messages := merged.messages.byId
        enums := merged.enums } := by
  obtain ⟨merged, added, h⟩ := exists_of_bind_eq_ok h
  split at h
  · cases h
  · cases h
    refine ⟨merged, added, ?_⟩
    simp only [Option.bind_map]
    rfl

end Dialect
end Mavlink
