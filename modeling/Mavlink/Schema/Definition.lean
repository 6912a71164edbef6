import Mavlink.Schema.Enum
import Mavlink.Schema.Message

/-!
# Definitions

What one definition file says, before the files it includes are added.
-/

namespace Mavlink

/-- The contents of a definition file. -/
structure Definition where
  /-- The names of the files it includes, in order. -/
  includes : List String := []
  version : Option Nat := none
  dialect : Option Nat := none
  enums : List Enum := []
  messages : List Message := []

end Mavlink
