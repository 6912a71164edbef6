import Mavlink.Schema.Dialect
import Mavlink.Schema.Resolver

/-!
# Loading a dialect

The includes of a definition are followed depth first, each name once, so that a
definition comes after everything it includes and the root comes last.  A name
that is met inside itself closes a cycle.

Nothing bounds how deep includes can nest.  A resolver could have texts for names
without end, each including the next, and the traversal of them would never come
back; `none` stands for that.
-/

namespace Mavlink

/-- The definitions found so far with their names, each after those it includes. -/
abbrev Resolved := List (String × Definition)

/-- Follows a name.  `chain` holds the names that lead to it, the root first. -/
def Resolver.visit (r : Resolver) (chain : List String) (resolved : Resolved) (name : String) :
    ExceptT SchemaError Option Resolved :=
  let name := Text.trimmed name
  if name ∈ chain then throw (.includeCycle (chain ++ [name]))
  else if resolved.any (·.1 = name) then return resolved
  else do
    let definition ← r.definition name
    let resolved ← definition.includes.foldlM (r |>.visit (chain ++ [name])) resolved
    return resolved ++ [(name, definition)]
partial_fixpoint

namespace Dialect

/-- The name of the dialect of a root: the name of its file without a suffix. -/
def nameOf (root : String) : String := (Path.stem? (Text.trimmed root)).getD root

/-- Loads the dialect of a root. -/
def load (r : Resolver) (root : String) : Option (Except SchemaError Dialect) := ExceptT.run do
  ofDefinitions (nameOf root) (← r.visit [] [] root)

end Dialect
end Mavlink
