/-!
# Names of files

Definitions are named like files.  Only a slash separates the parts of a name;
empty parts and parts that stay where they are do not count.
-/

namespace Mavlink.Path

/-- The parts of a name between slashes. -/
def split : List Char → List (List Char)
  | [] => [[]]
  | c :: r =>
    if c = '/' then [] :: split r
    else match split r with
      | [] => [[c]]
      | part :: parts => (c :: part) :: parts

/-- The parts of a name that lead somewhere. -/
def parts (name : String) : List (List Char) :=
  (split name.toList).filter fun p => p ≠ [] && p ≠ ['.']

/-- The last part of a name, unless it leads upwards. -/
def last? (name : String) : Option (List Char) :=
  (parts name).getLast?.filter (· ≠ ['.', '.'])

/-- What stands before and after the last point of a part; a point at its
beginning is not one. -/
def splitSuffix (part : List Char) : List Char × Option (List Char) :=
  let suffix := (part.reverse.takeWhile (· ≠ '.')).reverse
  let stem := part.take (part.length - suffix.length - 1)
  if suffix.length = part.length ∨ stem = [] then (part, none) else (stem, some suffix)

/-- The last part of a name without its suffix. -/
def stem? (name : String) : Option String :=
  (last? name).map fun part => String.ofList (splitSuffix part).1

/-- Whether the last part of a name has a suffix, an empty one included. -/
def hasSuffix (name : String) : Bool :=
  match last? name with
  | some part => (splitSuffix part).2.isSome
  | none => false

end Mavlink.Path
