import Mavlink.Dictionary
import Mavlink.Error
import Mavlink.Text.Case

/-!
# Names in source code

Names of definitions are words joined by underscores.  In source code they are
spelled by the conventions of the language, which can make one name out of two; a
scope remembers which name stands for what, and refuses to let it stand for
something else.
-/

namespace Mavlink.Codegen

/-! ## Spellings -/

/-- The words of a name. -/
def nameWords (name : String) : List (List Char) :=
  (name.toList.splitOn '_').filter (· ≠ [])

/-- An identifier cannot begin with a digit or be empty. -/
def identifier (cs : List Char) : String :=
  match cs with
  | [] => "_"
  | c :: _ => if c.isDigit then String.ofList ('_' :: cs) else String.ofList cs

/-- A word with a capital letter at its beginning. -/
def capitalized : List Char → List Char
  | [] => []
  | c :: cs => Text.upperChar c ++ cs.flatMap Text.lowerChar

/-- The words with capital letters at their beginnings, joined. -/
def pascalCase (name : String) : String := identifier ((nameWords name).flatMap capitalized)

/-- The words in small letters, joined by underscores. -/
def snakeCase (name : String) : String :=
  identifier (List.intercalate ['_'] ((nameWords name).map Text.lower))

/-- The words in capital letters, joined by underscores. -/
def upperSnakeCase (name : String) : String :=
  String.ofList (Text.upper (snakeCase name).toList)

/-- An identifier that is no keyword: a keyword gets an underscore. -/
def escaped (keywords : List String) (ident : String) : String :=
  if ident ∈ keywords then ident ++ "_" else ident

/-! ## Scopes -/

/-- The identifiers of a scope and what each stands for. -/
abbrev Scope := Dictionary String String

/-- An identifier and what it stands for. -/
structure Naming where
  ident : String
  source : String
  deriving DecidableEq

/-- An identifier with a scope of its own inside, if only an empty one. -/
structure Declaration where
  naming : Naming
  members : List Naming
  deriving DecidableEq

/-- What the identifiers stand for that are in every generated file. -/
def reservedSource : String := "mavkit"

/-- The scope of identifiers that are in every file. -/
def Scope.reserved (idents : List String) : Scope :=
  Dictionary.ofList (idents.map fun ident => (ident, reservedSource))

/-- Lets an identifier stand for something, unless it stands for something else. -/
def Scope.claim (backend : String) (scope : Scope) (n : Naming) : Except CodegenError Scope :=
  match scope.find? n.ident with
  | none => .ok (scope.insert n.ident n.source)
  | some first =>
    if first = n.source then .ok scope
    else .error (.nameClash backend n.ident first n.source)

/-- Adds a declaration to a scope and checks the scope inside it. -/
def Scope.declare (backend : String) (scope : Scope) (d : Declaration) :
    Except CodegenError Scope := do
  let scope ← scope.claim backend d.naming
  let _ ← d.members.foldlM (Scope.claim backend) ∅
  return scope

/-- Checks the declarations of a file one after another. -/
def Scope.check (backend : String) (reserved : List String) (declarations : List Declaration) :
    Except CodegenError Unit := do
  let _ ← declarations.foldlM (Scope.declare backend) (Scope.reserved reserved)
  return ()

end Mavlink.Codegen
