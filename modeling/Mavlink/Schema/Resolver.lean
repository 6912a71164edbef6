import Mavlink.Dictionary
import Mavlink.Schema.Directory
import Mavlink.Schema.Reading

/-!
# Where definitions come from

A resolver gives the text of a definition by its name.

* `ofTexts` holds the texts itself.  A name without its suffix `.xml` is enough.
* `ofDirectories` searches directories in order, and in each of them first for the
  name and then, if it has no suffix, for the name with `.xml`.
-/

namespace Mavlink

/-- A source of definitions. -/
structure Resolver where
  /-- The text of a definition. -/
  fetch : String → Except SchemaError String

namespace Resolver

/-- The definition of a name. -/
def definition (r : Resolver) (name : String) : Except SchemaError Definition := do
  Definition.read name (← r.fetch name)

/-- A resolver that holds the texts. -/
def ofTexts (texts : Dictionary String String) : Resolver where
  fetch name :=
    match texts.find? name <|> texts.find? (name ++ ".xml") with
    | some text => .ok text
    | none => .error (.fetch name "no such definition")

/-- The names under which a definition is searched. -/
def candidates (name : String) : List String :=
  if Path.hasSuffix name then [name] else [name, name ++ ".xml"]

/-- A resolver that searches directories.  What does not exist holds nothing. -/
def ofDirectories (directories : List Directory) : Resolver where
  fetch name :=
    match directories.findSome? fun d => (candidates name).findSome? d.file? with
    | some content =>
      match Text.decode? content with
      | some text => .ok text
      | none => .error (.fetch name "stream did not contain valid UTF-8")
    | none =>
      let count := directories.length
      .error (.fetch name s!"not found in {count} directories")

end Resolver
end Mavlink
