import Mavlink.Codegen.PythonText
import Mavlink.Codegen.RustText
import Mavlink.Text.Blank

/-!
# Targets

A target is a language in which source code is generated.
-/

namespace Mavlink.Codegen

/-- A language. -/
inductive Target where
  | rust
  | python
  deriving DecidableEq, Repr

/-- A file of source code. -/
structure SourceFile where
  name : String
  text : String
  deriving DecidableEq

namespace Target

/-- The name of a target. -/
def name : Target → String
  | rust => RustModule.backend
  | python => PythonModule.backend

/-- Every target. -/
def all : List Target := [rust, python]

/-- The target of a name, in capital or small letters and with blanks around it. -/
def ofName (s : String) : Except CodegenError Target :=
  let given := (Text.trim s.toList).map Char.toLower
  match all.find? fun t => t.name.toList = given with
  | some t => .ok t
  | none => .error (.unknownTarget s)

/-- What the name of a file ends with. -/
def suffix : Target → String
  | rust => ".rs"
  | python => ".py"

/-- The source code of a dialect. -/
def render (t : Target) (d : Dialect) : Except CodegenError SourceFile := do
  let text ← match t with
    | rust => (RustModule.ofDialect d).map (·.text)
    | python => (PythonModule.ofDialect d).map (·.text)
  return ⟨d.name ++ t.suffix, text⟩

end Target

/-- The source code of a dialect for every target of a list, in order. -/
def renderAll (targets : List Target) (d : Dialect) : Except CodegenError (List SourceFile) :=
  targets.mapM (·.render d)

end Mavlink.Codegen
