import GuardedFlow.Definition.Json
import GuardedFlow.Definition.Yaml

/-!
# Loading definitions

A file of definitions is read according to the extension of its name, which is told apart by case:
`json`, or `yaml`, `yml` and none at all.
-/

namespace GuardedFlow

/-- Why definitions cannot be loaded. -/
inductive LoadError where
  | yaml
  | json
  | unreadable
  | fault (f : DefinitionFault)
deriving DecidableEq, Repr

/-- The message of a definition fault. -/
def DefinitionFault.report (f : DefinitionFault) : String := "Configuration error: " ++ f.message

/-- The message of an error, up to where the report of the reader or of the system would follow. -/
def LoadError.message : LoadError → String
  | yaml => "Invalid YAML"
  | json => "Invalid JSON"
  | unreadable => "I/O error"
  | fault f => f.report

namespace DefinitionSet

def fileName (path : List Char) : List Char := (path.reverse.takeWhile (· != '/')).reverse

/-- The extension of a file name: what follows its last point, unless the point is its first
character. -/
def extension? (path : String) : Option String :=
  let name := fileName path.toList
  let extension := (name.reverse.takeWhile (· != '.')).reverse
  if name.length ≤ extension.length + 1 ∨ name = ['.', '.'] then none
    else some (String.ofList extension)

/-- The definitions in a YAML text. -/
def ofYaml (text : String) : Except LoadError DefinitionSet :=
  match ofYamlText? text with
  | some d => .ok d
  | none => .error .yaml

/-- The definitions in a JSON text. -/
def ofJson (text : String) : Except LoadError DefinitionSet :=
  match ofJsonText? text with
  | some d => .ok d
  | none => .error .json

/-- The definitions in a file with the given path and content, if it has any. -/
def ofFile (path : String) (content : Option String) : Except LoadError DefinitionSet :=
  match content with
  | none => .error .unreadable
  | some text =>
    match extension? path with
    | some "json" => ofJson text
    | some "yaml" => ofYaml text
    | some "yml" => ofYaml text
    | none => ofYaml text
    | some extension => .error (.fault (.unknownExtension extension path))

end DefinitionSet

end GuardedFlow
