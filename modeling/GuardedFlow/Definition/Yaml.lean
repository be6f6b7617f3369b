import GuardedFlow.Definition.Basic
import GuardedFlow.Yaml.Reader

/-!
# Definitions in block notation

The fields are those of the JSON form. Every scalar is a text, also one that looks like a number,
except that a field that may be absent is absent where the absent value is written. Where nothing is
written after a name there is an empty list, or a structure without fields.
-/

namespace GuardedFlow

namespace Yaml

/-- The fields of a structure in the order of their names; unknown ones are ignored, repeated ones
are an error, and so is a key that is no scalar. -/
def fields? (names : List String) : Yaml → Option (List (Option Yaml))
  | mapping entries => do
    let entries ← entries.mapM fun (k, v) => k.text?.map fun name => (name, v)
    names.mapM fun name =>
      match entries.filter fun e => e.1 == name with
      | [] => some none
      | [(_, v)] => some (some v)
      | _ => none
  | y => if y.isEmpty then some (names.map fun _ => none) else none

def optionalString? : Option Yaml → Option (Option String)
  | none => some none
  | some y => if y.isNull then some none else y.text?.map some

/-- A list that may be left out. -/
def list? {α : Type} (read : Yaml → Option α) : Option Yaml → Option (List α)
  | none => some []
  | some (sequence items) => items.mapM read
  | some y => if y.isEmpty then some [] else none

end Yaml

def StepDefinition.ofYaml? (y : Yaml) : Option StepDefinition :=
  match y.fields? ["processor", "pipeline", "when", "prefix"] with
  | some [processor, pipeline, condition, scope] => do
    let processor ← Yaml.optionalString? processor
    let pipeline ← Yaml.optionalString? pipeline
    let condition ← Yaml.optionalString? condition
    let scope ← Yaml.optionalString? scope
    return ⟨processor, pipeline, condition, scope⟩
  | _ => none

def PipelineDefinition.ofYaml? (y : Yaml) : Option PipelineDefinition :=
  match y.fields? ["name", "description", "steps"] with
  | some [name, description, steps] => do
    let name ← name.bind Yaml.text?
    let description ← Yaml.optionalString? description
    let steps ← Yaml.list? StepDefinition.ofYaml? steps
    return ⟨name, description, steps⟩
  | _ => none

namespace DefinitionSet

def ofYaml? (y : Yaml) : Option DefinitionSet :=
  match y.fields? ["default_prefix", "pipelines"] with
  | some [scope, pipelines] => do
    let scope ← Yaml.optionalString? scope
    let pipelines ← Yaml.list? PipelineDefinition.ofYaml? pipelines
    return ⟨scope, pipelines⟩
  | _ => none

def ofYamlText? (text : String) : Option DefinitionSet := (Yaml.parse? text).bind ofYaml?

end DefinitionSet

end GuardedFlow
