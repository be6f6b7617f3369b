import GuardedFlow.Definition.Basic
import GuardedFlow.Encoding.Fields
import GuardedFlow.Json.Reader

/-!
# Definitions as documents
-/

namespace GuardedFlow

/-- A list that may be left out. -/
def Json.listOrNone {α : Type} (read : Json → Option α) : Option Json → Option (List α)
  | none => some []
  | some j => j.list? read

/-- A field with a text, none for an absent one. -/
def Json.textMember (name : String) : Option String → List (String × Json)
  | some s => [(name, .string s)]
  | none => []

namespace StepDefinition

def toJson (s : StepDefinition) : Json :=
  .object (Json.textMember "processor" s.processor ++ Json.textMember "pipeline" s.pipeline ++
    Json.textMember "when" s.condition ++ Json.textMember "prefix" s.scope)

def ofJson? (j : Json) : Option StepDefinition :=
  match j.fields? ["processor", "pipeline", "when", "prefix"] 0 with
  | some [processor, pipeline, condition, scope] => do
    let processor ← Json.optional Json.string? processor
    let pipeline ← Json.optional Json.string? pipeline
    let condition ← Json.optional Json.string? condition
    let scope ← Json.optional Json.string? scope
    return ⟨processor, pipeline, condition, scope⟩
  | _ => none

end StepDefinition

namespace PipelineDefinition

def toJson (p : PipelineDefinition) : Json :=
  .object [("name", .string p.name), ("description", .ofOption (p.description.map .string)),
    ("steps", .array (p.steps.map StepDefinition.toJson))]

def ofJson? (j : Json) : Option PipelineDefinition :=
  match j.fields? ["name", "description", "steps"] 1 with
  | some [name, description, steps] => do
    let name ← Json.required Json.string? name
    let description ← Json.optional Json.string? description
    let steps ← Json.listOrNone StepDefinition.ofJson? steps
    return ⟨name, description, steps⟩
  | _ => none

end PipelineDefinition

namespace DefinitionSet

def toJson (d : DefinitionSet) : Json :=
  .object [("default_prefix", .ofOption (d.defaultScope.map .string)),
    ("pipelines", .array (d.pipelines.map PipelineDefinition.toJson))]

def ofJson? (j : Json) : Option DefinitionSet :=
  match j.fields? ["default_prefix", "pipelines"] 0 with
  | some [scope, pipelines] => do
    let scope ← Json.optional Json.string? scope
    let pipelines ← Json.listOrNone PipelineDefinition.ofJson? pipelines
    return ⟨scope, pipelines⟩
  | _ => none

def ofJsonText? (text : String) : Option DefinitionSet := (Json.parse? text).bind ofJson?

end DefinitionSet

end GuardedFlow
