/-!
# Definitions of pipelines

A definition names a pipeline and lists its steps. A step names what it runs, a processor or another
pipeline, and may carry a condition with the name (*scope*) that the condition uses for the item.
Definitions come in sets, and a set can give the scope of all steps that name none.
-/

namespace GuardedFlow

/-- What a step runs. -/
inductive Target where
  | processor (name : String)
  | pipeline (name : String)
deriving DecidableEq, Repr

namespace Target

def name : Target → String
  | processor name => name
  | pipeline name => name

end Target

/-- Why a set of definitions is refused before anything is built. -/
inductive DefinitionFault where
  | bothTargets
  | noTarget
  | emptyName
  | repeatedName (name : String)
  | unknownExtension (extension path : String)
deriving DecidableEq, Repr

def DefinitionFault.message : DefinitionFault → String
  | bothTargets => "a step sets both 'processor' and 'pipeline'"
  | noTarget => "a step needs either 'processor' or 'pipeline'"
  | emptyName => "pipeline name must not be empty"
  | repeatedName name => "pipeline '" ++ name ++ "' is defined more than once"
  | unknownExtension extension path =>
    "unsupported definition file extension '" ++ extension ++ "' (" ++ path ++ ")"

/-- The definition of a step. -/
structure StepDefinition where
  processor : Option String := none
  pipeline : Option String := none
  condition : Option String := none
  scope : Option String := none
deriving DecidableEq, Repr

namespace StepDefinition

/-- What a step runs; it must name exactly one thing. -/
def target (s : StepDefinition) : Except DefinitionFault Target :=
  match s.processor, s.pipeline with
  | some name, none => .ok (.processor name)
  | none, some name => .ok (.pipeline name)
  | some _, some _ => .error .bothTargets
  | none, none => .error .noTarget

end StepDefinition

/-- The definition of a pipeline. -/
structure PipelineDefinition where
  name : String
  description : Option String := none
  steps : List StepDefinition := []
deriving DecidableEq, Repr

/-- Definitions that share a default scope. -/
structure DefinitionSet where
  defaultScope : Option String := none
  pipelines : List PipelineDefinition := []
deriving DecidableEq, Repr

end GuardedFlow
