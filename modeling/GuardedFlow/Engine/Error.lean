import GuardedFlow.Definition.Load
import GuardedFlow.Flow.Cause

/-!
# Why an engine cannot be built or run
-/

namespace GuardedFlow

/-- Why definitions do not make an engine, or an engine does not run. -/
inductive EngineError where
  | load (e : LoadError)
  | fault (f : DefinitionFault)
  | unknownProcessor (pipeline processor : String)
  | unknownPipeline (name : String)
  /-- Pipelines that refer to each other in a circle, the first one named again at the end. -/
  | cycle (path : List String)
  | step (e : StepError)
deriving Repr

def EngineError.message : EngineError → String
  | load e => e.message
  | fault f => f.report
  | unknownProcessor pipeline processor =>
    "Pipeline '" ++ pipeline ++ "' references unknown processor '" ++ processor ++ "'"
  | unknownPipeline name => "Unknown pipeline: " ++ name
  | cycle path => "Pipeline reference cycle: " ++ " -> ".intercalate path
  | step e => "Runtime error: " ++ e.message

end GuardedFlow
