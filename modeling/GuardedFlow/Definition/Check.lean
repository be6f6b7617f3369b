import GuardedFlow.Definition.Load
import GuardedFlow.Predicate.Compile

/-!
# Checking definitions

A set of definitions is checked without the processors it names: every step must name exactly one
target, and every condition must compile for values as records. The check stops at the first thing
that is wrong and otherwise counts the conditions.
-/

namespace GuardedFlow

/-- What a check finds wrong. -/
inductive CheckError where
  | load (e : LoadError)
  /-- A step, by its place from one on, with a bad target. -/
  | target (pipeline : String) (position : Nat) (f : DefinitionFault)
  /-- A condition that does not compile, with the name of what its step runs. -/
  | condition (pipeline step : String) (e : CompileError)
deriving Repr

def CheckError.message : CheckError → String
  | load e => e.message
  | target pipeline position f =>
    "pipeline '" ++ pipeline ++ "', step " ++ toString position ++ ": " ++ f.report
  | condition pipeline step e =>
    "pipeline '" ++ pipeline ++ "', step '" ++ step ++ "': " ++ e.message

/-- Values as records of an engine or a check. -/
def Resolver.value : Resolver Value := .dynamic "value"

namespace DefinitionSet

/-- Checks a step; gives the number of its conditions. -/
def checkStep (d : DefinitionSet) (pipeline : String) (position : Nat) (s : StepDefinition) :
    Except CheckError Nat :=
  match s.target with
  | .error f => .error (.target pipeline position f)
  | .ok target =>
    let text := Text.trim (s.condition.getD "")
    if text.isEmpty then .ok 0
    else
      match Predicate.ofText Resolver.value ((s.scope <|> d.defaultScope).getD "") true text with
      | .ok _ => .ok 1
      | .error e => .error (.condition pipeline target.name e)

/-- Checks steps, of which the first has the given place; gives the number of their conditions. -/
def checkSteps (d : DefinitionSet) (pipeline : String) (position : Nat) :
    List StepDefinition → Except CheckError Nat
  | [] => .ok 0
  | s :: rest => do
    let n ← d.checkStep pipeline position s
    let m ← d.checkSteps pipeline (position + 1) rest
    return n + m

/-- Checks pipelines; gives the number of their conditions. -/
def checkPipelines (d : DefinitionSet) : List PipelineDefinition → Except CheckError Nat
  | [] => .ok 0
  | p :: rest => do
    let n ← d.checkSteps p.name 1 p.steps
    let m ← d.checkPipelines rest
    return n + m

/-- Checks a set of definitions; gives the number of conditions. -/
def check (d : DefinitionSet) : Except CheckError Nat := d.checkPipelines d.pipelines

end DefinitionSet

end GuardedFlow
