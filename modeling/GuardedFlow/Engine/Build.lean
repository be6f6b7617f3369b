import GuardedFlow.Engine.Catalog
import GuardedFlow.Engine.Order

/-!
# Engines

An engine holds pipelines built from definitions, and runs them by name. Every condition is compiled
and every reference resolved when the engine is built.
-/

namespace GuardedFlow

/-- Pipelines by name. -/
structure Engine (α : Type) where
  pipelines : Keyed (Pipeline α)

namespace Engine

variable {α : Type}

def empty : Engine α := ⟨[]⟩

def find? (e : Engine α) (name : String) : Option (Pipeline α) := e.pipelines.find? name

def insert (e : Engine α) (p : Pipeline α) : Engine α := ⟨e.pipelines.insert p.name p⟩

def names (e : Engine α) : List String := e.pipelines.keys

def display (e : Engine α) : String :=
  "PipelineRegistry \x7b pipelines: " ++ Registry.nameList e.names ++ " \x7d"

/-! ## Building -/

/-- What a step of the named pipeline runs. -/
def processorOf (catalog : Catalog α) (built : Engine α) (pipeline : String) :
    Target → Except EngineError (Processor α)
  | .processor name =>
    match catalog.find? name with
    | some p => .ok p
    | none => .error (.unknownProcessor pipeline name)
  | .pipeline name =>
    match built.find? name with
    | some p => .ok p.toProcessor
    | none => .error (.unknownPipeline name)

/-- A pipeline with one more step, as its definition says. -/
def addStep (catalog : Catalog α) (r : Resolver α) (built : Engine α) (scope : Option String)
    (p : Pipeline α) (s : StepDefinition) : Except EngineError (Pipeline α) :=
  match s.target with
  | .error f => .error (.fault f)
  | .ok target => do
    let processor ← processorOf catalog built p.name target
    match p.add r processor s.condition (s.scope <|> scope) with
    | .ok p => .ok p
    | .error e => .error (.step e)

/-- The pipeline of an entry, whose references are built already. -/
def buildPipeline (catalog : Catalog α) (r : Resolver α) (built : Engine α) (e : Entry) :
    Except EngineError (Pipeline α) :=
  e.definition.steps.foldlM (addStep catalog r built e.scope) (Pipeline.empty e.name)

/-- An engine with the pipeline of a name. -/
def buildNext (catalog : Catalog α) (r : Resolver α) (ds : Definitions) (built : Engine α)
    (name : String) : Except EngineError (Engine α) :=
  match ds.lookup? name with
  | none => .error (.unknownPipeline name)
  | some e => do
    let p ← buildPipeline catalog r built e
    return built.insert p

/-- The engine of all sets of definitions. -/
def build (catalog : Catalog α) (r : Resolver α) (sets : List DefinitionSet) :
    Except EngineError (Engine α) := do
  let ds ← Definitions.ofSets sets
  let names ← ds.order
  names.foldlM (buildNext catalog r ds) empty

/-! ## Running -/

/-- A run of the named pipeline over an item. -/
def run (e : Engine α) (name : String) (item : α) (context : Context) :
    Except EngineError (Run α) :=
  match e.find? name with
  | some p => .ok (p.run item context)
  | none => .error (.unknownPipeline name)

end Engine

end GuardedFlow
