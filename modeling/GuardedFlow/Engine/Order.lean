import GuardedFlow.Engine.Error

/-!
# The order of definitions

A pipeline is built after the pipelines that its steps run. `Definitions.order` visits the
definitions depth first, in the order in which they were given, and fails at the first reference
that leads nowhere or back to a pipeline being visited.

While a pipeline is being visited its name is on the path, and a visit only starts at a name that is
defined and not on the path. So each visit leaves fewer names to be started, and the search ends.
-/

namespace GuardedFlow

/-- A definition with the default scope of its set. -/
structure Entry where
  definition : PipelineDefinition
  scope : Option String
deriving DecidableEq, Repr

def Entry.name (e : Entry) : String := e.definition.name

/-- Definitions in the order in which they were given. -/
abbrev Definitions := List Entry

namespace Definitions

def lookup? (ds : Definitions) (name : String) : Option Entry := ds.find? fun e => e.name == name

/-- Definitions with those of another set, which must have names, each its own. -/
def add (ds : Definitions) (set : DefinitionSet) : Except EngineError Definitions :=
  set.pipelines.foldlM (fun ds d => do
    if (Text.trim d.name).isEmpty then throw (.fault .emptyName)
    if (lookup? ds d.name).isSome then throw (.fault (.repeatedName d.name))
    return ds ++ [⟨d, set.defaultScope⟩]) ds

/-- The definitions of all sets. -/
def ofSets (sets : List DefinitionSet) : Except EngineError Definitions := sets.foldlM add []

/-! ## Visiting -/

/-- How many names are defined and not on a path. -/
def unvisited (ds : Definitions) (path : List String) : Nat :=
  (ds.filter fun e => !path.contains e.name).length

theorem unvisited_lt {ds : Definitions} {path : List String} {name : String} {e : Entry}
    (h : ds.lookup? name = some e) (hp : name ∉ path) :
    unvisited ds (path ++ [name]) < unvisited ds path := by
  have hmem : e ∈ ds := List.mem_of_find?_eq_some h
  have hname : e.name = name := by simpa using List.find?_some h
  have hsub : ds.filter (fun e => !(path ++ [name]).contains e.name) =
      (ds.filter fun e => !path.contains e.name).filter fun e => !(e.name == name) := by
    rw [List.filter_filter]
    congr 1
    funext e
    by_cases h1 : e.name ∈ path <;> by_cases h2 : e.name = name <;> simp [h1, h2]
  unfold unvisited
  rw [hsub]
  refine List.length_filter_lt_length_iff_exists.2 ⟨e, ?_, ?_⟩
  · simp [hmem, hname, hp]
  · simp [hname]

/-- The part of a path from a name on, and the name again. -/
def cycleFrom (path : List String) (name : String) : List String :=
  path.dropWhile (· != name) ++ [name]

mutual

/-- Visits a name: gives the names that are done, which come to include it. -/
def visit (ds : Definitions) (path done : List String) (name : String) :
    Except EngineError (List String) :=
  if name ∈ done then .ok done
  else if _hp : name ∈ path then .error (.cycle (cycleFrom path name))
  else
    match _h : ds.lookup? name with
    | none => .error (.unknownPipeline name)
    | some e =>
      match visitSteps ds (path ++ [name]) done e.definition.steps with
      | .ok done => .ok (done ++ [name])
      | .error err => .error err
termination_by (unvisited ds path, 0)
decreasing_by exact Prod.Lex.left _ _ (unvisited_lt _h _hp)

/-- Visits the pipelines that steps run. -/
def visitSteps (ds : Definitions) (path done : List String) :
    List StepDefinition → Except EngineError (List String)
  | [] => .ok done
  | s :: rest =>
    match s.target with
    | .error f => .error (.fault f)
    | .ok (.processor _) => visitSteps ds path done rest
    | .ok (.pipeline name) =>
      match visit ds path done name with
      | .ok done => visitSteps ds path done rest
      | .error err => .error err
termination_by steps => (unvisited ds path, steps.length + 1)

end

/-- The names in an order in which each comes after those it refers to. -/
def order (ds : Definitions) : Except EngineError (List String) :=
  ds.foldlM (fun done e => visit ds [] done e.name) []

end Definitions

end GuardedFlow
