import GuardedFlow.Flow.Run

/-!
# Pipelines

A pipeline runs its steps over one item in order. A step may have a guard, and is skipped when the
guard does not hold on the item that reached it. A pipeline is itself a processor, so pipelines
nest; no two steps of a pipeline run processors of the same name.
-/

namespace GuardedFlow

variable {α : Type}

/-- A guard from optional text: none for text that is absent or blank. -/
def Predicate.guard (r : Resolver α) (condition scope : Option String) :
    Except StepError (Option (Predicate α)) :=
  let text := Text.trim (condition.getD "")
  if text.isEmpty then .ok none
  else
    match Predicate.ofText r (scope.getD "") true text with
    | .ok p => .ok (some p)
    | .error e => .error (.guard e)

def Predicate.displayGuard : Option (Predicate α) → String
  | some p => "Some(" ++ p.display ++ ")"
  | none => "None"

/-- A guarded step over one item. -/
structure Step (α : Type) where
  processor : Processor α
  predicate : Option (Predicate α) := none

namespace Step

def name (s : Step α) : String := s.processor.name

def accepts (s : Step α) (item : α) : Bool := s.predicate.all fun p => p.test item

def display (s : Step α) : String :=
  "Step \x7b processor: " ++ Text.quote s.name ++ ", predicate: " ++
    Predicate.displayGuard s.predicate ++ " \x7d"

/-- Runs steps over an item, each on what the one before answered. -/
def runAll (context : Context) : List (Step α) → α → Run α
  | [], item => .done (.ok item)
  | s :: rest, item =>
    if s.accepts item then
      let (response, calls) := s.processor.invoke item context
      Run.conclude (.invoked item response calls) (response.reports s.name)
        (response.verdict s.name)
        (runAll context rest)
    else (runAll context rest item).afterSkip

/-- Runs steps over an item that may be absent, for which the first step ends the run. -/
def runOptional (context : Context) (steps : List (Step α)) : Option α → Run α
  | some item => runAll context steps item
  | none => .done (if steps.isEmpty then ⟨.ok, none, none, []⟩ else .nullData)

end Step

/-- A named sequence of steps. -/
structure Pipeline (α : Type) where
  name : String
  steps : List (Step α)
  distinct : (steps.map Step.name).Nodup

namespace Pipeline

def empty (name : String) : Pipeline α := ⟨name, [], List.nodup_nil⟩

theorem nodup_append_name {steps : List (Step α)} {s : Step α} (h : (steps.map Step.name).Nodup)
    (hs : s.name ∉ steps.map Step.name) : ((steps ++ [s]).map Step.name).Nodup := by
  rw [List.map_append, List.map_cons, List.map_nil, List.nodup_append]
  refine ⟨h, by simp, fun a ha b hb => ?_⟩
  rw [List.mem_singleton] at hb
  exact fun hab => hs (hb ▸ hab ▸ ha)

def addStep (p : Pipeline α) (s : Step α) : Except StepError (Pipeline α) :=
  if h : s.name ∈ p.steps.map Step.name then .error (.duplicate p.name s.name)
  else .ok ⟨p.name, p.steps ++ [s], nodup_append_name p.distinct h⟩

/-- A pipeline with one more step, guarded by a condition in words. -/
def add (p : Pipeline α) (r : Resolver α) (processor : Processor α)
    (condition scope : Option String) :
    Except StepError (Pipeline α) := do
  let predicate ← Predicate.guard r condition scope
  p.addStep ⟨processor, predicate⟩

/-- A run over an item. -/
def run (p : Pipeline α) (item : α) (context : Context) : Run α := Step.runAll context p.steps item

/-- A run over an item that may be absent. -/
def runOptional (p : Pipeline α) (item : Option α) (context : Context) : Run α :=
  Step.runOptional context p.steps item

/-- A pipeline as a processor. -/
def toProcessor (p : Pipeline α) : Processor α where
  name := p.name
  run item context :=
    let run := p.run item context
    (.response run.response, run.calls)

def display (p : Pipeline α) : String :=
  "Pipeline \x7b name: " ++ Text.quote p.name ++ ", steps: [" ++
    ", ".intercalate (p.steps.map Step.display) ++ "] \x7d"

end Pipeline

end GuardedFlow
