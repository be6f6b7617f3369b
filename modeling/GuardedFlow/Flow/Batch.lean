import GuardedFlow.Flow.Pipeline

/-!
# Batches

A batch pipeline runs its steps over a whole collection. A guard is asked of each item, and splits
the collection into included and excluded items. The step receives the collection whole as long as
one item is included; the excluded items are put behind what it answers, unless the step filters,
which drops them.
-/

namespace GuardedFlow

variable {α : Type}

/-- A guarded step over a collection. -/
structure BatchStep (α : Type) where
  processor : Processor (List α)
  predicate : Option (Predicate α) := none
  /-- Whether excluded items are dropped instead of carried past the step. -/
  filter : Bool := false

namespace BatchStep

def name (s : BatchStep α) : String := s.processor.name

def accepts (s : BatchStep α) (item : α) : Bool := s.predicate.all fun p => p.test item

/-- The items on which the guard does not hold. -/
def excluded (s : BatchStep α) (items : List α) : List α := items.filter fun item => !s.accepts item

def display (s : BatchStep α) : String :=
  "BatchStep \x7b processor: " ++ Text.quote s.name ++ ", predicate: " ++
    Predicate.displayGuard s.predicate ++ ", filter: " ++ Value.boolText s.filter ++ " \x7d"

/-- The end of a run whose items were all dropped by a filter. -/
def filteredOut : Response (List α) := ⟨.nullData, some [], none, []⟩

/-- What a step that answered no items leads to. -/
def withoutItems (s : BatchStep α) (excluded : List α) : Verdict (List α) :=
  if s.filter then .stop filteredOut else .proceed excluded

/-- The items that go on after a step that answered some. -/
def merged (s : BatchStep α) (items excluded : List α) : List α :=
  if s.filter then items else items ++ excluded

/-- The reports and the verdict on a step's response. An abort is judged as it is, data or not. -/
def judge (s : BatchStep α) (excluded : List α) (r : Response (List α)) :
    List Warning × Verdict (List α) :=
  if r.state.isError then (r.reports s.name, r.verdict s.name)
  else
    match r.data with
    | some (item :: items) =>
      let whole : Response (List α) := { r with data := some (s.merged (item :: items) excluded) }
      (whole.reports s.name, whole.verdict s.name)
    | _ => (r.allReports s.name, s.withoutItems excluded)

/-- Runs steps over a collection, each on what the one before answered. -/
def runAll (context : Context) : List (BatchStep α) → List α → Run (List α)
  | [], items => .done (.ok items)
  | _ :: _, [] => .done .nullData
  | s :: rest, items =>
    let excluded := s.excluded items
    if excluded.length = items.length then
      if s.filter then (Run.done filteredOut).afterSkip
        else (runAll context rest excluded).afterSkip
    else
      let (response, calls) := s.processor.invoke items context
      let (reports, verdict) := s.judge excluded response
      Run.conclude (.invoked items response calls) reports verdict (runAll context rest)

end BatchStep

/-- A named sequence of steps over a collection. -/
structure BatchPipeline (α : Type) where
  name : String
  steps : List (BatchStep α)
  distinct : (steps.map BatchStep.name).Nodup

namespace BatchPipeline

def empty (name : String) : BatchPipeline α := ⟨name, [], List.nodup_nil⟩

theorem nodup_append_name {steps : List (BatchStep α)} {s : BatchStep α}
    (h : (steps.map BatchStep.name).Nodup) (hs : s.name ∉ steps.map BatchStep.name) :
    ((steps ++ [s]).map BatchStep.name).Nodup := by
  rw [List.map_append, List.map_cons, List.map_nil, List.nodup_append]
  refine ⟨h, by simp, fun a ha b hb => ?_⟩
  rw [List.mem_singleton] at hb
  exact fun hab => hs (hb ▸ hab ▸ ha)

def addStep (p : BatchPipeline α) (s : BatchStep α) : Except StepError (BatchPipeline α) :=
  if h : s.name ∈ p.steps.map BatchStep.name then .error (.duplicate p.name s.name)
  else .ok ⟨p.name, p.steps ++ [s], nodup_append_name p.distinct h⟩

/-- A pipeline with one more step, guarded by a condition in words. -/
def add (p : BatchPipeline α) (r : Resolver α) (processor : Processor (List α))
    (condition scope : Option String) (filter : Bool) : Except StepError (BatchPipeline α) := do
  let predicate ← Predicate.guard r condition scope
  p.addStep ⟨processor, predicate, filter⟩

/-- A run over a collection. -/
def run (p : BatchPipeline α) (items : List α) (context : Context) : Run (List α) :=
  BatchStep.runAll context p.steps items

/-- A pipeline as a processor of collections. -/
def toProcessor (p : BatchPipeline α) : Processor (List α) where
  name := p.name
  run items context :=
    let run := p.run items context
    (.response run.response, run.calls)

def display (p : BatchPipeline α) : String :=
  "BatchPipeline \x7b name: " ++ Text.quote p.name ++ ", steps: [" ++
    ", ".intercalate (p.steps.map BatchStep.display) ++ "] \x7d"

end BatchPipeline

end GuardedFlow
