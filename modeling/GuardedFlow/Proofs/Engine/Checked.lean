import GuardedFlow.Definition.Check
import GuardedFlow.Proofs.Engine.Build
import GuardedFlow.Proofs.Engine.Search
import GuardedFlow.Proofs.Predicate.Compiles
import Mathlib.Algebra.GroupWithZero.Nat

/-!
# Checks and engines

A check and an engine ask the same of a step by itself, that it names one thing and that its
condition, if it has one, compiles (`StepDefinition.Sound`). A check accepts definitions just if all
their steps are sound, and counts those that have a condition (`DefinitionSet.check_eq_ok`). An
engine is built of sound steps only, and those of them with a condition are the ones with a guard
(`Engine.Serves.countP_steps`); and if a step by itself is what an engine fails at, then some step
is not sound (`Engine.exists_not_sound`).

The engine may look at its pipelines in another order, and stop at another error, than the check. So
neither is compared with the other, but both with the steps.
-/

namespace GuardedFlow

variable {α : Type}

/-! ## Sound steps -/

namespace StepDefinition

/-- A step has a condition that is not blank. -/
def isGuarded (s : StepDefinition) : Bool := !(Text.trim (s.condition.getD "")).isEmpty

/-- What a step has to be like by itself, whatever there is to run. -/
structure Sound (r : Resolver α) (scope : Option String) (s : StepDefinition) : Prop where
  target : ∃ target, s.target = .ok target
  guard : ∃ predicate, Predicate.guard r s.condition (s.scope <|> scope) = .ok predicate

end StepDefinition

/-- The number of steps of a definition that have a condition. -/
def Entry.guards (e : Entry) : Nat := e.definition.steps.countP StepDefinition.isGuarded

/-- There is a guard just where there is a condition. -/
theorem Predicate.isSome_of_guard {r : Resolver α} {s : StepDefinition} {scope : Option String}
    {predicate : Option (Predicate α)} (h : guard r s.condition scope = .ok predicate) :
    predicate.isSome = s.isGuarded := by
  unfold guard at h
  unfold StepDefinition.isGuarded
  dsimp only at h
  split at h
  · next hblank =>
    cases h
    simp [hblank]
  · next hblank =>
    split at h
    · cases h
      simp [hblank]
    · cases h

/-! ## What a check asks -/

namespace DefinitionSet

variable {d : DefinitionSet} {pipeline : String} {position n : Nat} {s : StepDefinition}

theorem checkStep_eq_ok : d.checkStep pipeline position s = .ok n ↔
    s.Sound Resolver.value d.defaultScope ∧ n = if s.isGuarded then 1 else 0 := by
  unfold checkStep
  constructor
  · intro h
    split at h
    · cases h
    · next target htarget =>
      dsimp only at h
      split at h
      · next hblank =>
        cases h
        refine ⟨⟨⟨target, htarget⟩, none, if_pos hblank⟩, ?_⟩
        simp [StepDefinition.isGuarded, hblank]
      · next hblank =>
        split at h
        · next p hp =>
          cases h
          refine ⟨⟨⟨target, htarget⟩, some p, ?_⟩, ?_⟩
          · simp only [Predicate.guard, hblank, hp, Bool.false_eq_true, ↓reduceIte]
          · simp [StepDefinition.isGuarded, hblank]
        · cases h
  · rintro ⟨⟨⟨target, htarget⟩, predicate, hguard⟩, rfl⟩
    unfold Predicate.guard at hguard
    dsimp only at hguard
    rw [htarget]
    dsimp only
    split at hguard
    · next hblank => simp [StepDefinition.isGuarded, hblank]
    · next hblank =>
      split at hguard
      · next p hp =>
        rw [if_neg hblank, hp]
        simp [StepDefinition.isGuarded, hblank]
      · cases hguard

theorem checkSteps_eq_ok {steps : List StepDefinition} :
    d.checkSteps pipeline position steps = .ok n ↔
    (∀ s ∈ steps, s.Sound Resolver.value d.defaultScope) ∧
    n = steps.countP StepDefinition.isGuarded := by
  induction steps generalizing position n with
  | nil =>
    exact ⟨fun h => ⟨List.forall_mem_nil _, (Except.ok.inj h).symm⟩,
      fun h => congrArg Except.ok h.2.symm⟩
  | cons s rest ih =>
    simp only [checkSteps, bind_eq_ok, pure_eq_ok, checkStep_eq_ok, ih, List.forall_mem_cons,
      List.countP_cons]
    constructor
    · rintro ⟨_, ⟨hs, rfl⟩, _, ⟨hrest, rfl⟩, rfl⟩
      exact ⟨⟨hs, hrest⟩, Nat.add_comm ..⟩
    · rintro ⟨⟨hs, hrest⟩, rfl⟩
      exact ⟨_, ⟨hs, rfl⟩, _, ⟨hrest, rfl⟩, Nat.add_comm ..⟩

theorem checkPipelines_eq_ok {pipelines : List PipelineDefinition} :
    d.checkPipelines pipelines = .ok n ↔
    (∀ p ∈ pipelines, ∀ s ∈ p.steps, s.Sound Resolver.value d.defaultScope) ∧
      n = (pipelines.flatMap PipelineDefinition.steps).countP StepDefinition.isGuarded := by
  induction pipelines generalizing n with
  | nil =>
    exact ⟨fun h => ⟨List.forall_mem_nil _, (Except.ok.inj h).symm⟩,
      fun h => congrArg Except.ok h.2.symm⟩
  | cons p rest ih =>
    simp only [checkPipelines, bind_eq_ok, pure_eq_ok, checkSteps_eq_ok, ih, List.forall_mem_cons,
      List.flatMap_cons, List.countP_append]
    constructor
    · rintro ⟨_, ⟨hp, rfl⟩, _, ⟨hrest, rfl⟩, rfl⟩
      exact ⟨⟨hp, hrest⟩, rfl⟩
    · rintro ⟨⟨hp, hrest⟩, rfl⟩
      exact ⟨_, ⟨hp, rfl⟩, _, ⟨hrest, rfl⟩, rfl⟩

/-- **Checks.** Definitions are accepted just if all their steps are sound, with the count of those
that have a condition. -/
theorem check_eq_ok : d.check = .ok n ↔
    (∀ e ∈ Definitions.entries [d], ∀ s ∈ e.definition.steps, s.Sound Resolver.value e.scope) ∧
      n = ((Definitions.entries [d]).map Entry.guards).sum := by
  rw [check, checkPipelines_eq_ok, List.countP_flatMap]
  simp [Definitions.entries, Entry.guards, Function.comp_def]

end DefinitionSet

/-! ## What an engine asks -/

/-- Fields of values resolve whatever values are called. -/
theorem Predicate.exists_ofText_dynamic {entity entity' scope text : String} {folding : Bool}
    (h : ∃ p, ofText (.dynamic entity) scope folding text = .ok p) :
      ∃ p, ofText (.dynamic entity') scope folding text = .ok p := by
  unfold ofText at h ⊢
  cases hparse : Condition.parse text with
  | error e =>
    rw [hparse] at h
    exact h
  | ok c =>
    rw [hparse] at h
    obtain ⟨hdefect, hnames⟩ := exists_generate_iff.1 h
    refine exists_generate_iff.2 ⟨hdefect, fun x hx => ?_⟩
    have hx := hnames x hx
    cases x with
    | field name => rfl
    | call name arity => exact hx

theorem StepDefinition.Sound.of_dynamic {s : StepDefinition} {entity : String}
    {scope : Option String} (entity' : String) (h : s.Sound (.dynamic entity) scope) :
    s.Sound (.dynamic entity') scope := by
  refine ⟨h.target, Predicate.exists_guard_iff.2 fun text htext hblank => ?_⟩
  exact Predicate.exists_ofText_dynamic (Predicate.exists_guard_iff.1 h.guard text htext hblank)

namespace Engine

/-- All steps of all pipelines. -/
def steps (engine : Engine α) : List (Step α) := engine.pipelines.flatMap fun (_, p) => p.steps

variable {catalog : Catalog α} {r : Resolver α} {built engine : Engine α} {e : Entry}
    {s : StepDefinition} {step : Step α}
  {ds : Definitions} {done : List String} {sets : List DefinitionSet} {err : EngineError}

theorem Built.sound (h : Built catalog r built e s step) : s.Sound r e.scope := by
  obtain ⟨⟨target, htarget, -⟩, hpredicate⟩ := h
  exact ⟨⟨target, htarget⟩, step.predicate, hpredicate⟩

theorem countP_of_built {definitions : List StepDefinition} {added : List (Step α)}
    (h : List.Forall₂ (Built catalog r built e) definitions added) :
    added.countP (fun step => step.predicate.isSome) =
      definitions.countP StepDefinition.isGuarded := by
  induction h with
  | nil => rfl
  | cons hstep _ ih =>
    rw [List.countP_cons, List.countP_cons, ih, Predicate.isSome_of_guard hstep.predicate]

/-- The steps of all pipelines that have a guard are as many as the steps of all definitions that
have a condition. -/
theorem Serves.countP_steps (hds : (ds.map Entry.name).Nodup) (h : Serves catalog r ds engine done)
    (hdone : done.Perm (ds.map Entry.name)) :
    engine.steps.countP (fun step => step.predicate.isSome) = (ds.map Entry.guards).sum := by
  -- by name, so that the order of the pipelines does not matter
  let count (name : String) : Nat := ((ds.lookup? name).map Entry.guards).getD 0
  have hpipeline :
      ∀ entry ∈ engine.pipelines, entry.2.steps.countP (fun step => step.predicate.isSome) =
        count entry.1 := by
    rintro ⟨name, p⟩ hmem
    have hfind : engine.find? name = some p :=
      Keyed.find?_of_mem (Keyed.nodup_of_pairwise h.sorted) hmem
    obtain ⟨-, e, hlookup, hsteps⟩ := h.built name p hfind
    rw [countP_of_built hsteps]
    simp only [count, hlookup, Option.map_some, Option.getD_some, Entry.guards]
  have hdefinition : ∀ e ∈ ds, count e.name = e.guards := by
    intro e he
    simp only [count, Definitions.lookup?_of_mem hds he, Option.map_some, Option.getD_some]
  calc engine.steps.countP (fun step => step.predicate.isSome)
    _ =
      (engine.pipelines.map fun entry => entry.2.steps.countP fun step =>
        step.predicate.isSome).sum := List.countP_flatMap
    _ = (engine.pipelines.map fun entry => count entry.1).sum :=
      congrArg List.sum (List.map_congr_left hpipeline)
    _ = (engine.names.map count).sum := by rw [Engine.names, Keyed.keys, List.map_map]; rfl
    _ = ((ds.map Entry.name).map count).sum := ((h.names.trans hdone).map count).sum_nat
    _ = (ds.map fun e => count e.name).sum := congrArg List.sum List.map_map
    _ = (ds.map Entry.guards).sum := congrArg List.sum (List.map_congr_left hdefinition)

end Engine

/-! ## Where engines fail -/

/-- An error that a step by itself gives rise to. -/
inductive EngineError.OfStep : EngineError → Prop where
  | bothTargets : OfStep (.fault .bothTargets)
  | noTarget : OfStep (.fault .noTarget)
  | condition (e : CompileError) : OfStep (.step (.guard e))

/-- Definitions are not collected because of their names. -/
theorem Definitions.not_ofStep_of_ofSets {sets : List DefinitionSet} {err : EngineError}
    (h : ofSets sets = .error err) :
    ¬ err.OfStep := by
  rw [ofSets_eq_foldlM] at h
  obtain ⟨e, -, ds, hpush⟩ := exists_of_foldlM_eq_error h
  rcases push_eq_error hpush with rfl | rfl <;> exact nofun

namespace Engine

variable {catalog : Catalog α} {r : Resolver α} {built : Engine α} {e : Entry} {s : StepDefinition}
    {p : Pipeline α}
  {err : EngineError}

/-- A step that gives rise to an error by itself is not sound. -/
theorem not_sound_of_addStep {scope : Option String}
    (h : addStep catalog r built scope p s = .error err) (herr : err.OfStep) :
    ¬ s.Sound r scope := by
  rintro ⟨⟨target, htarget⟩, predicate, hpredicate⟩
  unfold addStep at h
  rw [htarget] at h
  rcases bind_eq_error.1 h with h | ⟨processor, -, h⟩
  · cases target with
    | processor name =>
      rw [processorOf] at h
      split at h <;> cases h
      cases herr
    | pipeline name =>
      rw [processorOf] at h
      split at h <;> cases h
      cases herr
  · split at h
    · cases h
    · next e hadd =>
      cases h
      obtain ⟨e⟩ := herr
      rcases bind_eq_error.1 hadd with hguard | ⟨_, -, hadd⟩
      · cases hguard.symm.trans hpredicate
      · unfold Pipeline.addStep at hadd
        split at hadd <;> cases hadd

/-- **Failures.** If a step by itself gives rise to the error that an engine fails with, then some
step is not sound. -/
theorem exists_not_sound {sets : List DefinitionSet} (h : build catalog r sets = .error err)
    (herr : err.OfStep) :
    ∃ e ∈ Definitions.entries sets, ∃ s ∈ e.definition.steps, ¬ s.Sound r e.scope := by
  rcases bind_eq_error.1 h with h | ⟨ds, hsets, h⟩
  · exact absurd herr (Definitions.not_ofStep_of_ofSets h)
  · obtain ⟨rfl, -⟩ := Definitions.ofSets_eq_ok.1 hsets
    rcases bind_eq_error.1 h with h | ⟨names, -, h⟩
    · cases Definitions.blames_of_order h with
      | @fault e s f he hs hf =>
        refine ⟨e, he, s, hs, fun hsound => ?_⟩
        obtain ⟨target, htarget⟩ := hsound.target
        cases hf.symm.trans htarget
      | unknownPipeline | cycle => cases herr
    · obtain ⟨name, -, built, hnext⟩ := exists_of_foldlM_eq_error h
      unfold buildNext at hnext
      split at hnext
      · cases hnext
        cases herr
      · next e hlookup =>
        rcases bind_eq_error.1 hnext with hbuild | ⟨_, -, hinsert⟩
        · obtain ⟨s, hs, p, hadd⟩ := exists_of_foldlM_eq_error hbuild
          exact ⟨e, List.mem_of_find?_eq_some hlookup, s, hs, not_sound_of_addStep hadd herr⟩
        · cases hinsert

/-- **Checks and engines.** If definitions make an engine for values, then the check accepts them,
with the number of steps of the engine that have a guard. If the check accepts definitions, then no
step by itself makes an engine fail. -/
theorem check_spec (catalog : Catalog Value) (entity : String) (d : DefinitionSet) :
    (∀ engine, build catalog (.dynamic entity) [d] = .ok engine →
      d.check = .ok (engine.steps.countP fun step => step.predicate.isSome)) ∧
    ∀ n err, d.check = .ok n → build catalog (.dynamic entity) [d] = .error err →
      err ≠ .fault .bothTargets ∧ err ≠ .fault .noTarget ∧ ∀ e, err ≠ .step (.guard e) := by
  refine ⟨fun engine h => ?_, fun n err hcheck h => ?_⟩
  · obtain ⟨ds, -, hsets, -⟩ := build_eq_ok.1 h
    obtain ⟨rfl, -, hdistinct⟩ := Definitions.ofSets_eq_ok.1 hsets
    obtain ⟨names, -, hperm, hserves⟩ := serves_of_build h
    rw [DefinitionSet.check_eq_ok, hserves.countP_steps hdistinct hperm]
    refine ⟨fun e he s hs => ?_, rfl⟩
    obtain ⟨p, -, -, hsteps⟩ :=
      hserves.exists_pipeline hdistinct he (hperm.mem_iff.2 (List.mem_map_of_mem he))
    obtain ⟨step, hstep⟩ := exists_of_forall₂ hsteps s hs
    exact hstep.sound.of_dynamic "value"
  · have hnot : ¬ err.OfStep := by
      intro herr
      obtain ⟨e, he, s, hs, hunsound⟩ := exists_not_sound h herr
      exact hunsound (((DefinitionSet.check_eq_ok.1 hcheck).1 e he s hs).of_dynamic entity)
    refine ⟨?_, ?_, ?_⟩
    · rintro rfl
      exact hnot .bothTargets
    · rintro rfl
      exact hnot .noTarget
    · rintro e rfl
      exact hnot (.condition e)

/-- A blank condition is none, and a scope of its own counts for a step before the default one. -/
example :
    (DefinitionSet.check
      ⟨some "x", [⟨"main", none, [{ pipeline := some "sub", condition := some "x.n > 1" }]⟩,
        ⟨"sub", none, [{ processor := some "a", condition := some " " },
          { processor := some "b", condition := some "y = 2", scope := some "y" }]⟩]⟩).toOption =
      some 2 := by decide +kernel

end Engine

end GuardedFlow
