import GuardedFlow.Engine.Build
import GuardedFlow.Proofs.Engine.Order
import GuardedFlow.Proofs.Keyed
import Mathlib.Data.List.Forall2

/-!
# Building engines

An engine is built just if its definitions are consistent (`Engine.exists_build_iff`).

A pipeline is built just if each of its steps is (`Engine.Built`) and no two have the same name.
What it refers to comes first in the order, and each addition to an engine leaves the pipelines
before it as they are (`Engine.Serves`).
-/

namespace GuardedFlow

variable {α : Type}

namespace Catalog

/-- Catalogs that processors have been entered into one by one. -/
inductive Registered : Catalog α → Prop where
  | empty : Registered empty
  | register {c : Catalog α} (h : Registered c) (p : Processor α) : Registered (c.register p)
  | registerAs {c : Catalog α} (h : Registered c) (name : String) (p : Processor α) :
      Registered (c.registerAs name p)

theorem find?_registerAs (c : Catalog α) (name name' : String) (p : Processor α) :
    (c.registerAs name p).find? name' = if name = name' then some (p.renamed name)
      else c.find? name' :=
  Keyed.find?_insert c.processors name name' (p.renamed name)

theorem name_eq_of_registerAs {c : Catalog α} {name name' : String} {p q : Processor α}
    (hc : c.find? name = some p → p.name = name)
    (hfind : (c.registerAs name' q).find? name = some p) :
    p.name = name := by
  rw [find?_registerAs] at hfind
  split at hfind
  · next hname =>
    cases hfind
    exact hname
  · exact hc hfind

/-- A processor goes by the name under which it was entered. -/
theorem Registered.name_eq {c : Catalog α} (h : c.Registered) {name : String} {p : Processor α}
    (hfind : c.find? name = some p) : p.name = name := by
  induction h with
  | empty => cases hfind
  | register _ q ih => exact name_eq_of_registerAs ih hfind
  | registerAs _ _ q ih => exact name_eq_of_registerAs ih hfind

end Catalog

theorem Pipeline.ext {p p' : Pipeline α} (hname : p.name = p'.name) (hsteps : p.steps = p'.steps) :
    p = p' := by
  cases p
  cases p'
  cases hname
  cases hsteps
  rfl

theorem Pipeline.addStep_eq_ok {p p' : Pipeline α} {step : Step α} : p.addStep step = .ok p' ↔
    step.name ∉ p.steps.map Step.name ∧ p'.name = p.name ∧ p'.steps = p.steps ++ [step] := by
  unfold addStep
  split
  · next hmem => exact ⟨nofun, fun h => absurd hmem h.1⟩
  · next hnew =>
    constructor
    · intro h
      cases h
      exact ⟨hnew, rfl, rfl⟩
    · rintro ⟨-, hname, hsteps⟩
      exact congrArg Except.ok (Pipeline.ext hname.symm hsteps.symm)

/-- A guard is made of a condition just if that is blank or can be compiled. -/
theorem Predicate.exists_guard_iff {r : Resolver α} {condition scope : Option String} :
    (∃ predicate, guard r condition scope = .ok predicate) ↔
      ∀ text, condition = some text → (Text.trim text).isEmpty = false →
        ∃ p, ofText r (scope.getD "") true (Text.trim text) = .ok p := by
  unfold guard
  cases condition with
  | none => exact ⟨fun _ _ h => (by cases h), fun _ => ⟨none, rfl⟩⟩
  | some text =>
    rw [Option.getD_some]
    cases hblank : (Text.trim text).isEmpty with
    | true =>
      refine ⟨fun _ text' htext hne => ?_, fun _ => ⟨none, if_pos hblank⟩⟩
      cases htext
      exact absurd (hblank.symm.trans hne) (by decide)
    | false =>
      rw [if_neg (by simp [hblank])]
      constructor
      · rintro ⟨predicate, h⟩ text' htext -
        cases htext
        split at h
        · next p hp => exact ⟨p, hp⟩
        · cases h
      · intro h
        obtain ⟨p, hp⟩ := h text rfl hblank
        rw [hp]
        exact ⟨some p, rfl⟩

namespace StepDefinition

/-- The name of what a step runs. -/
def targetName? (s : StepDefinition) : Option String := s.processor <|> s.pipeline

variable {s : StepDefinition}

theorem targetName?_of_target {target : Target} (h : s.target = .ok target) :
    s.targetName? = some target.name := by
  have htarget := target_eq_ok.1 h
  cases target with
  | processor name => rw [targetName?, htarget.1, htarget.2]; rfl
  | pipeline name => rw [targetName?, htarget.1, htarget.2]; rfl

theorem eq_of_processor {target : Target} {name : String} (h : s.target = .ok target)
    (hname : s.processor = some name) :
    target = .processor name := by
  have htarget := target_eq_ok.1 h
  cases target with
  | processor name' =>
    exact congrArg Target.processor (Option.some.inj (htarget.1.symm.trans hname))
  | pipeline name' => exact absurd (htarget.1.symm.trans hname) (Option.some_ne_none name).symm

theorem eq_of_pipeline {target : Target} {name : String} (h : s.target = .ok target)
    (hname : s.pipeline = some name) :
    target = .pipeline name := by
  have htarget := target_eq_ok.1 h
  cases target with
  | processor name' => exact absurd (htarget.2.symm.trans hname) (Option.some_ne_none name).symm
  | pipeline name' => exact congrArg Target.pipeline (Option.some.inj (htarget.2.symm.trans hname))

theorem exists_target_iff :
    (∃ target, s.target = .ok target) ↔ s.processor.isSome = !s.pipeline.isSome := by
  unfold target
  cases s.processor <;> cases s.pipeline <;> simp

end StepDefinition

namespace Engine

/-- A step is as its definition says: it runs what is named, a pipeline being the one of the given
engine, and its guard is the condition, compiled under the scope of the step or else the default
one. -/
structure Built (catalog : Catalog α) (r : Resolver α) (built : Engine α) (e : Entry)
    (s : StepDefinition) (step : Step α) : Prop where
  processor : ∃ target, s.target = .ok target ∧
    processorOf catalog built e.name target = .ok step.processor
  predicate : Predicate.guard r s.condition (s.scope <|> e.scope) = .ok step.predicate

variable {catalog : Catalog α} {r : Resolver α} {built built' engine : Engine α} {e : Entry}
    {p p' : Pipeline α}
  {ds : Definitions} {s : StepDefinition}

theorem addStep_eq_ok (hname : p.name = e.name) : addStep catalog r built e.scope p s = .ok p' ↔
    ∃ step, Built catalog r built e s step ∧ p.addStep step = .ok p' := by
  unfold addStep
  cases htarget : s.target with
  | error f =>
    refine ⟨nofun, ?_⟩
    rintro ⟨step, ⟨⟨_, h, -⟩, -⟩, -⟩
    cases htarget.symm.trans h
  | ok target =>
    simp only [hname, bind_eq_ok]
    constructor
    · rintro ⟨processor, hprocessor, h⟩
      split at h
      · next p₁ hadd =>
        cases h
        obtain ⟨predicate, hpredicate, hstep⟩ := bind_eq_ok.1 hadd
        exact ⟨⟨processor, predicate⟩, ⟨⟨target, htarget, hprocessor⟩, hpredicate⟩, hstep⟩
      · cases h
    · rintro ⟨step, ⟨⟨_, h, hprocessor⟩, hpredicate⟩, hstep⟩
      cases htarget.symm.trans h
      have hadd : p.add r step.processor s.condition (s.scope <|> e.scope) = .ok p' :=
        bind_eq_ok.2 ⟨step.predicate, hpredicate, hstep⟩
      refine ⟨step.processor, hprocessor, ?_⟩
      rw [hadd]

/-- Steps are added in order. -/
theorem foldlM_addStep_eq_ok {steps : List StepDefinition} (hname : p.name = e.name) :
    steps.foldlM (addStep catalog r built e.scope) p = .ok p' ↔
      p'.name = e.name ∧
      ∃ added, p'.steps = p.steps ++ added ∧
        List.Forall₂ (Built catalog r built e) steps added := by
  induction steps generalizing p with
  | nil =>
    refine pure_eq_ok.trans ⟨?_, ?_⟩
    · rintro rfl
      exact ⟨hname, [], (List.append_nil _).symm, .nil⟩
    · rintro ⟨hname', added, hsteps, hadded⟩
      cases hadded
      exact Pipeline.ext (hname.trans hname'.symm) (hsteps.trans (List.append_nil _)).symm
  | cons s rest ih =>
    rw [List.foldlM_cons, bind_eq_ok]
    constructor
    · rintro ⟨p₁, hadd, hrest⟩
      obtain ⟨step, hstep, hadd⟩ := (addStep_eq_ok hname).1 hadd
      obtain ⟨-, hname₁, hsteps₁⟩ := Pipeline.addStep_eq_ok.1 hadd
      obtain ⟨hname', added, hsteps, hadded⟩ := (ih (hname₁.trans hname)).1 hrest
      refine ⟨hname', step :: added, ?_, .cons hstep hadded⟩
      rw [hsteps, hsteps₁, List.append_assoc]
      rfl
    · rintro ⟨hname', added, hsteps, hadded⟩
      cases hadded with
      | @cons _ step _ added hstep hadded =>
        -- the names of all steps differ, so those of the first ones do
        have hnew : step.name ∉ p.steps.map Step.name := by
          intro hmem
          have hdistinct := p'.distinct
          rw [hsteps, List.map_append] at hdistinct
          exact (List.nodup_append.1 hdistinct).2.2 _ hmem _ (List.mem_cons_self) rfl
        let p₁ : Pipeline α :=
          ⟨p.name, p.steps ++ [step], Pipeline.nodup_append_name p.distinct hnew⟩
        refine ⟨p₁,
          (addStep_eq_ok hname).2 ⟨step, hstep, Pipeline.addStep_eq_ok.2 ⟨hnew, rfl, rfl⟩⟩, ?_⟩
        have hname₁ : p₁.name = e.name := hname
        exact (ih hname₁).2 ⟨hname', added, hsteps.trans (List.append_cons _ _ _), hadded⟩

/-- **Pipelines.** A pipeline is built of the steps that its definition says, and is the only one
that is. -/
theorem buildPipeline_eq_ok : buildPipeline catalog r built e = .ok p ↔
    p.name = e.name ∧ List.Forall₂ (Built catalog r built e) e.definition.steps p.steps := by
  rw [buildPipeline, foldlM_addStep_eq_ok rfl]
  constructor
  · rintro ⟨hname, added, hsteps, hadded⟩
    rw [show p.steps = added from hsteps]
    exact ⟨hname, hadded⟩
  · rintro ⟨hname, hsteps⟩
    exact ⟨hname, p.steps, rfl, hsteps⟩

/-! ## Engines that grow -/

theorem find?_insert (built : Engine α) (p : Pipeline α) (name : String) :
    (built.insert p).find? name = if p.name = name then some p else built.find? name :=
  Keyed.find?_insert built.pipelines p.name name p

/-- A step stays as its definition says when pipelines are added. -/
theorem Built.mono {step : Step α}
    (h : ∀ name p, built.find? name = some p → built'.find? name = some p)
    (hstep : Built catalog r built e s step) : Built catalog r built' e s step := by
  obtain ⟨⟨target, htarget, hprocessor⟩, hpredicate⟩ := hstep
  refine ⟨⟨target, htarget, ?_⟩, hpredicate⟩
  cases target with
  | processor name => exact hprocessor
  | pipeline name =>
    rw [processorOf] at hprocessor ⊢
    cases hfind : built.find? name with
    | none =>
      rw [hfind] at hprocessor
      cases hprocessor
    | some p =>
      rw [hfind] at hprocessor
      rw [h name p hfind]
      exact hprocessor

/-- An engine with the pipelines of the given names, each as its definition says. -/
structure Serves (catalog : Catalog α) (r : Resolver α) (ds : Definitions) (engine : Engine α)
    (done : List String) :
    Prop where
  sorted : engine.pipelines.keys.Pairwise (· < ·)
  names : engine.names.Perm done
  built : ∀ name p, engine.find? name = some p → p.name = name ∧
    ∃ e, ds.lookup? name = some e ∧
      List.Forall₂ (Built catalog r engine e) e.definition.steps p.steps

variable {done : List String}

theorem serves_empty : Serves catalog r ds empty [] := ⟨.nil, .refl _, nofun⟩

theorem Serves.find?_eq_none_iff {name : String} (h : Serves catalog r ds built done) :
    built.find? name = none ↔ name ∉ done := by
  rw [← h.names.mem_iff]
  exact Keyed.find?_eq_none_iff

theorem Serves.insert (h : Serves catalog r ds built done) (hnew : p.name ∉ done)
    (hlookup : ds.lookup? p.name = some e)
    (hp : List.Forall₂ (Built catalog r built e) e.definition.steps p.steps) :
    Serves catalog r ds (built.insert p) (done ++ [p.name]) := by
  have hnone := h.find?_eq_none_iff.2 hnew
  have hmono : ∀ name q, built.find? name = some q → (built.insert p).find? name = some q := by
    intro name q hfind
    rw [find?_insert, if_neg, hfind]
    rintro rfl
    exact absurd (hnone.symm.trans hfind) (Option.some_ne_none q).symm
  refine ⟨Keyed.pairwise_insert p h.sorted, ?_, fun name q hfind => ?_⟩
  · have hperm : (built.insert p).names.Perm (p.name :: built.names) :=
      Keyed.keys_insert_perm p (Keyed.find?_eq_none_iff.1 hnone)
    exact hperm.trans ((h.names.cons p.name).trans (List.perm_append_singleton _ _).symm)
  · rw [find?_insert] at hfind
    split at hfind
    · next hname =>
      cases hfind
      subst hname
      exact ⟨rfl, e, hlookup, hp.imp fun _ _ => Built.mono hmono⟩
    · obtain ⟨hname, e', hlookup', hq⟩ := h.built name q hfind
      exact ⟨hname, e', hlookup', hq.imp fun _ _ => Built.mono hmono⟩

theorem buildNext_eq_ok {name : String} : buildNext catalog r ds built name = .ok built' ↔
    ∃ e p, ds.lookup? name = some e ∧ buildPipeline catalog r built e = .ok p ∧
      built.insert p = built' := by
  unfold buildNext
  cases ds.lookup? name with
  | none => exact ⟨nofun, fun ⟨_, _, h, _⟩ => (by cases h)⟩
  | some e =>
    refine map_eq_ok.trans ⟨?_, ?_⟩
    · rintro ⟨p, hp, rfl⟩
      exact ⟨e, p, rfl, hp, rfl⟩
    · rintro ⟨_, p, h, hp, rfl⟩
      cases h
      exact ⟨p, hp, rfl⟩

theorem Serves.next {name : String} (h : Serves catalog r ds built done) (hnew : name ∉ done)
    (hnext : buildNext catalog r ds built name = .ok built') :
    Serves catalog r ds built' (done ++ [name]) := by
  obtain ⟨e, p, hlookup, hbuild, rfl⟩ := buildNext_eq_ok.1 hnext
  obtain ⟨hp, hsteps⟩ := buildPipeline_eq_ok.1 hbuild
  obtain rfl := hp.trans (Definitions.name_of_lookup? hlookup)
  exact h.insert hnew hlookup hsteps

theorem serves_foldlM {names : List String} (hnames : names.Nodup)
    (h : names.foldlM (buildNext catalog r ds) empty = .ok engine) :
    Serves catalog r ds engine names := by
  have key : ∀ (names done : List String) (built : Engine α), Serves catalog r ds built done →
      (done ++ names).Nodup →
      names.foldlM (buildNext catalog r ds) built = .ok engine →
      Serves catalog r ds engine (done ++ names) := by
    intro names
    induction names with
    | nil =>
      intro done built hbuilt _ h
      cases h
      rwa [List.append_nil]
    | cons name names ih =>
      intro done built hbuilt hnodup h
      rw [List.foldlM_cons] at h
      obtain ⟨built₁, hnext, hrest⟩ := bind_eq_ok.1 h
      have hnew : name ∉ done :=
        fun hmem => (List.nodup_append.1 hnodup).2.2 name hmem name List.mem_cons_self rfl
      rw [List.append_cons] at hnodup ⊢
      exact ih _ _ (hbuilt.next hnew hnext) hnodup hrest
  exact key names [] empty serves_empty hnames h

/-! ## Consistent definitions -/

/-- What definitions have to be like for an engine, duplicates among the steps aside. -/
structure Consistent (catalog : Catalog α) (r : Resolver α) (ds : Definitions) : Prop where
  named : ∀ e ∈ ds, (Text.trim e.name).isEmpty = false
  distinct : (ds.map Entry.name).Nodup
  /-- Every step names either a processor or a pipeline. -/
  exactlyOne : ∀ e ∈ ds, ∀ s ∈ e.definition.steps, s.processor.isSome = !s.pipeline.isSome
  processors : ∀ e ∈ ds, ∀ s ∈ e.definition.steps, ∀ name, s.processor = some name →
    ∃ p, catalog.find? name = some p
  pipelines : ∀ e ∈ ds, ∀ s ∈ e.definition.steps, ∀ name, s.pipeline = some name →
    name ∈ ds.map Entry.name
  acyclic : ∀ name, ¬ Relation.TransGen ds.Refers name name
  /-- Every condition that is not blank compiles under the scope of its step, or else the default
  one. -/
  conditions : ∀ e ∈ ds, ∀ s ∈ e.definition.steps, ∀ text, s.condition = some text →
    (Text.trim text).isEmpty = false →
    ∃ p, Predicate.ofText r ((s.scope <|> e.scope).getD "") true (Text.trim text) = .ok p

/-- No two steps of one definition run what goes by one name. -/
def DistinctNames (ds : Definitions) : Prop :=
  ∀ e ∈ ds, (e.definition.steps.map StepDefinition.targetName?).Nodup

theorem Consistent.orderable (h : Consistent catalog r ds) : ds.Orderable := by
  refine ⟨fun e he s hs => ?_, ?_, h.acyclic⟩
  · exact StepDefinition.exists_target_iff.2 (h.exactlyOne e he s hs)
  · rintro a b ⟨e, he, -, s, hs, htarget⟩
    exact h.pipelines e he s hs b (StepDefinition.target_eq_ok.1 htarget).2

/-- What a step runs goes by the name that its definition gives. -/
theorem Built.targetName? {step : Step α} (hcatalog : catalog.Registered)
    (hbuilt : Serves catalog r ds built done) (h : Built catalog r built e s step) :
    s.targetName? = some step.name := by
  obtain ⟨⟨target, htarget, hprocessor⟩, -⟩ := h
  rw [StepDefinition.targetName?_of_target htarget]
  refine congrArg some ?_
  cases target with
  | processor name =>
    rw [processorOf] at hprocessor
    split at hprocessor
    · next q hfind =>
      cases hprocessor
      exact (hcatalog.name_eq hfind).symm
    · cases hprocessor
  | pipeline name =>
    rw [processorOf] at hprocessor
    split at hprocessor
    · next q hfind =>
      have hname : step.name = q.name := congrArg Processor.name (Except.ok.inj hprocessor).symm
      exact ((hname.trans (hbuilt.built name q hfind).1)).symm
    · cases hprocessor

theorem map_targetName?_of_built {steps : List StepDefinition} {added : List (Step α)}
    (hcatalog : catalog.Registered) (hbuilt : Serves catalog r ds built done)
    (h : List.Forall₂ (Built catalog r built e) steps added) :
    steps.map StepDefinition.targetName? = added.map fun step => some step.name := by
  induction h with
  | nil => rfl
  | cons hstep _ ih => rw [List.map_cons, List.map_cons, hstep.targetName? hcatalog hbuilt, ih]

/-- Names of steps differ if the names that their definitions give do. -/
theorem nodup_names_iff {steps : List StepDefinition} {added : List (Step α)}
    (hcatalog : catalog.Registered) (hbuilt : Serves catalog r ds built done)
    (h : List.Forall₂ (Built catalog r built e) steps added) :
    (steps.map StepDefinition.targetName?).Nodup ↔ (added.map Step.name).Nodup := by
  rw [map_targetName?_of_built hcatalog hbuilt h]
  simp only [List.Nodup, List.pairwise_map, ne_eq, Option.some.injEq]

/-- Each step of a consistent definition can be built after what it refers to. -/
theorem Consistent.exists_built (h : Consistent catalog r ds) (he : e ∈ ds)
    (hs : s ∈ e.definition.steps) (hbuilt : Serves catalog r ds built done)
    (hrefs : ∀ ref, s.target = .ok (.pipeline ref) → ref ∈ done) :
    ∃ step, Built catalog r built e s step := by
  obtain ⟨target, htarget⟩ := h.orderable.targets e he s hs
  obtain ⟨predicate, hpredicate⟩ := Predicate.exists_guard_iff.2 (h.conditions e he s hs)
  cases target with
  | processor name =>
    obtain ⟨q, hq⟩ := h.processors e he s hs name (StepDefinition.target_eq_ok.1 htarget).1
    refine ⟨⟨q, predicate⟩, ⟨_, htarget, ?_⟩, hpredicate⟩
    rw [processorOf, hq]
  | pipeline name =>
    cases hfind : built.find? name with
    | none => exact absurd (hrefs name htarget) (hbuilt.find?_eq_none_iff.1 hfind)
    | some q =>
      refine ⟨⟨q.toProcessor, predicate⟩, ⟨_, htarget, ?_⟩, hpredicate⟩
      rw [processorOf, hfind]

theorem exists_forall₂ {R : StepDefinition → Step α → Prop} {steps : List StepDefinition}
    (h : ∀ s ∈ steps, ∃ step, R s step) : ∃ added, List.Forall₂ R steps added := by
  induction steps with
  | nil => exact ⟨[], .nil⟩
  | cons s rest ih =>
    obtain ⟨hs, hrest⟩ := List.forall_mem_cons.1 h
    obtain ⟨step, hstep⟩ := hs
    obtain ⟨added, hadded⟩ := ih hrest
    exact ⟨step :: added, .cons hstep hadded⟩

theorem Consistent.exists_foldlM (h : Consistent catalog r ds) (hcatalog : catalog.Registered)
    (hnames : DistinctNames ds) (hdone : ds.Ordered done) :
    ∃ engine, done.foldlM (buildNext catalog r ds) empty = .ok engine := by
  induction hdone with
  | nil => exact ⟨empty, rfl⟩
  | @snoc done e hordered hnew hlookup hsteps ih =>
    obtain ⟨built, hbuild⟩ := ih
    have hbuilt := serves_foldlM hordered.nodup hbuild
    have he : e ∈ ds := List.mem_of_find?_eq_some hlookup
    have hall : ∀ s ∈ e.definition.steps, ∃ step, Built catalog r built e s step := by
      intro s hs
      obtain ⟨target, htarget, hrefs⟩ := hsteps s hs
      exact h.exists_built he hs hbuilt fun ref href =>
        hrefs ref (Except.ok.inj (htarget.symm.trans href))
    obtain ⟨added, hadded⟩ := exists_forall₂ hall
    have hdistinct := (nodup_names_iff hcatalog hbuilt hadded).1 (hnames e he)
    have hpipeline : buildPipeline catalog r built e = .ok ⟨e.name, added, hdistinct⟩ :=
      buildPipeline_eq_ok.2 ⟨rfl, hadded⟩
    have hnext := buildNext_eq_ok.2 ⟨e, _, hlookup, hpipeline, rfl⟩
    exact ⟨_, by
      rw [List.foldlM_append]; exact bind_eq_ok.2 ⟨built, hbuild, bind_eq_ok.2 ⟨_, hnext, rfl⟩⟩⟩

theorem build_eq_ok {sets : List DefinitionSet} : build catalog r sets = .ok engine ↔
    ∃ ds names, Definitions.ofSets sets = .ok ds ∧ ds.order = .ok names ∧
      names.foldlM (buildNext catalog r ds) empty = .ok engine := by
  unfold build
  rw [bind_eq_ok]
  refine exists_congr fun ds => ?_
  rw [bind_eq_ok]
  exact ⟨fun ⟨h, names, h'⟩ => ⟨names, h, h'⟩, fun ⟨names, h, h'⟩ => ⟨h, names, h'⟩⟩

/-- An engine that has been built serves all definitions. -/
theorem serves_of_build {sets : List DefinitionSet} (h : build catalog r sets = .ok engine) :
    ∃ names, (Definitions.entries sets).Ordered names ∧
      names.Perm ((Definitions.entries sets).map Entry.name) ∧
      Serves catalog r (Definitions.entries sets) engine names := by
  obtain ⟨ds, names, hsets, horder, hfold⟩ := build_eq_ok.1 h
  obtain ⟨rfl, -, hdistinct⟩ := Definitions.ofSets_eq_ok.1 hsets
  obtain ⟨hordered, hperm⟩ := Definitions.ordered_of_order hdistinct horder
  exact ⟨names, hordered, hperm, serves_foldlM hordered.nodup hfold⟩

/-- Every definition has its pipeline. -/
theorem Serves.exists_pipeline (hds : (ds.map Entry.name).Nodup)
    (h : Serves catalog r ds engine done) (he : e ∈ ds) (hname : e.name ∈ done) :
    ∃ p, engine.find? e.name = some p ∧ p.name = e.name ∧
      List.Forall₂ (Built catalog r engine e) e.definition.steps p.steps := by
  cases hfind : engine.find? e.name with
  | none => exact absurd hname (h.find?_eq_none_iff.1 hfind)
  | some p =>
    obtain ⟨hp, e', hlookup, hsteps⟩ := h.built e.name p hfind
    cases (Definitions.lookup?_of_mem hds he).symm.trans hlookup
    exact ⟨p, rfl, hp, hsteps⟩

theorem exists_of_forall₂ {R : StepDefinition → Step α → Prop} {steps : List StepDefinition}
    {added : List (Step α)} (h : List.Forall₂ R steps added) : ∀ s ∈ steps, ∃ step, R s step := by
  induction h with
  | nil => exact fun s hs => absurd hs List.not_mem_nil
  | cons hstep _ ih => exact List.forall_mem_cons.2 ⟨⟨_, hstep⟩, ih⟩

/-- **Success.** An engine is built just if its definitions are consistent. -/
theorem exists_build_iff {sets : List DefinitionSet} (hcatalog : catalog.Registered) :
    (∃ engine, build catalog r sets = .ok engine) ↔
      Consistent catalog r (Definitions.entries sets) ∧
      DistinctNames (Definitions.entries sets) := by
  constructor
  · rintro ⟨engine, h⟩
    obtain ⟨names, hordered, hperm, hserves⟩ := serves_of_build h
    obtain ⟨ds, names', hsets, horder, -⟩ := build_eq_ok.1 h
    obtain ⟨rfl, hnamed, hdistinct⟩ := Definitions.ofSets_eq_ok.1 hsets
    have horderable := (Definitions.exists_order_iff hdistinct).1 ⟨names', horder⟩
    have hbuilt : ∀ e ∈ Definitions.entries sets, ∃ p : Pipeline α,
        List.Forall₂ (Built catalog r engine e) e.definition.steps p.steps := by
      intro e he
      obtain ⟨p, -, -, hsteps⟩ :=
        hserves.exists_pipeline hdistinct he (hperm.mem_iff.2 (List.mem_map_of_mem he))
      exact ⟨p, hsteps⟩
    have hstep :
        ∀ e ∈ Definitions.entries sets, ∀ s ∈ e.definition.steps, ∃ step,
          Built catalog r engine e s step := by
      intro e he
      obtain ⟨p, hsteps⟩ := hbuilt e he
      exact exists_of_forall₂ hsteps
    refine ⟨⟨hnamed, hdistinct, ?_, ?_, ?_, horderable.acyclic, ?_⟩, ?_⟩
    · intro e he s hs
      exact StepDefinition.exists_target_iff.1 (horderable.targets e he s hs)
    · intro e he s hs name hname
      obtain ⟨step, ⟨target, htarget, hprocessor⟩, -⟩ := hstep e he s hs
      cases StepDefinition.eq_of_processor htarget hname
      rw [processorOf] at hprocessor
      split at hprocessor
      · next p hfind => exact ⟨p, hfind⟩
      · cases hprocessor
    · intro e he s hs name hname
      obtain ⟨target, htarget⟩ := horderable.targets e he s hs
      cases StepDefinition.eq_of_pipeline htarget hname
      exact horderable.defined e.name name ⟨e, he, rfl, s, hs, htarget⟩
    · intro e he s hs
      obtain ⟨step, -, hpredicate⟩ := hstep e he s hs
      exact Predicate.exists_guard_iff.1 ⟨_, hpredicate⟩
    · intro e he
      obtain ⟨p, hsteps⟩ := hbuilt e he
      exact (nodup_names_iff hcatalog hserves hsteps).2 p.distinct
  · rintro ⟨h, hnames⟩
    have hsets := Definitions.ofSets_eq_ok.2 ⟨rfl, h.named, h.distinct⟩
    obtain ⟨names, horder⟩ := (Definitions.exists_order_iff h.distinct).2 h.orderable
    obtain ⟨hordered, -⟩ := Definitions.ordered_of_order h.distinct horder
    obtain ⟨engine, hfold⟩ := h.exists_foldlM hcatalog hnames hordered
    exact ⟨engine, build_eq_ok.2 ⟨_, names, hsets, horder, hfold⟩⟩

end Engine

end GuardedFlow
