import GuardedFlow.Proofs.Engine.Build

/-!
# What engines are

Engines are built just of consistent definitions, and then have a pipeline for each definition, with
the steps that it says, whatever the order in which the definitions were given
(`Engine.build_spec`).

A pipeline is determined by its definition and by the pipelines that it refers to, so that two
engines for the same definitions agree name by name, in the order of either of them
(`Engine.Serves.find?_eq`).
-/

namespace GuardedFlow

namespace Engine

variable {α : Type} {catalog : Catalog α} {r : Resolver α} {built built' engine : Engine α}
    {e : Entry} {p : Pipeline α}
  {ds ds' : Definitions} {s : StepDefinition} {done : List String}

/-! ## The order in which definitions are given -/

/-- A step is determined by its definition and by the pipeline that it runs. -/
theorem Built.unique {step step' : Step α} (h : Built catalog r built e s step)
    (h' : Built catalog r built' e s step')
    (hfind : ∀ ref, s.target = .ok (.pipeline ref) → built.find? ref = built'.find? ref) :
      step = step' := by
  obtain ⟨⟨target, htarget, hprocessor⟩, hpredicate⟩ := h
  obtain ⟨⟨target', htarget', hprocessor'⟩, hpredicate'⟩ := h'
  cases htarget.symm.trans htarget'
  have hsame : processorOf catalog built e.name target =
      processorOf catalog built' e.name target := by
    cases target with
    | processor name => rfl
    | pipeline name => rw [processorOf, processorOf, hfind name htarget]
  obtain ⟨processor, predicate⟩ := step
  obtain ⟨processor', predicate'⟩ := step'
  cases hprocessor.symm.trans (hsame.trans hprocessor')
  cases hpredicate.symm.trans hpredicate'
  rfl

theorem eq_of_forall₂ {steps : List StepDefinition} {added added' : List (Step α)}
    (h : List.Forall₂ (Built catalog r built e) steps added)
    (h' : List.Forall₂ (Built catalog r built' e) steps added')
    (hfind : ∀ s ∈ steps, ∀ ref, s.target = .ok (.pipeline ref) →
      built.find? ref = built'.find? ref) :
    added = added' := by
  induction h generalizing added' with
  | nil =>
    cases h'
    rfl
  | cons hstep _ ih =>
    obtain ⟨hs, hrest⟩ := List.forall_mem_cons.1 hfind
    cases h' with
    | cons hstep' hadded' => rw [hstep.unique hstep' hs, ih hadded' hrest]

/-- Two engines that serve the same definitions have the same pipelines. -/
theorem Serves.find?_eq {names names' : List String} (h : Serves catalog r ds built names)
    (h' : Serves catalog r ds' built' names') (hds : (ds.map Entry.name).Nodup)
    (hperm : ds.Perm ds') (hnames : names.Perm names') (hdone : ds.Ordered done)
    (hsub : ∀ n ∈ done, n ∈ names) :
    ∀ n ∈ done, built.find? n = built'.find? n := by
  have hds' : (ds'.map Entry.name).Nodup := (hperm.map Entry.name).nodup_iff.1 hds
  -- by induction on the order: what a pipeline refers to comes before it
  induction hdone with
  | nil => exact nofun
  | @snoc done e _ _ hlookup hsteps ih =>
    obtain ⟨hdone, hname⟩ := List.forall_mem_append.1 hsub
    have ih := ih hdone
    have hmem := hname e.name (List.mem_singleton_self _)
    have he : e ∈ ds := List.mem_of_find?_eq_some hlookup
    obtain ⟨p, hfind, hp, hadded⟩ := h.exists_pipeline hds he hmem
    obtain ⟨p', hfind', hp', hadded'⟩ :=
      h'.exists_pipeline hds' (hperm.mem_iff.1 he) (hnames.mem_iff.1 hmem)
    have hsame : p = p' := by
      refine Pipeline.ext (hp.trans hp'.symm) (eq_of_forall₂ hadded hadded' fun s hs ref href => ?_)
      obtain ⟨target, htarget, hrefs⟩ := hsteps s hs
      exact ih ref (hrefs ref (Except.ok.inj (htarget.symm.trans href)))
    refine List.forall_mem_append.2 ⟨ih, fun n hn => ?_⟩
    rw [List.mem_singleton.1 hn, hfind, hfind', hsame]

theorem refers_of_perm (hperm : ds.Perm ds') : ds.Refers = ds'.Refers := by
  funext a b
  exact propext (exists_congr fun e => and_congr_left fun _ => hperm.mem_iff)

theorem Consistent.of_perm (h : Consistent catalog r ds) (hperm : ds.Perm ds') :
    Consistent catalog r ds' := by
  have hmem : ∀ e ∈ ds', e ∈ ds := fun e => hperm.mem_iff.2
  have hnames := hperm.map Entry.name
  exact {
    named := fun e he => h.named e (hmem e he)
    distinct := hnames.nodup_iff.1 h.distinct
    exactlyOne := fun e he => h.exactlyOne e (hmem e he)
    processors := fun e he => h.processors e (hmem e he)
    pipelines :=
      fun e he s hs name hname => hnames.mem_iff.1 (h.pipelines e (hmem e he) s hs name hname)
    acyclic := refers_of_perm hperm ▸ h.acyclic
    conditions := fun e he => h.conditions e (hmem e he) }

/-- **Order does not matter.** Definitions in another order make the same engine. -/
theorem build_of_perm {sets sets' : List DefinitionSet} (hcatalog : catalog.Registered)
    (hperm : (Definitions.entries sets).Perm (Definitions.entries sets'))
    (h : build catalog r sets = .ok engine) :
    build catalog r sets' = .ok engine := by
  obtain ⟨hconsistent, hnames⟩ := (exists_build_iff hcatalog).1 ⟨engine, h⟩
  have hnames' : DistinctNames (Definitions.entries sets') :=
    fun e he => hnames e (hperm.mem_iff.2 he)
  obtain ⟨engine', h'⟩ := (exists_build_iff hcatalog).2 ⟨hconsistent.of_perm hperm, hnames'⟩
  obtain ⟨names, hordered, hall, hserves⟩ := serves_of_build h
  obtain ⟨names', -, hall', hserves'⟩ := serves_of_build h'
  have hsame : names.Perm names' := (hall.trans (hperm.map Entry.name)).trans hall'.symm
  have hfind : ∀ n, engine.find? n = engine'.find? n := by
    intro n
    by_cases hn : n ∈ names
    · exact hserves.find?_eq hserves' hconsistent.distinct hperm hsame hordered (fun _ => id) n hn
    · rw [hserves.find?_eq_none_iff.2 hn, hserves'.find?_eq_none_iff.2 (mt hsame.mem_iff.2 hn)]
  have hengine : engine = engine' :=
    congrArg Engine.mk (Keyed.ext hserves.sorted hserves'.sorted hfind)
  rw [hengine]
  exact h'

/-! ## Unknown pipelines -/

/-- Building comes to a name with an engine: that of the names before it in the order. -/
def Reaches (catalog : Catalog α) (r : Resolver α) (sets : List DefinitionSet) (built : Engine α)
    (name : String) : Prop :=
  ∃ ds names before after, Definitions.ofSets sets = .ok ds ∧ ds.order = .ok names ∧
    names = before ++ name :: after ∧
    before.foldlM (buildNext catalog r ds) empty = .ok built

theorem find?_of_unknownPipeline {name : String}
    (h : addStep catalog r built e.scope p s = .error (.unknownPipeline name)) :
    s.target = .ok (.pipeline name) ∧ built.find? name = none := by
  unfold addStep at h
  split at h
  · cases h
  · next target htarget =>
    rcases bind_eq_error.1 h with h | ⟨processor, -, h⟩
    · cases target with
      | processor name =>
        rw [processorOf] at h
        split at h <;> cases h
      | pipeline name =>
        rw [processorOf] at h
        split at h
        · cases h
        · next hnone =>
          cases h
          exact ⟨htarget, hnone⟩
    · split at h <;> cases h

theorem exists_of_unknownPipeline {name : String}
    (h : buildPipeline catalog r built e = .error (.unknownPipeline name)) :
    ∃ s ∈ e.definition.steps, s.target = .ok (.pipeline name) ∧ built.find? name = none := by
  obtain ⟨s, hs, p, hadd⟩ := exists_of_foldlM_eq_error h
  exact ⟨s, hs, find?_of_unknownPipeline hadd⟩

/-- The pipelines that a definition refers to have been built when building comes to it. -/
theorem Reaches.ne_unknownPipeline {sets : List DefinitionSet} {name : String}
    (h : Reaches catalog r sets built name) :
    ∃ e, (Definitions.entries sets).lookup? name = some e ∧
      ∀ n, buildPipeline catalog r built e ≠ .error (.unknownPipeline n) := by
  obtain ⟨ds, names, before, after, hsets, horder, rfl, hfold⟩ := h
  obtain ⟨rfl, -, hdistinct⟩ := Definitions.ofSets_eq_ok.1 hsets
  obtain ⟨hordered, -⟩ := Definitions.ordered_of_order hdistinct horder
  obtain ⟨hbefore, e, hlookup, hsteps⟩ := hordered.split
  have hserves := serves_foldlM hbefore.nodup hfold
  refine ⟨e, hlookup, fun n hunknown => ?_⟩
  obtain ⟨s, hs, href, hnone⟩ := exists_of_unknownPipeline hunknown
  obtain ⟨target, htarget, hrefs⟩ := hsteps s hs
  exact hserves.find?_eq_none_iff.1 hnone (hrefs n (Except.ok.inj (htarget.symm.trans href)))

/-! ## Engines and their definitions -/

/-- **Engines.** An engine is built just if its definitions are consistent and no two steps of one
of them go by the same name. It has one pipeline for each definition, made of its steps in order,
and is the same for the definitions in another order. When building comes to a definition, the
pipelines that it refers to are there. -/
theorem build_spec (r : Resolver α) (sets : List DefinitionSet) (hcatalog : catalog.Registered) :
    ((∃ engine, build catalog r sets = .ok engine) ↔
      Consistent catalog r (Definitions.entries sets) ∧ DistinctNames (Definitions.entries sets)) ∧
    (∀ engine, build catalog r sets = .ok engine →
      engine.names.Perm ((Definitions.entries sets).map Entry.name) ∧
      (∀ e ∈ Definitions.entries sets, ∃ p, engine.find? e.name = some p ∧ p.name = e.name ∧
        List.Forall₂ (Built catalog r engine e) e.definition.steps p.steps) ∧
      ∀ sets', (Definitions.entries sets).Perm (Definitions.entries sets') →
        build catalog r sets' = .ok engine) ∧
    ∀ built name, Reaches catalog r sets built name →
      ∃ e, (Definitions.entries sets).lookup? name = some e ∧
      ∀ n, buildPipeline catalog r built e ≠ .error (.unknownPipeline n) := by
  have hsuccess : _ ↔ Consistent catalog r (Definitions.entries sets) ∧
      DistinctNames (Definitions.entries sets) :=
    exists_build_iff hcatalog
  refine ⟨hsuccess, fun engine h => ?_, fun built name => Reaches.ne_unknownPipeline⟩
  obtain ⟨names, -, hall, hserves⟩ := serves_of_build h
  have hdistinct := (hsuccess.1 ⟨engine, h⟩).1.distinct
  refine ⟨hserves.names.trans hall, fun e he => ?_,
    fun sets' hperm => build_of_perm hcatalog hperm h⟩
  exact hserves.exists_pipeline hdistinct he (hall.mem_iff.2 (List.mem_map_of_mem he))

end Engine

/-- A processor that gives back what it is given. -/
def Processor.idle (name : String) : Processor Value :=
  ⟨name, fun item _ => (.response ⟨.ok, some item, none, []⟩, [])⟩

/-- A catalog with one processor under two names. -/
def Catalog.twice : Catalog Value := (Catalog.empty.register (.idle "a")).registerAs "b" (.idle "a")

theorem Catalog.registered_twice : twice.Registered := .registerAs (.register .empty _) "b" _

theorem Catalog.exists_find?_twice :
    (∃ p, twice.find? "a" = some p) ∧ ∃ p, twice.find? "b" = some p :=
  ⟨⟨_, rfl⟩, ⟨_, rfl⟩⟩

/-- Runs a pipeline of another set, with a scope of its own for all conditions. -/
def PipelineDefinition.ahead : PipelineDefinition :=
  ⟨"main", none,
    [{ pipeline := some "sub" }, { processor := some "a", condition := some " x.n > 1 " }]⟩

def PipelineDefinition.behind : PipelineDefinition :=
  ⟨"sub", none, [{ processor := some "a" }, { processor := some "b", condition := some " " }]⟩

def DefinitionSet.forward : List DefinitionSet := [⟨some "x", [.ahead]⟩, ⟨none, [.behind]⟩]

theorem Definitions.ordered_forward : Ordered (entries DefinitionSet.forward) ["sub", "main"] := by
  have hsub : Ordered (entries DefinitionSet.forward) ["sub"] :=
    .snoc (e := ⟨.behind, none⟩) .nil
      (by decide) rfl (by simp [PipelineDefinition.behind, StepDefinition.target])
  exact .snoc (e := ⟨.ahead, some "x"⟩) hsub
    (by decide) rfl (by simp [PipelineDefinition.ahead, StepDefinition.target])

theorem Engine.consistent_forward :
    Consistent .twice (Resolver.dynamic "item") (Definitions.entries DefinitionSet.forward) where
  named := by decide
  distinct := by decide
  exactlyOne := by decide
  processors := by
    simpa [Definitions.entries, DefinitionSet.forward, PipelineDefinition.ahead,
      PipelineDefinition.behind]
      using Catalog.exists_find?_twice
  pipelines := by
    simp [Definitions.entries, DefinitionSet.forward, PipelineDefinition.ahead,
      PipelineDefinition.behind, Entry.name]
  acyclic := (Definitions.ordered_forward.orderable (by decide) (by decide)).acyclic
  conditions := by
    have hahead :
        ∃ p, Predicate.ofText (Resolver.dynamic "item") "x" true (Text.trim " x.n > 1 ") = .ok p :=
      exists_eq_ok (by decide +kernel)
    have hbehind : Text.trim " " = "" := by decide
    simp [Definitions.entries, DefinitionSet.forward, PipelineDefinition.ahead,
      PipelineDefinition.behind, hahead, hbehind]

theorem Engine.build_spec_forward : Catalog.twice.Registered ∧
    ∃ engine, build .twice (Resolver.dynamic "item") DefinitionSet.forward = .ok engine ∧
      build .twice (Resolver.dynamic "item") DefinitionSet.forward.reverse = .ok engine ∧
      engine.names.Perm ["main", "sub"] := by
  have hspec := build_spec (Resolver.dynamic "item") DefinitionSet.forward Catalog.registered_twice
  obtain ⟨hsuccess, hengine, -⟩ := hspec
  obtain ⟨engine, h⟩ := hsuccess.2 ⟨consistent_forward, by unfold DistinctNames; decide⟩
  obtain ⟨hnames, -, horder⟩ := hengine engine h
  exact ⟨Catalog.registered_twice, engine, h,
    horder DefinitionSet.forward.reverse (.swap _ _ _), hnames⟩

/-- Runs a processor and a pipeline of the same name. -/
def PipelineDefinition.homonyms : PipelineDefinition :=
  ⟨"p", none, [{ processor := some "a" }, { pipeline := some "a" }]⟩

def DefinitionSet.homonyms : List DefinitionSet := [⟨none, [⟨"a", none, []⟩, .homonyms]⟩]

theorem Definitions.ordered_homonyms : Ordered (entries DefinitionSet.homonyms) ["a", "p"] := by
  have ha : Ordered (entries DefinitionSet.homonyms) ["a"] :=
    .snoc (e := ⟨⟨"a", none, []⟩, none⟩) .nil (by decide) rfl (by simp)
  exact .snoc (e := ⟨.homonyms, none⟩) ha
    (by decide) rfl (by simp [PipelineDefinition.homonyms, StepDefinition.target])

/-- Targets of different kinds are different, but their names need not be. -/
theorem Engine.not_build_homonyms : Catalog.twice.Registered ∧
    Consistent .twice (Resolver.dynamic "item") (Definitions.entries DefinitionSet.homonyms) ∧
    (∀ e ∈ Definitions.entries DefinitionSet.homonyms,
      (e.definition.steps.map StepDefinition.target).Nodup) ∧
    ∀ engine, build .twice (Resolver.dynamic "item") DefinitionSet.homonyms ≠ .ok engine := by
  refine ⟨Catalog.registered_twice, ⟨?_, ?_, ?_, ?_, ?_, ?_, ?_⟩, ?_, fun engine h => ?_⟩
  · decide
  · decide
  · decide
  · simpa [Definitions.entries, DefinitionSet.homonyms, PipelineDefinition.homonyms]
      using Catalog.exists_find?_twice.1
  · simp [Definitions.entries, DefinitionSet.homonyms, PipelineDefinition.homonyms, Entry.name]
  · exact (Definitions.ordered_homonyms.orderable (by decide) (by decide)).acyclic
  · simp [Definitions.entries, DefinitionSet.homonyms, PipelineDefinition.homonyms]
  · simp [Definitions.entries, DefinitionSet.homonyms, PipelineDefinition.homonyms,
      StepDefinition.target]
  · have hnames := ((exists_build_iff Catalog.registered_twice).1 ⟨engine, h⟩).2
    exact absurd (hnames ⟨.homonyms, none⟩ (by decide)) (by decide)

end GuardedFlow
