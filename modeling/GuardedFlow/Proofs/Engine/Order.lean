import GuardedFlow.Engine.Order
import GuardedFlow.Proofs.Result

/-!
# Definitions and their order

Definitions are collected just if their names are not blank and differ (`Definitions.ofSets_eq_ok`).
They can be ordered just if every step names exactly one thing, every reference is defined and no
reference leads back (`Definitions.exists_order_iff`); then each name comes after those it refers
to, once (`Definitions.Ordered`).

The search is described by what one visit does, and `Definitions.visit_spec` lists what it can come
to: it adds names to those that are done, but none that is on the path (`Definitions.Grows`), and it
cannot fail as long as all that is on the path refers to what is visited.
-/

namespace GuardedFlow

/-- Whether a step names exactly one thing. -/
theorem StepDefinition.target_eq_ok {s : StepDefinition} {target : Target} : s.target = .ok target ↔
    match target with
    | .processor name => s.processor = some name ∧ s.pipeline = none
    | .pipeline name => s.processor = none ∧ s.pipeline = some name := by
  unfold StepDefinition.target
  cases s.processor <;> cases s.pipeline <;> cases target <;> simp

namespace Definitions

/-! ## Collecting -/

/-- The definitions of all sets in order, each with the default scope of its set. -/
def entries (sets : List DefinitionSet) : Definitions :=
  sets.flatMap fun set => set.pipelines.map fun d => ⟨d, set.defaultScope⟩

variable {ds ds' : Definitions} {e : Entry} {name : String}

theorem lookup?_eq_none_iff : ds.lookup? name = none ↔ name ∉ ds.map Entry.name := by
  rw [lookup?, List.find?_eq_none, List.mem_map]
  simp

theorem name_of_lookup? (h : ds.lookup? name = some e) : e.name = name := by
  simpa using List.find?_some h

theorem lookup?_of_mem (hds : (ds.map Entry.name).Nodup) (he : e ∈ ds) :
    ds.lookup? e.name = some e := by
  induction ds with
  | nil => cases he
  | cons d rest ih =>
    obtain ⟨hd, hrest⟩ := List.nodup_cons.1 hds
    rw [lookup?, List.find?_cons]
    rcases List.mem_cons.1 he with rfl | he
    · rw [beq_self_eq_true]
    · have hne : (d.name == e.name) = false :=
        beq_false_of_ne fun heq => hd (heq ▸ List.mem_map_of_mem he)
      rw [hne]
      exact ih hrest he

/-- Where names differ, a definition is found by its name. -/
theorem lookup?_eq_some_iff (hds : (ds.map Entry.name).Nodup) :
    ds.lookup? name = some e ↔ e ∈ ds ∧ e.name = name := by
  constructor
  · intro h
    exact ⟨List.mem_of_find?_eq_some h, name_of_lookup? h⟩
  · rintro ⟨he, rfl⟩
    exact lookup?_of_mem hds he

/-- Enters one more definition. -/
def push (ds : Definitions) (e : Entry) : Except EngineError Definitions := do
  if (Text.trim e.name).isEmpty then throw (.fault .emptyName)
  if (lookup? ds e.name).isSome then throw (.fault (.repeatedName e.name))
  return ds ++ [e]

theorem push_eq_ok : ds.push e = .ok ds' ↔
    (Text.trim e.name).isEmpty = false ∧ e.name ∉ ds.map Entry.name ∧ ds ++ [e] = ds' := by
  rw [← lookup?_eq_none_iff]
  unfold push
  cases (Text.trim e.name).isEmpty with
  | true => exact ⟨fun h => absurd h throw_ne_ok, fun h => absurd h.1 (by decide)⟩
  | false =>
    cases ds.lookup? e.name with
    | some d => exact ⟨fun h => absurd h throw_ne_ok, fun h => absurd h.2.1 (Option.some_ne_none d)⟩
    | none => exact pure_eq_ok.trans ⟨fun h => ⟨rfl, rfl, h⟩, fun h => h.2.2⟩

theorem push_eq_error {err : EngineError} (h : ds.push e = .error err) :
    err = .fault .emptyName ∨ err = .fault (.repeatedName e.name) := by
  unfold push at h
  cases hblank : (Text.trim e.name).isEmpty with
  | true =>
    rw [hblank] at h
    exact .inl (Except.error.inj h).symm
  | false =>
    rw [hblank] at h
    cases hlookup : ds.lookup? e.name with
    | some d =>
      rw [hlookup] at h
      exact .inr (Except.error.inj h).symm
    | none =>
      rw [hlookup] at h
      cases h

theorem ofSets_eq_foldlM (sets : List DefinitionSet) :
    ofSets sets = (entries sets).foldlM push [] := by
  have hadd : ∀ (ds : Definitions) (set : DefinitionSet),
      ds.add set = (set.pipelines.map fun d => (⟨d, set.defaultScope⟩ : Entry)).foldlM push ds := by
    intro ds set
    rw [List.foldlM_map]
    rfl
  have key : ∀ (sets : List DefinitionSet) (ds : Definitions),
      sets.foldlM add ds = (entries sets).foldlM push ds := by
    intro sets
    induction sets with
    | nil => exact fun _ => rfl
    | cons set rest ih =>
      intro ds
      rw [List.foldlM_cons, hadd, entries, List.flatMap_cons, List.foldlM_append]
      exact bind_congr ih
  exact key sets []

theorem foldlM_push_eq_ok {es : List Entry} (hds : (ds.map Entry.name).Nodup) :
    es.foldlM push ds = .ok ds' ↔
    ds' = ds ++ es ∧ (∀ e ∈ es, (Text.trim e.name).isEmpty = false) ∧
      ((ds ++ es).map Entry.name).Nodup := by
  induction es generalizing ds with
  | nil =>
    rw [List.append_nil]
    exact pure_eq_ok.trans ⟨fun h => ⟨h.symm, nofun, hds⟩, fun h => h.1.symm⟩
  | cons e es ih =>
    have hnodup : e.name ∉ ds.map Entry.name → ((ds ++ [e]).map Entry.name).Nodup := by
      intro he
      rw [List.map_append, List.nodup_append]
      refine ⟨hds, by simp, fun a ha b hb hab => he ?_⟩
      rwa [hab, List.mem_singleton.1 hb] at ha
    rw [List.foldlM_cons, bind_eq_ok, List.append_cons]
    constructor
    · rintro ⟨ds₁, hpush, hrest⟩
      obtain ⟨hblank, hname, rfl⟩ := push_eq_ok.1 hpush
      obtain ⟨rfl, hblanks, hall⟩ := (ih (hnodup hname)).1 hrest
      exact ⟨rfl, List.forall_mem_cons.2 ⟨hblank, hblanks⟩, hall⟩
    · rintro ⟨rfl, hblanks, hall⟩
      obtain ⟨hblank, hblanks⟩ := List.forall_mem_cons.1 hblanks
      have hname : e.name ∉ ds.map Entry.name := by
        intro hmem
        rw [List.map_append, List.map_append, List.append_assoc] at hall
        exact (List.nodup_append.1 hall).2.2 e.name hmem e.name (by simp) rfl
      exact ⟨_, push_eq_ok.2 ⟨hblank, hname, rfl⟩, (ih (hnodup hname)).2 ⟨rfl, hblanks, hall⟩⟩

/-- Definitions are collected in order, if no name is blank and no two are the same. -/
theorem ofSets_eq_ok {sets : List DefinitionSet} : ofSets sets = .ok ds ↔
    ds = entries sets ∧ (∀ e ∈ ds, (Text.trim e.name).isEmpty = false) ∧
      (ds.map Entry.name).Nodup := by
  have hnil : (([] : Definitions).map Entry.name).Nodup := List.nodup_nil
  rw [ofSets_eq_foldlM, foldlM_push_eq_ok hnil, List.nil_append]
  constructor
  · rintro ⟨rfl, hblank, hnodup⟩
    exact ⟨rfl, hblank, hnodup⟩
  · rintro ⟨rfl, hblank, hnodup⟩
    exact ⟨rfl, hblank, hnodup⟩

/-! ## Ordering -/

/-- Whether a pipeline runs another one in one of its steps. -/
def Refers (ds : Definitions) (a b : String) : Prop :=
  ∃ e ∈ ds, e.name = a ∧ ∃ s ∈ e.definition.steps, s.target = .ok (.pipeline b)

/-- Names of definitions, each after those it refers to and none twice. -/
inductive Ordered (ds : Definitions) : List String → Prop where
  | nil : Ordered ds []
  | snoc {done : List String} {e : Entry} (h : Ordered ds done) (hnew : e.name ∉ done)
      (hlookup : ds.lookup? e.name = some e)
      (hsteps : ∀ s ∈ e.definition.steps, ∃ target, s.target = .ok target ∧
        ∀ ref, target = .pipeline ref → ref ∈ done) :
      Ordered ds (done ++ [e.name])

/-- What a visit adds to the names that are done: nothing that is on the path. -/
structure Grows (ds : Definitions) (path done done' : List String) : Prop where
  ordered : Ordered ds done'
  subset : ∀ n ∈ done, n ∈ done'
  apart : ∀ n ∈ path, n ∈ done' → n ∈ done

variable {path done done' : List String}

theorem Grows.refl (h : Ordered ds done) : Grows ds path done done :=
  ⟨h, fun _ => id, fun _ _ => id⟩

theorem Grows.trans {done₁ : List String} (h : Grows ds path done done₁)
    (h' : Grows ds path done₁ done') :
    Grows ds path done done' :=
  ⟨h'.ordered, fun n hn => h'.subset n (h.subset n hn),
    fun n hpath hn => h.apart n hpath (h'.apart n hpath hn)⟩

/-- What a visit comes to. -/
inductive Visit (ds : Definitions) (path done : List String) (name : String) :
    Except EngineError (List String) → Prop where
  | known (hmem : name ∈ done) : Visit ds path done name (.ok done)
  | circle (hnew : name ∉ done) (hp : name ∈ path) :
      Visit ds path done name (.error (.cycle (cycleFrom path name)))
  | undefined (hnew : name ∉ done) (hp : name ∉ path) (he : ds.lookup? name = none) :
      Visit ds path done name (.error (.unknownPipeline name))
  | entered {e : Entry} {done' : List String} (hnew : name ∉ done) (hp : name ∉ path)
      (he : ds.lookup? name = some e)
      (hsteps : visitSteps ds (path ++ [name]) done e.definition.steps = .ok done') :
      Visit ds path done name (.ok (done' ++ [name]))
  | failed {e : Entry} {err : EngineError} (hnew : name ∉ done) (hp : name ∉ path)
      (he : ds.lookup? name = some e)
      (hsteps : visitSteps ds (path ++ [name]) done e.definition.steps = .error err) :
      Visit ds path done name (.error err)

theorem visit_spec (ds : Definitions) (path done : List String) (name : String) :
    Visit ds path done name (visit ds path done name) := by
  rw [visit]
  split
  · next hmem => exact .known hmem
  · next hnew =>
    split
    · next hp => exact .circle hnew hp
    · next hp =>
      split
      · next he => exact .undefined hnew hp he
      · next e he =>
        split
        · next done' hsteps => exact .entered hnew hp he hsteps
        · next err hsteps => exact .failed hnew hp he hsteps

mutual

theorem grows_visit {path done done' : List String} {name : String} (hdone : Ordered ds done)
    (h : visit ds path done name = .ok done') :
    Grows ds path done done' ∧ name ∈ done' := by
  have hvisit := visit_spec ds path done name
  rw [h] at hvisit
  cases hvisit with
  | known hmem => exact ⟨.refl hdone, hmem⟩
  | @entered e done₁ hnew hp he hsteps =>
    obtain ⟨hgrows, htargets⟩ := grows_visitSteps hdone hsteps
    cases name_of_lookup? he
    -- while the steps are visited, the name itself is on the path
    have hnew' : e.name ∉ done₁ := fun hmem => hnew (hgrows.apart _ (by simp) hmem)
    refine ⟨⟨.snoc hgrows.ordered hnew' he htargets, ?_, ?_⟩, by simp⟩
    · exact fun n hn => List.mem_append_left _ (hgrows.subset n hn)
    · intro n hpath hn
      rcases List.mem_append.1 hn with hn | hn
      · exact hgrows.apart n (List.mem_append_left _ hpath) hn
      · exact absurd (List.mem_singleton.1 hn ▸ hpath) hp
termination_by (unvisited ds path, 0)
decreasing_by exact Prod.Lex.left _ _ (unvisited_lt (by assumption) (by assumption))

theorem grows_visitSteps {path done done' : List String} {steps : List StepDefinition}
    (hdone : Ordered ds done) (h : visitSteps ds path done steps = .ok done') :
    Grows ds path done done' ∧
      ∀ s ∈ steps, ∃ target, s.target = .ok target ∧
        ∀ ref, target = .pipeline ref → ref ∈ done' := by
  cases steps with
  | nil =>
    rw [visitSteps] at h
    cases h
    exact ⟨.refl hdone, nofun⟩
  | cons s rest =>
    rw [visitSteps] at h
    split at h
    · cases h
    · next processor htarget =>
      obtain ⟨hgrows, hrest⟩ := grows_visitSteps hdone h
      exact ⟨hgrows, List.forall_mem_cons.2 ⟨⟨_, htarget, fun _ href => by cases href⟩, hrest⟩⟩
    · next name htarget =>
      split at h
      · next done₁ hvisit =>
        obtain ⟨hfirst, hname⟩ := grows_visit hdone hvisit
        obtain ⟨hgrows, hrest⟩ := grows_visitSteps hfirst.ordered h
        refine ⟨hfirst.trans hgrows,
          List.forall_mem_cons.2 ⟨⟨_, htarget, fun ref href => ?_⟩, hrest⟩⟩
        cases href
        exact hgrows.subset _ hname
      · cases h
termination_by (unvisited ds path, steps.length + 1)

end

/-- What it takes to order definitions. -/
structure Orderable (ds : Definitions) : Prop where
  targets : ∀ e ∈ ds, ∀ s ∈ e.definition.steps, ∃ target, s.target = .ok target
  defined : ∀ a b, Refers ds a b → b ∈ ds.map Entry.name
  acyclic : ∀ n, ¬ Relation.TransGen (Refers ds) n n

mutual

/-- A visit succeeds as long as all that is on the path refers to it. -/
theorem Orderable.exists_visit (h : Orderable ds) {path done : List String} {name : String}
    (hname : name ∈ ds.map Entry.name) (hpath : ∀ p ∈ path, Relation.TransGen (Refers ds) p name) :
    ∃ done', visit ds path done name = .ok done' := by
  have hvisit := visit_spec ds path done name
  generalize visit ds path done name = result at hvisit ⊢
  cases hvisit with
  | known hmem => exact ⟨done, rfl⟩
  | circle hnew hp => exact absurd (hpath name hp) (h.acyclic name)
  | undefined hnew hp he => exact absurd hname (lookup?_eq_none_iff.1 he)
  | entered hnew hp he hsteps => exact ⟨_, rfl⟩
  | @failed e err hnew hp he hsteps =>
    have hreach : ∀ p ∈ path ++ [name], p = e.name ∨ Relation.TransGen (Refers ds) p e.name := by
      intro p hmem
      rw [name_of_lookup? he]
      rcases List.mem_append.1 hmem with hmem | hmem
      · exact .inr (hpath p hmem)
      · exact .inl (List.mem_singleton.1 hmem)
    obtain ⟨done', hdone'⟩ :=
      h.exists_visitSteps (List.mem_of_find?_eq_some he) (fun _ => id) hreach
    cases hsteps.symm.trans hdone'
termination_by (unvisited ds path, 0)
decreasing_by exact Prod.Lex.left _ _ (unvisited_lt (by assumption) (by assumption))

theorem Orderable.exists_visitSteps (h : Orderable ds) {path done : List String} {e : Entry}
    {steps : List StepDefinition} (he : e ∈ ds) (hsteps : ∀ s ∈ steps, s ∈ e.definition.steps)
    (hpath : ∀ p ∈ path, p = e.name ∨ Relation.TransGen (Refers ds) p e.name) :
    ∃ done', visitSteps ds path done steps = .ok done' := by
  cases steps with
  | nil => exact ⟨done, by rw [visitSteps]⟩
  | cons s rest =>
    obtain ⟨hs, hrest⟩ := List.forall_mem_cons.1 hsteps
    obtain ⟨target, htarget⟩ := h.targets e he s hs
    rw [visitSteps, htarget]
    cases target with
    | processor processor => exact h.exists_visitSteps he hrest hpath
    | pipeline name =>
      have hrefers : Refers ds e.name name := ⟨e, he, rfl, s, hs, htarget⟩
      have hvisit : ∃ done', visit ds path done name = .ok done' := by
        refine h.exists_visit (h.defined _ _ hrefers) fun p hmem => ?_
        rcases hpath p hmem with rfl | hlong
        · exact .single hrefers
        · exact .tail hlong hrefers
      obtain ⟨done', hvisit⟩ := hvisit
      simp only [hvisit]
      exact h.exists_visitSteps he hrest hpath
termination_by (unvisited ds path, steps.length + 1)

end

/-! ## Orders -/

theorem Ordered.mem (h : Ordered ds done) (hname : name ∈ done) : name ∈ ds.map Entry.name := by
  induction h with
  | nil => cases hname
  | snoc _ _ hlookup _ ih =>
    rcases List.mem_append.1 hname with hname | hname
    · exact ih hname
    · rw [List.mem_singleton.1 hname]
      exact List.mem_map_of_mem (List.mem_of_find?_eq_some hlookup)

theorem Ordered.nodup (h : Ordered ds done) : done.Nodup := by
  induction h with
  | nil => exact List.nodup_nil
  | snoc _ hnew _ _ ih =>
    refine List.nodup_append.2 ⟨ih, by simp, fun a ha b hb hab => hnew ?_⟩
    rwa [hab, List.mem_singleton.1 hb] at ha

/-- What the last name refers to comes before it. -/
theorem mem_of_refers_last {a b : String} (hds : (ds.map Entry.name).Nodup)
    (hclosed : a ∈ done → Refers ds a b → b ∈ done) (hlookup : ds.lookup? e.name = some e)
    (hsteps : ∀ s ∈ e.definition.steps, ∃ target, s.target = .ok target ∧
      ∀ ref, target = .pipeline ref → ref ∈ done)
    (ha : a ∈ done ++ [e.name]) (hrefers : Refers ds a b) : b ∈ done := by
  rcases List.mem_append.1 ha with ha | ha
  · exact hclosed ha hrefers
  · obtain ⟨e', he', hname, s, hs, htarget⟩ := hrefers
    have heq : e' = e := by
      rw [List.mem_singleton.1 ha] at hname
      exact Option.some.inj (((lookup?_eq_some_iff hds).2 ⟨he', hname⟩).symm.trans hlookup)
    obtain ⟨target, htarget', hrefs⟩ := hsteps s (heq ▸ hs)
    exact hrefs b (Except.ok.inj (htarget'.symm.trans htarget))

theorem Ordered.mem_of_refers {a b : String} (hds : (ds.map Entry.name).Nodup) (h : Ordered ds done)
    (ha : a ∈ done) (hrefers : Refers ds a b) : b ∈ done := by
  induction h with
  | nil => cases ha
  | snoc _ _ hlookup hsteps ih =>
    exact List.mem_append_left _
      (mem_of_refers_last hds (fun ha _ => ih ha) hlookup hsteps ha hrefers)

theorem Ordered.acyclic (hds : (ds.map Entry.name).Nodup) (h : Ordered ds done)
    (hname : name ∈ done) :
    ¬ Relation.TransGen (Refers ds) name name := by
  induction h with
  | nil => cases hname
  | @snoc done e h hnew hlookup hsteps ih =>
    -- all that is reached from the names so far, the last one included, lies before the last one
    have hbefore : ∀ {a b : String}, a ∈ done ++ [e.name] → Relation.TransGen (Refers ds) a b →
        b ∈ done := by
      intro a b ha hpath
      induction hpath with
      | single hrefers =>
        exact mem_of_refers_last hds (h.mem_of_refers hds) hlookup hsteps ha hrefers
      | tail _ hrefers ih => exact h.mem_of_refers hds ih hrefers
    intro hcycle
    exact ih (hbefore hname hcycle) hcycle

/-- Every step of a definition in the order names one thing. -/
theorem Ordered.targets (h : Ordered ds done) (he : ds.lookup? e.name = some e)
    (hname : e.name ∈ done) :
    ∀ s ∈ e.definition.steps, ∃ target, s.target = .ok target := by
  induction h with
  | nil => cases hname
  | @snoc done e' _ _ hlookup hsteps ih =>
    rcases List.mem_append.1 hname with hname | hname
    · exact ih hname
    · intro s hs
      rw [← List.mem_singleton.1 hname] at hlookup
      obtain ⟨target, htarget, -⟩ := hsteps s (Option.some.inj (hlookup.symm.trans he) ▸ hs)
      exact ⟨target, htarget⟩

/-- What an order says of a name in it. -/
theorem Ordered.split {before after : List String} (h : Ordered ds (before ++ name :: after)) :
    Ordered ds before ∧ ∃ e, ds.lookup? name = some e ∧
      ∀ s ∈ e.definition.steps, ∃ target, s.target = .ok target ∧
        ∀ ref, target = .pipeline ref → ref ∈ before := by
  generalize hnames : before ++ name :: after = names at h
  induction h generalizing after with
  | nil => exact absurd hnames (by simp)
  | @snoc done e h _ hlookup hsteps ih =>
    rcases List.eq_nil_or_concat after with rfl | ⟨after, last, rfl⟩
    · obtain ⟨rfl, hname⟩ := List.append_inj' hnames rfl
      cases hname
      exact ⟨h, e, hlookup, hsteps⟩
    · rw [List.concat_eq_append, ← List.cons_append, ← List.append_assoc] at hnames
      exact ih (List.append_inj' hnames rfl).1

theorem mem_of_transGen {a b : String} (h : Relation.TransGen (Refers ds) a b) :
    a ∈ ds.map Entry.name := by
  induction h with
  | single hrefers =>
    obtain ⟨e, he, rfl, -⟩ := hrefers
    exact List.mem_map_of_mem he
  | tail _ _ ih => exact ih

theorem grows_foldlM {es : List Entry} (hdone : Ordered ds done)
    (h : es.foldlM (fun done e => visit ds [] done e.name) done = .ok done') :
    Grows ds [] done done' ∧ ∀ e ∈ es, e.name ∈ done' := by
  induction es generalizing done with
  | nil =>
    cases h
    exact ⟨.refl hdone, nofun⟩
  | cons e es ih =>
    rw [List.foldlM_cons] at h
    obtain ⟨done₁, hvisit, hrest⟩ := bind_eq_ok.1 h
    obtain ⟨hfirst, hname⟩ := grows_visit hdone hvisit
    obtain ⟨hgrows, hnames⟩ := ih hfirst.ordered hrest
    exact ⟨hfirst.trans hgrows, List.forall_mem_cons.2 ⟨hgrows.subset _ hname, hnames⟩⟩

/-- An order has the names of all definitions, each once. -/
theorem ordered_of_order {names : List String} (hds : (ds.map Entry.name).Nodup)
    (h : ds.order = .ok names) :
    Ordered ds names ∧ names.Perm (ds.map Entry.name) := by
  obtain ⟨hgrows, hnames⟩ := grows_foldlM .nil h
  refine ⟨hgrows.ordered, (List.perm_ext_iff_of_nodup hgrows.ordered.nodup hds).2 fun n =>
    ⟨hgrows.ordered.mem, ?_⟩⟩
  intro hn
  obtain ⟨e, he, rfl⟩ := List.mem_map.1 hn
  exact hnames e he

theorem Ordered.orderable {names : List String} (h : Ordered ds names)
    (hds : (ds.map Entry.name).Nodup) (hall : ∀ n ∈ ds.map Entry.name, n ∈ names) :
    Orderable ds where
  targets _ he := h.targets (lookup?_of_mem hds he) (hall _ (List.mem_map_of_mem he))
  defined _ _ hrefers :=
    h.mem (h.mem_of_refers hds (hall _ (mem_of_transGen (.single hrefers))) hrefers)
  acyclic _ hcycle := h.acyclic hds (hall _ (mem_of_transGen hcycle)) hcycle

/-- **Orders.** Definitions have an order just if every step names one thing, every reference is
defined, and none leads back. -/
theorem exists_order_iff (hds : (ds.map Entry.name).Nodup) :
    (∃ names, ds.order = .ok names) ↔ Orderable ds := by
  constructor
  · rintro ⟨names, h⟩
    obtain ⟨hordered, hperm⟩ := ordered_of_order hds h
    exact hordered.orderable hds fun _ => hperm.mem_iff.2
  · intro h
    have key : ∀ es : List Entry, (∀ e ∈ es, e ∈ ds) → ∀ done,
        ∃ names, es.foldlM (fun done e => visit ds [] done e.name) done = .ok names := by
      intro es
      induction es with
      | nil => exact fun _ done => ⟨done, rfl⟩
      | cons e es ih =>
        intro hes done
        obtain ⟨he, hes⟩ := List.forall_mem_cons.1 hes
        have hvisit : ∃ done', visit ds [] done e.name = .ok done' :=
          h.exists_visit (List.mem_map_of_mem he) nofun
        obtain ⟨done', hvisit⟩ := hvisit
        obtain ⟨names, hrest⟩ := ih hes done'
        exact ⟨names, bind_eq_ok.2 ⟨done', hvisit, hrest⟩⟩
    exact key ds (fun _ => id) []

end Definitions

end GuardedFlow
