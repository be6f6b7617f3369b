import GuardedFlow.Proofs.Engine.Order
import Mathlib.Data.List.Chain
import Mathlib.Data.List.Nodup

/-!
# How the search for an order ends

A search for an order ends on all definitions, with no more visits open at a time than there are
definitions and one (`Definitions.orderWithin_eq`). It fails for one of three reasons: a step that
does not name one thing, a reference that leads nowhere, or references in a circle
(`Definitions.Blames`). `Definitions.order_spec` puts this together with what an order is.

What carries the reasons is the path. It is a chain of references without repetitions, so a name
that is visited while it is on the path closes a circle of the part of the path that starts with it
(`Definitions.circular_cycleFrom`).
-/

namespace GuardedFlow.Definitions

variable {ds : Definitions} {name : String} {err : EngineError}

/-! ## Searching in a bounded depth -/

mutual

/-- `visit` with a bound on the visits that are open at a time. There is no result when the bound is
exceeded. -/
def visitWithin (ds : Definitions) (depth : Nat) (path done : List String) (name : String) :
    ExceptT EngineError Option (List String) :=
  match depth with
  | 0 => none
  | depth + 1 =>
    if name ∈ done then pure done
    else if name ∈ path then throw (.cycle (cycleFrom path name))
    else
      match ds.lookup? name with
      | none => throw (.unknownPipeline name)
      | some e => do
        let done ← stepsWithin ds depth (path ++ [name]) done e.definition.steps
        return done ++ [name]
termination_by (depth, 0)

/-- `visitSteps` with a bound on the visits that are open at a time. -/
def stepsWithin (ds : Definitions) (depth : Nat) (path done : List String)
    (steps : List StepDefinition) :
    ExceptT EngineError Option (List String) :=
  match steps with
  | [] => pure done
  | s :: rest =>
    match s.target with
    | .error f => throw (.fault f)
    | .ok (.processor _) => stepsWithin ds depth path done rest
    | .ok (.pipeline name) => do
      let done ← visitWithin ds depth path done name
      stepsWithin ds depth path done rest
termination_by (depth, steps.length + 1)

end

/-- `order` with a bound on the visits that are open at a time. -/
def orderWithin (ds : Definitions) (depth : Nat) : ExceptT EngineError Option (List String) :=
  ds.foldlM (fun done e => visitWithin ds depth [] done e.name) []

theorem mk_bind_mk {ε α β : Type} (x : Except ε α) (f : α → Except ε β) :
    (ExceptT.mk (some x) >>= fun a => ExceptT.mk (some (f a)) : ExceptT ε Option β) =
      ExceptT.mk (some (x >>= f)) := by
  cases x <;> rfl

mutual

/-- The bound is not exceeded while it is greater than the count of the names that can still be
started. -/
theorem visitWithin_eq {depth : Nat} {path done : List String} {name : String}
    (h : unvisited ds path < depth) :
    visitWithin ds depth path done name = ExceptT.mk (some (visit ds path done name)) := by
  match depth, h with
  | 0, h => exact absurd h (Nat.not_lt_zero _)
  | depth + 1, h =>
    have hfewer : ∀ e, ds.lookup? name = some e → name ∉ path →
        unvisited ds (path ++ [name]) < depth := fun e he hp =>
      Nat.lt_of_lt_of_le (unvisited_lt he hp) (Nat.le_of_lt_succ h)
    have hvisit := visit_spec ds path done name
    generalize visit ds path done name = result at hvisit ⊢
    cases hvisit with
    | known hmem =>
      rw [visitWithin, if_pos hmem]
      rfl
    | circle hnew hp =>
      rw [visitWithin, if_neg hnew, if_pos hp]
      rfl
    | undefined hnew hp he =>
      rw [visitWithin, if_neg hnew, if_neg hp, he]
      rfl
    | entered hnew hp he hsteps =>
      simp only [visitWithin, hnew, hp, he, ↓reduceIte]
      rw [stepsWithin_eq (hfewer _ he hp), hsteps]
      rfl
    | failed hnew hp he hsteps =>
      simp only [visitWithin, hnew, hp, he, ↓reduceIte]
      rw [stepsWithin_eq (hfewer _ he hp), hsteps]
      rfl
termination_by (depth, 0)

theorem stepsWithin_eq {depth : Nat} {path done : List String} {steps : List StepDefinition}
    (h : unvisited ds path < depth) :
    stepsWithin ds depth path done steps = ExceptT.mk (some (visitSteps ds path done steps)) := by
  cases steps with
  | nil =>
    rw [stepsWithin, visitSteps]
    rfl
  | cons s rest =>
    rw [stepsWithin, visitSteps]
    cases s.target with
    | error f => rfl
    | ok target =>
      cases target with
      | processor processor => exact stepsWithin_eq h
      | pipeline name =>
        dsimp only
        rw [visitWithin_eq h]
        cases visit ds path done name with
        | error err => rfl
        | ok done => exact stepsWithin_eq h
termination_by (depth, steps.length + 1)

end

/-- **The search ends.** No more visits are open at a time than there are definitions and one. -/
theorem orderWithin_eq (ds : Definitions) :
    orderWithin ds (ds.length + 1) = ExceptT.mk (some ds.order) := by
  have hall : unvisited ds [] < ds.length + 1 := Nat.lt_succ_of_le (List.length_filter_le ..)
  have key : ∀ (es : List Entry) (done : List String),
      es.foldlM (fun done e => visitWithin ds (ds.length + 1) [] done e.name) done =
        ExceptT.mk (some (es.foldlM (fun done e => visit ds [] done e.name) done)) := by
    intro es
    induction es with
    | nil => exact fun _ => rfl
    | cons e es ih =>
      intro done
      rw [List.foldlM_cons, List.foldlM_cons, visitWithin_eq hall, ← mk_bind_mk]
      exact bind_congr ih
  exact key ds []

/-! ## Why a search fails -/

/-- A way along references that comes back to where it starts, and to no other name twice. -/
structure Circular (ds : Definitions) (path : List String) : Prop where
  two_le_length : 2 ≤ path.length
  returns : path.head? = path.getLast?
  distinct : path.dropLast.Nodup
  refers : path.IsChain ds.Refers

/-- What an error of the search says of the definitions. -/
inductive Blames (ds : Definitions) : EngineError → Prop where
  | fault {e : Entry} {s : StepDefinition} {f : DefinitionFault} (he : e ∈ ds)
      (hs : s ∈ e.definition.steps) (hf : s.target = .error f) : Blames ds (.fault f)
  | unknownPipeline {a name : String} (hundefined : name ∉ ds.map Entry.name)
      (hrefers : ds.Refers a name) :
      Blames ds (.unknownPipeline name)
  | cycle {path : List String} (h : ds.Circular path) : Blames ds (.cycle path)

/-- The part of a path from a name on is a circle, if the last name of the path refers to it. -/
theorem circular_cycleFrom {path : List String} (hchain : (path ++ [name]).IsChain ds.Refers)
    (hdistinct : path.Nodup) (hmem : name ∈ path) : ds.Circular (cycleFrom path name) := by
  obtain ⟨before, after, rfl⟩ := List.append_of_mem hmem
  have hbefore : ∀ n ∈ before, (n != name) = true := fun n hn =>
    bne_iff_ne.2 ((List.nodup_append.1 hdistinct).2.2 n hn name List.mem_cons_self)
  have hcycle : cycleFrom (before ++ name :: after) name = name :: after ++ [name] := by
    rw [cycleFrom, List.dropWhile_append_of_pos hbefore, List.dropWhile_cons_of_neg (by simp)]
  rw [hcycle]
  refine ⟨by simp, by rw [List.getLast?_concat]; rfl, ?_, ?_⟩
  · rw [List.dropLast_concat]
    exact (List.nodup_append.1 hdistinct).2.1
  · rw [List.append_assoc] at hchain
    exact hchain.right_of_append

mutual

theorem blames_of_visit {path done : List String} {name : String} {err : EngineError}
    (hchain : (path ++ [name]).IsChain ds.Refers) (hdistinct : path.Nodup)
    (hname : name ∈ ds.map Entry.name ∨ ∃ a, ds.Refers a name)
    (h : visit ds path done name = .error err) : ds.Blames err := by
  have hvisit := visit_spec ds path done name
  rw [h] at hvisit
  cases hvisit with
  | circle hnew hp => exact .cycle (circular_cycleFrom hchain hdistinct hp)
  | undefined hnew hp he =>
    have hundefined := lookup?_eq_none_iff.1 he
    obtain ⟨a, hrefers⟩ := hname.resolve_left hundefined
    exact .unknownPipeline hundefined hrefers
  | @failed e _ hnew hp he hsteps =>
    cases name_of_lookup? he
    have hdistinct' : (path ++ [e.name]).Nodup :=
      List.nodup_append_comm.1 (List.nodup_cons.2 ⟨hp, hdistinct⟩)
    exact blames_of_visitSteps (List.mem_of_find?_eq_some he) (fun _ => id) hchain hdistinct' hsteps
termination_by (unvisited ds path, 0)
decreasing_by exact Prod.Lex.left _ _ (unvisited_lt (by assumption) (by assumption))

/-- The steps are some of those of the last name on the path. -/
theorem blames_of_visitSteps {path done : List String} {e : Entry} {steps : List StepDefinition}
    {err : EngineError} (he : e ∈ ds) (hsteps : ∀ s ∈ steps, s ∈ e.definition.steps)
    (hchain : (path ++ [e.name]).IsChain ds.Refers) (hdistinct : (path ++ [e.name]).Nodup)
    (h : visitSteps ds (path ++ [e.name]) done steps = .error err) :
    ds.Blames err := by
  cases steps with
  | nil =>
    rw [visitSteps] at h
    cases h
  | cons s rest =>
    obtain ⟨hs, hrest⟩ := List.forall_mem_cons.1 hsteps
    rw [visitSteps] at h
    split at h
    · next f hf =>
      cases h
      exact .fault he hs hf
    · exact blames_of_visitSteps he hrest hchain hdistinct h
    · next name htarget =>
      split at h
      · exact blames_of_visitSteps he hrest hchain hdistinct h
      · next err' hvisit =>
        cases h
        have hrefers : ds.Refers e.name name := ⟨e, he, rfl, s, hs, htarget⟩
        refine blames_of_visit ?_ hdistinct (.inr ⟨_, hrefers⟩) hvisit
        exact hchain.append_overlap (.cons_cons hrefers (.singleton name)) (List.cons_ne_nil _ _)
termination_by (unvisited ds (path ++ [e.name]), steps.length + 1)

end

/-- **Why there is no order.** An error of the search names a reason that is there. -/
theorem blames_of_order (h : ds.order = .error err) : ds.Blames err := by
  obtain ⟨e, he, done, hvisit⟩ := exists_of_foldlM_eq_error h
  exact blames_of_visit (.singleton e.name) List.nodup_nil (.inl (List.mem_map_of_mem he)) hvisit

/-- A circle leads from its first name back to it. -/
theorem Circular.transGen {path : List String} (h : ds.Circular path) :
    ∃ n, Relation.TransGen ds.Refers n n := by
  obtain ⟨hlength, hreturns, -, hchain⟩ := h
  match path, hlength with
  | a :: b :: rest, _ =>
    have hlast : (a :: b :: rest).getLast? = some a := hreturns.symm
    rw [List.getLast?_cons_cons, List.getLast?_eq_some_getLast (List.cons_ne_nil b rest),
      Option.some.injEq] at hlast
    obtain ⟨hfirst, hrest⟩ := List.isChain_cons_cons.1 hchain
    have hlong := List.relationReflTransGen_of_exists_isChain_cons rest hrest hlast
    exact ⟨a, .head' hfirst hlong⟩

/-- With nothing else to blame, there is no order just because of a circle. -/
theorem exists_cycle_iff (hds : (ds.map Entry.name).Nodup)
    (htargets : ∀ e ∈ ds, ∀ s ∈ e.definition.steps, ∃ target, s.target = .ok target)
    (hdefined : ∀ a b, ds.Refers a b → b ∈ ds.map Entry.name) :
    (∃ path, ds.order = .error (.cycle path)) ↔ ∃ n, Relation.TransGen ds.Refers n n := by
  constructor
  · rintro ⟨path, h⟩
    cases blames_of_order h with
    | cycle hpath => exact hpath.transGen
  · rintro ⟨n, hn⟩
    cases horder : ds.order with
    | ok names =>
      have horderable := (exists_order_iff hds).1 ⟨names, horder⟩
      exact absurd hn (horderable.acyclic n)
    | error err =>
      cases blames_of_order horder with
      | @fault e s f he hs hf =>
        obtain ⟨target, htarget⟩ := htargets e he s hs
        cases hf.symm.trans htarget
      | unknownPipeline hundefined hrefers => exact absurd (hdefined _ _ hrefers) hundefined
      | cycle _ => exact ⟨_, rfl⟩

/-- **The search for an order.** On definitions with names that differ it ends; an order has every
name once, and after all that its definition refers to; a circle is one of references; a name that
is unknown is referred to. -/
theorem order_spec (ds : Definitions) (hds : (ds.map Entry.name).Nodup) :
    orderWithin ds (ds.length + 1) = ExceptT.mk (some ds.order) ∧
    (∀ names, ds.order = .ok names → names.Perm (ds.map Entry.name) ∧
      ∀ before a after, names = before ++ a :: after → ∀ b, ds.Refers a b → b ∈ before) ∧
    (∀ path, ds.order = .error (.cycle path) → ds.Circular path) ∧
    (∀ name, ds.order = .error (.unknownPipeline name) → name ∉ ds.map Entry.name ∧
      ∃ a, ds.Refers a name) ∧
    ((∀ e ∈ ds, ∀ s ∈ e.definition.steps, ∃ target, s.target = .ok target) →
      (∀ a b, ds.Refers a b → b ∈ ds.map Entry.name) →
      ((∃ path, ds.order = .error (.cycle path)) ↔ ∃ n, Relation.TransGen ds.Refers n n)) := by
  refine ⟨orderWithin_eq ds, fun names h => ?_, fun path h => ?_, fun name h => ?_,
    exists_cycle_iff hds⟩
  · obtain ⟨hordered, hperm⟩ := ordered_of_order hds h
    refine ⟨hperm, fun before a after hnames b hrefers => ?_⟩
    subst hnames
    obtain ⟨-, e, hlookup, hsteps⟩ := hordered.split
    obtain ⟨e', he', hname, s, hs, htarget⟩ := hrefers
    cases ((lookup?_eq_some_iff hds).2 ⟨he', hname⟩).symm.trans hlookup
    obtain ⟨target, htarget', hrefs⟩ := hsteps s hs
    exact hrefs b (Except.ok.inj (htarget'.symm.trans htarget))
  · cases blames_of_order h with
    | cycle hpath => exact hpath
  · cases blames_of_order h with
    | unknownPipeline hundefined hrefers => exact ⟨hundefined, _, hrefers⟩

/-- Two pipelines that refer to each other, and one before them that refers to both. -/
def ringed : Definitions :=
  [⟨⟨"a", none, [{ pipeline := some "b" }, { pipeline := some "c" }]⟩, none⟩,
    ⟨⟨"b", none, [{ processor := some "p" }, { pipeline := some "c" }]⟩, none⟩,
    ⟨⟨"c", none, [{ pipeline := some "b" }]⟩, none⟩]

theorem order_spec_ringed : (ringed.map Entry.name).Nodup ∧
    ∃ path, ringed.order = .error (.cycle path) ∧ ringed.Circular path := by
  have hds : (ringed.map Entry.name).Nodup := by decide
  obtain ⟨-, -, hcircular, -, hcycle⟩ := order_spec ringed hds
  have htargets : ∀ e ∈ ringed, ∀ s ∈ e.definition.steps, ∃ target, s.target = .ok target := by
    simp [ringed, StepDefinition.target]
  have hdefined : ∀ a b, ringed.Refers a b → b ∈ ringed.map Entry.name := by
    rintro a b ⟨e, he, -, s, hs, htarget⟩
    obtain ⟨-, hpipeline⟩ := StepDefinition.target_eq_ok.1 htarget
    have hknown :
        ∀ e ∈ ringed, ∀ s ∈ e.definition.steps, ∀ name ∈ s.pipeline,
          name ∈ ringed.map Entry.name := by decide
    exact hknown e he s hs b hpipeline
  have hrefers : ringed.Refers "b" "c" ∧ ringed.Refers "c" "b" := by
    simp [Refers, ringed, Entry.name, StepDefinition.target]
  obtain ⟨path, hpath⟩ := (hcycle htargets hdefined).2 ⟨"b", .tail (.single hrefers.1) hrefers.2⟩
  exact ⟨hds, path, hpath, hcircular path hpath⟩

end GuardedFlow.Definitions
