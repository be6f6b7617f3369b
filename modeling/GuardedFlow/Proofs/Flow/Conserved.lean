import GuardedFlow.Proofs.Flow.Turn

/-!
# Batches of steps that select

A step whose processor answers the items on which its guard holds, and those only, does one of two
things to a collection: it drops the others if it filters, and puts them behind if it does not
(`BatchStep.onward`). So a run of such steps loses what a filter drops and nothing else:
`BatchPipeline.run_conserves` says which items come out, and in which order.

A filter and a stable partition can change places (`BatchStep.filter_partition`). This is why the
order of the items that are left is the one in which the other steps alone put them.
-/

namespace GuardedFlow

variable {α : Type}

namespace BatchStep

/-! ## What a step that selects does -/

/-- The processor answers a collection with the items on which the guard holds. -/
def Selects (context : Context) (s : BatchStep α) : Prop :=
  ∀ items, ∃ r calls, s.processor.run items context = (.response r, calls) ∧ r.state = .ok ∧
    r.data = some (items.filter s.accepts)

/-- A collection with the items on which the guard holds in front of the others, each in their
order. -/
def partition (s : BatchStep α) (items : List α) : List α :=
  items.filter s.accepts ++ s.excluded items

/-- What is left of a collection after a step that selects. -/
def onward (s : BatchStep α) (items : List α) : List α :=
  if s.filter then items.filter s.accepts else s.partition items

theorem perm_partition (s : BatchStep α) (items : List α) : (s.partition items).Perm items :=
  List.filter_append_perm s.accepts items

theorem onward_of_not_any {s : BatchStep α} {items : List α} (h : items.any s.accepts = false) :
    s.onward items = if s.filter then [] else items := by
  have hnone : items.filter s.accepts = [] := by
    rw [List.filter_eq_nil_iff]
    exact List.any_eq_false.1 h
  rw [onward, partition, hnone, excluded_of_not_any h, List.nil_append]

theorem withoutItems_eq {s : BatchStep α} {items : List α} (hitems : items ≠ [])
    (h : items.any s.accepts = false) :
    s.withoutItems items = if s.onward items = [] then .stop filteredOut
      else .proceed (s.onward items) := by
  rw [onward_of_not_any h, withoutItems]
  cases s.filter with
  | true => rfl
  | false => exact (if_neg hitems).symm

theorem merged_eq_onward (s : BatchStep α) (items : List α) :
    s.merged (items.filter s.accepts) (s.excluded items) = s.onward items := rfl

/-- **One step.** It goes on with what it leaves of the collection, as long as that is not empty. -/
theorem verdict_turn {context : Context} {s : BatchStep α} (h : s.Selects context) {items : List α}
    (hitems : items ≠ []) :
    (s.turn context items).verdict =
      if s.onward items = [] then .stop filteredOut else .proceed (s.onward items) := by
  cases hany : items.any s.accepts with
  | false =>
    rw [turn_of_not_any context hany]
    exact withoutItems_eq hitems hany
  | true =>
    obtain ⟨r, calls, hrun, hstate, hdata⟩ := h items
    have hinvoke : (s.processor.invoke items context).1 = r := by
      rw [Processor.invoke, hrun]
      rfl
    have hsome : items.filter s.accepts ≠ [] := by
      rw [Ne, List.filter_eq_nil_iff]
      exact fun hnone => by rw [List.any_eq_false.2 hnone] at hany; cases hany
    obtain ⟨x, xs, hselected⟩ := List.exists_cons_of_ne_nil hsome
    have herror : r.state.isError = false := by rw [hstate]; rfl
    have honward : s.onward items ≠ [] := by
      rw [← merged_eq_onward, hselected]
      exact merged_ne_nil s _ x xs
    rw [turn_of_any context hany, hinvoke,
      judge_of_items s _ herror (hdata.trans (congrArg some hselected)), ← hselected,
      if_neg honward]
    unfold whole Response.verdict
    rw [hstate, merged_eq_onward]

/-! ## What a run of them does -/

/-- What is left of a collection after steps that select. -/
def remaining (steps : List (BatchStep α)) (items : List α) : List α :=
  steps.foldl (fun items s => s.onward items) items

theorem remaining_nil (steps : List (BatchStep α)) : remaining steps [] = [] := by
  induction steps with
  | nil => rfl
  | cons s rest ih =>
    have hempty : s.onward [] = [] := by
      cases hfilter : s.filter <;> simp [onward, partition, excluded, hfilter]
    rw [remaining, List.foldl_cons, hempty]
    exact ih

/-- **A run** ends with what is left, and as a filter ends it if nothing is left. -/
theorem response_runAll {context : Context} {steps : List (BatchStep α)}
    (h : ∀ s ∈ steps, s.Selects context) {items : List α} (hitems : items ≠ []) :
    (runAll context steps items).response.state =
      (if remaining steps items = [] then .nullData else .ok) ∧
      (runAll context steps items).response.data = some (remaining steps items) := by
  induction steps generalizing items with
  | nil =>
    rw [(byTurns context).nil, remaining, List.foldl_nil, if_neg hitems]
    exact ⟨rfl, rfl⟩
  | cons s rest ih =>
    obtain ⟨hs, hrest⟩ := List.forall_mem_cons.1 h
    rw [(byTurns context).begun hitems, Turn.response_lead, verdict_turn hs hitems, remaining,
      List.foldl_cons]
    by_cases honward : s.onward items = []
    · rw [if_pos honward, honward]
      have hnil := remaining_nil rest
      rw [remaining] at hnil
      rw [hnil, if_pos rfl]
      exact ⟨rfl, rfl⟩
    · rw [if_neg honward]
      exact ih hrest honward

/-! ## Which items are left, and in which order -/

/-- Whether the guards of all steps that filter hold on an item. -/
def admits (steps : List (BatchStep α)) (item : α) : Bool :=
  steps.all fun s => !s.filter || s.accepts item

/-- A collection as the steps that do not filter order it, one after the other. -/
def arrange (steps : List (BatchStep α)) (items : List α) : List α :=
  (steps.filter fun s => !s.filter).foldl (fun items s => s.partition items) items

theorem perm_arrange (steps : List (BatchStep α)) (items : List α) :
    (arrange steps items).Perm items := by
  unfold arrange
  induction steps.filter fun s => !s.filter generalizing items with
  | nil => exact .refl items
  | cons s rest ih => exact (ih (s.partition items)).trans (s.perm_partition items)

/-- Filtering does not change the order in which a partition puts the items that are left. -/
theorem filter_partition (s : BatchStep α) (p : α → Bool) (items : List α) :
    (s.partition items).filter p = s.partition (items.filter p) := by
  simp only [partition, excluded, List.filter_append, List.filter_filter, Bool.and_comm]

theorem remaining_eq_arrange (steps : List (BatchStep α)) (items : List α) :
    remaining steps items = arrange steps (items.filter (admits steps)) := by
  induction steps generalizing items with
  | nil => exact (List.filter_eq_self.2 fun _ _ => rfl).symm
  | cons s rest ih =>
    have hrest : remaining (s :: rest) items = remaining rest (s.onward items) := rfl
    rw [hrest, ih]
    cases hfilter : s.filter with
    | true =>
      have hadmits : admits (s :: rest) = fun item => s.accepts item && admits rest item := by
        funext item
        simp [admits, hfilter]
      have harrange : arrange (s :: rest) = arrange rest := by
        funext items
        simp [arrange, hfilter]
      rw [onward, if_pos hfilter, List.filter_filter, hadmits, harrange]
      simp only [Bool.and_comm]
    | false =>
      have hadmits : admits (s :: rest) = admits rest := by
        funext item
        simp [admits, hfilter]
      have harrange : ∀ items, arrange (s :: rest) items = arrange rest (s.partition items) := by
        intro items
        simp [arrange, hfilter]
      rw [onward, hfilter, if_neg Bool.false_ne_true, filter_partition, hadmits, harrange]

end BatchStep

/-- **Items are conserved.** A run of steps that select ends well with the items on which the guards
of all filters hold, in the order in which the other steps put them; it has no data if there are
none. Without filters all items come out. -/
theorem BatchPipeline.run_conserves (p : BatchPipeline α) (context : Context)
    (hp : ∀ s ∈ p.steps, s.Selects context) {items : List α} (hitems : items ≠ []) :
    ((∃ item ∈ items, BatchStep.admits p.steps item = true) →
      (p.run items context).response.state = .ok ∧
      ∃ left, (p.run items context).response.data = some left ∧
        left = BatchStep.arrange p.steps (items.filter (BatchStep.admits p.steps)) ∧
        left.Perm (items.filter (BatchStep.admits p.steps))) ∧
    ((∀ item ∈ items, BatchStep.admits p.steps item = false) →
      (p.run items context).response.state = .nullData ∧
      (p.run items context).response.data = some []) ∧
    ((∀ s ∈ p.steps, s.filter = false) →
      (p.run items context).response.state = .ok ∧
        ∃ left, (p.run items context).response.data = some left ∧ left.Perm items) := by
  obtain ⟨hstate, hdata⟩ := BatchStep.response_runAll hp hitems
  rw [BatchStep.remaining_eq_arrange] at hstate hdata
  have hperm := BatchStep.perm_arrange p.steps (items.filter (BatchStep.admits p.steps))
  have hsome : (∃ item ∈ items, BatchStep.admits p.steps item = true) →
      (p.run items context).response.state = .ok ∧
      ∃ left, (p.run items context).response.data = some left ∧
        left = BatchStep.arrange p.steps (items.filter (BatchStep.admits p.steps)) ∧
        left.Perm (items.filter (BatchStep.admits p.steps)) := by
    rintro ⟨item, hitem, hadmits⟩
    have hleft : BatchStep.arrange p.steps (items.filter (BatchStep.admits p.steps)) ≠ [] :=
      List.ne_nil_of_mem (hperm.symm.mem_iff.1 (List.mem_filter.2 ⟨hitem, hadmits⟩))
    rw [if_neg hleft] at hstate
    exact ⟨hstate, _, hdata, rfl, hperm⟩
  refine ⟨hsome, fun h => ?_, fun h => ?_⟩
  · have hnone : items.filter (BatchStep.admits p.steps) = [] := by
      rw [List.filter_eq_nil_iff]
      exact fun item hitem => by rw [h item hitem]; exact Bool.false_ne_true
    rw [hnone] at hperm hstate hdata
    rw [hperm.eq_nil] at hstate hdata
    exact ⟨hstate, hdata⟩
  · have hall : ∀ item, BatchStep.admits p.steps item = true := by
      intro item
      rw [BatchStep.admits, List.all_eq_true]
      exact fun s hs => by rw [h s hs]; rfl
    obtain ⟨item, hitem⟩ := List.exists_mem_of_ne_nil items hitems
    obtain ⟨hok, left, hleft, -, hperm⟩ := hsome ⟨item, hitem, hall item⟩
    rw [List.filter_eq_self.2 fun item _ => hall item] at hperm
    exact ⟨hok, left, hleft, hperm⟩

/-- A step that answers the items on which a predicate holds. -/
def BatchStep.selecting (name : String) (p : Predicate α) (filter : Bool) : BatchStep α :=
  ⟨⟨name, fun items _ => (.response ⟨.ok, some (items.filter p.test), none, []⟩, [])⟩,
    some p, filter⟩

theorem BatchStep.selects_selecting (context : Context) (name : String) (p : Predicate α)
    (filter : Bool) :
    (selecting name p filter).Selects context := fun _ => ⟨_, _, rfl, rfl, rfl⟩

/-- Puts numbers that are greater than four in front, drops odd ones, and puts those that are not
four in front. -/
def BatchPipeline.sorting : BatchPipeline Nat where
  name := "sorting"
  steps :=
    [.selecting "large" ⟨"n > 4", fun n => 4 < n⟩ false,
      .selecting "even" ⟨"n % 2 = 0", fun n => n % 2 == 0⟩ true,
      .selecting "rest" ⟨"n != 4", fun n => n != 4⟩ false]
  distinct := by decide

theorem BatchPipeline.run_conserves_sorting :
    (∀ s ∈ sorting.steps, s.Selects []) ∧ [4, 2, 1, 6, 2] ≠ [] ∧
    (sorting.run [4, 2, 1, 6, 2] []).response.state = .ok ∧
    (sorting.run [4, 2, 1, 6, 2] []).response.data = some [6, 2, 2, 4] := by
  have hsteps : ∀ s ∈ sorting.steps, s.Selects [] := by simp [sorting, BatchStep.selects_selecting]
  have hitems : [4, 2, 1, 6, 2] ≠ [] := List.cons_ne_nil _ _
  obtain ⟨hok, left, hdata, hleft, -⟩ :=
    (run_conserves sorting [] hsteps hitems).1 ⟨4, by decide, by decide⟩
  have harrange : left = [6, 2, 2, 4] := hleft.trans (by decide)
  exact ⟨hsteps, hitems, hok, hdata.trans (congrArg some harrange)⟩

end GuardedFlow
