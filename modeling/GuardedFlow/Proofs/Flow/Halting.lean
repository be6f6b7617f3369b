import GuardedFlow.Proofs.Flow.Turn

/-!
# Where a batch run halts

A response in a terminal state is to end the run. Over a collection it does, with one exception: a
response that answers no items and is no abort is not judged by its state, and a step that does not
filter goes on with the items that its guard excluded. `BatchPipeline.invoked_after_terminal_iff`
says exactly when a processor is invoked after a terminal response.

The exception rests on two facts: which verdict a terminal response gets
(`BatchStep.judge_of_isTerminal`), and which collections a run over given steps invokes a processor
on (`BatchStep.exists_invoked_iff`).
-/

namespace GuardedFlow

variable {α : Type}

/-- Whether the step's processor was invoked. -/
def Visit.isInvoked {β : Type} : Visit β → Bool
  | skipped => false
  | invoked .. => true

namespace BatchStep

/-- **One step.** A terminal response stops the run, unless it answers no items, is no abort, and
the step does not filter. -/
theorem judge_of_isTerminal (s : BatchStep α) (excluded : List α) {r : Response (List α)}
    (h : r.state.isTerminal = true) :
    (r.state.isError = false ∧ r.data.getD [] = [] ∧ s.filter = false ∧
      (s.judge excluded r).2 = .proceed excluded) ∨
    (¬(r.state.isError = false ∧ r.data.getD [] = [] ∧ s.filter = false) ∧
      ∃ response, (s.judge excluded r).2 = .stop response) := by
  rcases response_cases r with herror | ⟨herror, ⟨x, xs, hdata⟩ | hdata⟩
  · rw [judge_of_isError s excluded herror]
    exact Or.inr
      ⟨by simp [herror], Response.verdict_of_stops s.name (Response.stops_iff.2 (Or.inr h))⟩
  · rw [judge_of_items s excluded herror hdata]
    refine Or.inr ⟨by simp [hdata], ?_⟩
    have hwhole : (s.whole excluded (x :: xs) r).stops = true := Response.stops_iff.2 (Or.inr h)
    exact Response.verdict_of_stops s.name hwhole
  · rw [judge_of_no_items s excluded herror hdata]
    cases hfilter : s.filter with
    | false => exact Or.inl ⟨herror, hdata, rfl, by simp [withoutItems, hfilter]⟩
    | true => exact Or.inr ⟨by simp, filteredOut, by simp [withoutItems, hfilter]⟩

/-- One of the steps accepts one of the items, and no step before it filters. -/
def Admits (steps : List (BatchStep α)) (items : List α) : Prop :=
  ∃ between t later, steps = between ++ t :: later ∧ (∀ u ∈ between, u.filter = false) ∧
    ∃ x ∈ items, t.accepts x = true

theorem not_admits_nil (items : List α) : ¬Admits [] items := by
  rintro ⟨between, t, later, hsteps, -⟩
  cases between <;> cases hsteps

theorem admits_cons_iff (s : BatchStep α) (rest : List (BatchStep α)) (items : List α) :
    Admits (s :: rest) items ↔
      items.any s.accepts = true ∨ s.filter = false ∧ Admits rest items := by
  rw [List.any_eq_true]
  constructor
  · rintro ⟨between, t, later, hsteps, hbetween, haccepts⟩
    cases between with
    | nil =>
      obtain ⟨rfl, rfl⟩ := List.cons.inj hsteps
      exact Or.inl haccepts
    | cons u between =>
      obtain ⟨rfl, rfl⟩ := List.cons.inj hsteps
      exact Or.inr ⟨hbetween s List.mem_cons_self, between, t, later, rfl,
        fun u hu => hbetween u (List.mem_cons_of_mem s hu), haccepts⟩
  · rintro (haccepts | ⟨hfilter, between, t, later, rfl, hbetween, haccepts⟩)
    · exact ⟨[], s, rest, rfl, by simp, haccepts⟩
    · refine ⟨s :: between, t, later, rfl, fun u hu => ?_, haccepts⟩
      rcases List.mem_cons.1 hu with rfl | hu
      · exact hfilter
      · exact hbetween u hu

/-- **Which runs invoke.** A run invokes a processor just if one of its steps, not behind a filter,
accepts one of the items that the run begins with. -/
theorem exists_invoked_iff (context : Context) (steps : List (BatchStep α)) (items : List α) :
    (∃ visit ∈ (runAll context steps items).trace, visit.isInvoked = true) ↔
      Admits steps items := by
  induction steps with
  | nil => simp [(byTurns context).nil, Run.done, not_admits_nil]
  | cons s rest ih =>
    rw [admits_cons_iff]
    by_cases hitems : items = []
    · subst hitems
      rw [(byTurns context).unbegun (by simp)]
      -- no step accepts an item of the empty collection
      have hrest : ¬Admits rest ([] : List α) := by
        rintro ⟨-, -, -, -, -, x, hx, -⟩
        cases hx
      simp [Run.done, hrest]
    · rw [(byTurns context).begun hitems, Turn.trace_lead]
      cases hany : items.any s.accepts with
      | true => simp [turn_of_any context hany, Visit.isInvoked]
      | false =>
        rw [turn_of_not_any context hany]
        cases hfilter : s.filter with
        | true => simp [withoutItems, hfilter, Verdict.follow, Run.done, Visit.isInvoked]
        | false => simpa [withoutItems, hfilter, Verdict.follow, Visit.isInvoked] using ih

end BatchStep

/-- **After a terminal response.** A later step's processor is invoked just if the response is no
abort and answers no items, the step does not filter, and one of the steps behind it accepts one of
the excluded items, with no filter in between. No processor is invoked after any other terminal
response. -/
theorem BatchPipeline.invoked_after_terminal_iff (p : BatchPipeline α) (items : List α)
    (context : Context) {i : Nat} {s : BatchStep α} {received : List α} {r : Response (List α)}
    {calls : List (Call (List α))} (hs : p.steps[i]? = some s)
    (hvisit : (p.run items context).trace[i]? = some (.invoked received r calls))
    (hterminal : r.state.isTerminal = true) :
    (∃ visit ∈ (p.run items context).trace.drop (i + 1), visit.isInvoked = true) ↔
      r.state.isError = false ∧ r.data.getD [] = [] ∧ s.filter = false ∧
        BatchStep.Admits (p.steps.drop (i + 1)) (s.excluded received) := by
  obtain ⟨-, -, htrace⟩ := BatchStep.from_invoked hs hvisit
  have hrun : (p.run items context).trace = (BatchStep.runAll context p.steps items).trace := rfl
  rw [hrun, htrace]
  rcases s.judge_of_isTerminal (s.excluded received) hterminal with
    ⟨herror, hdata, hfilter, hjudge⟩ | ⟨hexcept, response, hjudge⟩
  · rw [hjudge]
    have hinvoked :=
      BatchStep.exists_invoked_iff context (p.steps.drop (i + 1)) (s.excluded received)
    simpa [Verdict.follow, herror, hdata, hfilter] using hinvoked
  · rw [hjudge]
    refine iff_of_false (by simp [Verdict.follow, Run.done]) ?_
    rintro ⟨herror, hdata, hfilter, -⟩
    exact hexcept ⟨herror, hdata, hfilter⟩

/-- A stop that answers no items, with one item excluded: the step behind it is invoked on that
item. -/
theorem BatchPipeline.invoked_after_stopWithOk :
    let halt : Processor (List Nat) := ⟨"halt", fun items _ =>
      (.response ⟨.stopWithOk, some [], none, []⟩, [⟨"halt", items⟩])⟩
    let later : Processor (List Nat) :=
      ⟨"later", fun items _ => (.response (.ok items), [⟨"later", items⟩])⟩
    let big : Predicate Nat := ⟨"n > 1", fun n => decide (1 < n)⟩
    let p : BatchPipeline Nat :=
      ⟨"batch", [⟨halt, some big, false⟩, ⟨later, none, false⟩], by decide⟩
    (p.run [1, 2] []).trace[0]? =
      some (.invoked [1, 2] ⟨.stopWithOk, some [], none, []⟩ [⟨"halt", [1, 2]⟩]) ∧
    State.stopWithOk.isTerminal = true ∧
    (∃ visit ∈ (p.run [1, 2] []).trace.drop 1, visit.isInvoked = true) ∧
    (p.run [1, 2] []).calls = [⟨"halt", [1, 2]⟩, ⟨"later", [1]⟩] := by
  intro halt later big p
  refine ⟨rfl, rfl, ?_, rfl⟩
  refine (p.invoked_after_terminal_iff [1, 2] [] (i := 0)
    (s := ⟨halt, some big, false⟩) rfl rfl rfl).2 ?_
  exact ⟨rfl, rfl, rfl, [], ⟨later, none, false⟩, [], rfl, by simp, 1, by decide, rfl⟩

end GuardedFlow
