import GuardedFlow.Proofs.Flow.Turn

/-!
# The item that a run carries

A run over one item carries the item from step to step. `Pipeline.lawful_run` is the law of such a
run: which steps are invoked, on what, where the run stops and what it ends with, all read off its
trace. What reaches a step is `Run.carried`, the data of the last response before it; a response
stops the run if it has no data or is terminal (`Response.stops`).

The law comes from one turn (`Step.verdict_turn`), which either goes on with what its visit carries
or stops. By induction, the trace has the turn of every step that is reached
(`Step.getElem?_trace`), and a run that nothing stops is a success (`Step.runAll_of_not_stops`);
what a stop leads to is `Step.runAll_of_stops`.
-/

namespace GuardedFlow

variable {β : Type}

/-! ## What is carried -/

namespace Visit

/-- A step that was skipped stops nothing. -/
def stops : Visit β → Bool
  | skipped => false
  | invoked _ r _ => r.stops

/-- The item that is left of an item after some visits. -/
def carry (item : β) : List (Visit β) → β
  | [] => item
  | skipped :: rest => carry item rest
  | invoked _ r _ :: rest => carry (r.data.getD item) rest

theorem carry_append (item : β) (first second : List (Visit β)) :
    carry item (first ++ second) = carry (carry item first) second := by
  induction first generalizing item with
  | nil => rfl
  | cons visit rest ih => cases visit <;> exact ih _

theorem carry_cons (item : β) (visit : Visit β) (rest : List (Visit β)) :
    carry item (visit :: rest) = carry (carry item [visit]) rest :=
  carry_append item [visit] rest

end Visit

/-- The item that reaches the step in a place, for a run that began with the given item. -/
def Run.carried (run : Run β) (item : β) (place : Nat) : β :=
  Visit.carry item (run.trace.take place)

theorem Run.carried_succ (run : Run β) (item : β) {i : Nat} {visit : Visit β}
    (h : run.trace[i]? = some visit) :
    run.carried item (i + 1) = Visit.carry (run.carried item i) [visit] := by
  rw [carried, List.take_add_one, h, Visit.carry_append]
  rfl

/-! ## The trace -/

namespace Step

variable {α : Type} (context : Context)

/-- **One turn.** A visit that does not stop goes on with what it carries, and any other stops. -/
theorem verdict_turn (s : Step α) (item : α) :
    ((s.turn context item).visit.stops = false ∧
      (s.turn context item).verdict = .proceed (Visit.carry item [(s.turn context item).visit])) ∨
    ((s.turn context item).visit.stops = true ∧
      ∃ response, (s.turn context item).verdict = .stop response) := by
  cases haccepts : s.accepts item with
  | false =>
    rw [turn_of_not_accepts context haccepts]
    exact Or.inl ⟨rfl, rfl⟩
  | true =>
    rw [turn_of_accepts context haccepts]
    cases hstops : (s.processor.invoke item context).1.stops with
    | true => exact Or.inr ⟨hstops, Response.verdict_of_stops s.name hstops⟩
    | false =>
      obtain ⟨data, hdata, hverdict⟩ := Response.verdict_of_not_stops s.name hstops
      refine Or.inl ⟨hstops, hverdict.trans ?_⟩
      rw [Visit.carry, hdata]
      rfl

/-- **One place.** Where nothing stopped before, the trace has the turn of the step on the item
carried to it. -/
theorem getElem?_trace {steps : List (Step α)} {i : Nat} {s : Step α}
    (hs : steps[i]? = some s) {item : α}
    (h : ∀ visit ∈ (runAll context steps item).trace.take i, visit.stops = false) :
    (runAll context steps item).trace[i]? =
      some (s.turn context ((runAll context steps item).carried item i)).visit := by
  -- by induction on the steps: the first turn carries on to the run of the rest, since it does
  -- not stop
  induction steps generalizing item i with
  | nil => simp at hs
  | cons t rest ih =>
    rw [Run.carried]
    rw [(byTurns context).begun trivial, Turn.trace_lead] at h ⊢
    cases i with
    | zero =>
      obtain rfl : t = s := by simpa using hs
      rfl
    | succ i =>
      rw [List.take_succ_cons, List.forall_mem_cons] at h
      rw [List.getElem?_cons_succ, List.take_succ_cons, Visit.carry_cons]
      rcases verdict_turn context t item with ⟨-, hverdict⟩ | ⟨hstops, -⟩
      · rw [hverdict] at h ⊢
        exact ih hs h.2
      · rw [h.1] at hstops
        cases hstops

/-- **A stop.** A response that stops is the last visit, and decides what the run ends with. -/
theorem runAll_of_stops {steps : List (Step α)} {item : α} {i : Nat} {received : α} {r : Response α}
    {calls : List (Call α)}
    (hvisit : (runAll context steps item).trace[i]? = some (.invoked received r calls))
    (hstops : r.stops = true) :
    (runAll context steps item).trace.length = i + 1 ∧
      (runAll context steps item).response.data = r.data ∧
      (runAll context steps item).response.state = r.endState := by
  obtain ⟨s, -, -, hs, -⟩ := (byTurns context).from_visit hvisit
  obtain ⟨-, -, htrace, reports, hresponse⟩ := from_invoked hs hvisit
  obtain ⟨response, hverdict⟩ := Response.verdict_of_stops s.name hstops
  obtain ⟨hdata, hstate, -⟩ := Response.of_stop hverdict
  rw [hverdict] at htrace hresponse
  obtain ⟨hi, -⟩ := List.getElem?_eq_some_iff.1 hvisit
  have hlast : (runAll context steps item).trace.length ≤ i + 1 := List.drop_eq_nil_iff.1 htrace
  refine ⟨Nat.le_antisymm hlast hi, ?_, ?_⟩
  · rw [hresponse]
    exact hdata
  · rw [hresponse]
    exact hstate

/-- **A run through all steps.** What nothing stops is a success with the item that is carried to
the end. -/
theorem runAll_of_not_stops {steps : List (Step α)} {item : α}
    (h : ∀ visit ∈ (runAll context steps item).trace, visit.stops = false) :
    (runAll context steps item).trace.length = steps.length ∧
      (runAll context steps item).response.state = .ok ∧
      (runAll context steps item).response.data =
        some (Visit.carry item (runAll context steps item).trace) := by
  induction steps generalizing item with
  | nil => exact ⟨rfl, rfl, rfl⟩
  | cons s rest ih =>
    rw [(byTurns context).begun trivial, Turn.trace_lead] at h ⊢
    rw [List.forall_mem_cons] at h
    rcases verdict_turn context s item with ⟨-, hverdict⟩ | ⟨hstops, -⟩
    · rw [Turn.response_lead, Visit.carry_cons]
      rw [hverdict] at h ⊢
      obtain ⟨hlength, hstate, hdata⟩ := ih h.2
      exact ⟨congrArg Nat.succ hlength, hstate, hdata⟩
    · rw [h.1] at hstops
      cases hstops

theorem lt_length_trace_iff {steps : List (Step α)} {i : Nat} {s : Step α} (hs : steps[i]? = some s)
    (item : α) :
    i < (runAll context steps item).trace.length ↔
      ∀ visit ∈ (runAll context steps item).trace.take i, visit.stops = false := by
  constructor
  · intro hi visit hvisit
    obtain ⟨j, hj, hplace⟩ := List.mem_take_iff_getElem.1 hvisit
    cases visit with
    | skipped => rfl
    | invoked received r calls =>
      -- a stop in an earlier place would have been the last visit
      refine Bool.eq_false_iff.2 fun hstops => ?_
      obtain ⟨hlength, -⟩ :=
        runAll_of_stops context (List.getElem?_eq_some_iff.2 ⟨_, hplace⟩) hstops
      omega
  · intro h
    exact (List.getElem?_eq_some_iff.1 (getElem?_trace context hs h)).1

theorem exists_invoked_iff {steps : List (Step α)} {i : Nat} {s : Step α} (hs : steps[i]? = some s)
    (item : α) :
    (∃ received r calls, (runAll context steps item).trace[i]? = some (.invoked received r calls)) ↔
      (∀ visit ∈ (runAll context steps item).trace.take i, visit.stops = false) ∧
        s.accepts ((runAll context steps item).carried item i) = true := by
  constructor
  · rintro ⟨received, r, calls, hvisit⟩
    have hreached := (lt_length_trace_iff context hs item).1 (List.getElem?_eq_some_iff.1 hvisit).1
    rw [getElem?_trace context hs hreached] at hvisit
    refine ⟨hreached, ?_⟩
    cases haccepts : s.accepts ((runAll context steps item).carried item i) with
    | true => rfl
    | false => rw [turn_of_not_accepts context haccepts] at hvisit; cases hvisit
  · rintro ⟨hreached, haccepts⟩
    rw [getElem?_trace context hs hreached, turn_of_accepts context haccepts]
    exact ⟨_, _, _, rfl⟩

theorem received_eq_carried {steps : List (Step α)} {item : α} {i : Nat} {s : Step α} {received : α}
    {r : Response α} {calls : List (Call α)} (hs : steps[i]? = some s)
    (hvisit : (runAll context steps item).trace[i]? = some (.invoked received r calls)) :
    received = (runAll context steps item).carried item i := by
  obtain ⟨hreached, haccepts⟩ := (exists_invoked_iff context hs item).1 ⟨_, _, _, hvisit⟩
  rw [getElem?_trace context hs hreached, turn_of_accepts context haccepts] at hvisit
  exact (Visit.invoked.inj (Option.some.inj hvisit)).1.symm

end Step

/-! ## The law -/

/-- What a run over one item does. -/
structure Run.Lawful {α : Type} (context : Context) (steps : List (Step α)) (item : α)
    (run : Run α) :
    Prop where
  /-- A step is reached just if nothing before it stopped the run. -/
  reached_iff : ∀ {i s}, steps[i]? = some s →
    (i < run.trace.length ↔ ∀ visit ∈ run.trace.take i, visit.stops = false)
  /-- A step is invoked just if nothing before it stopped the run and its guard holds on the carried
  item. -/
  invoked_iff : ∀ {i s}, steps[i]? = some s →
    ((∃ received r calls, run.trace[i]? = some (.invoked received r calls)) ↔
      (∀ visit ∈ run.trace.take i, visit.stops = false) ∧ s.accepts (run.carried item i) = true)
  /-- An invoked step works on the carried item; without an answer its response is an unhandled
  error. -/
  invoked : ∀ {i s received r calls}, steps[i]? = some s →
    run.trace[i]? = some (.invoked received r calls) →
      received = run.carried item i ∧ calls = (s.processor.run received context).2 ∧
      (∀ answer, (s.processor.run received context).1 = .response answer → r = answer) ∧
      ((∀ answer, (s.processor.run received context).1 ≠ .response answer) →
        r.state = .unhandledError ∧ r.data = none)
  /-- The visits are those of the steps in order, one for each at most, and the calls are theirs. -/
  visits : run.trace.length ≤ steps.length ∧ run.calls = run.trace.flatMap Visit.calls
  /-- The item that the run began with reaches the first step. -/
  carried_zero : run.carried item 0 = item
  /-- A step that is skipped leaves the item as it is. -/
  carried_skipped : ∀ {i}, run.trace[i]? = some .skipped →
    run.carried item (i + 1) = run.carried item i
  /-- The data of a response is what is carried on. -/
  carried_invoked : ∀ {i received r calls data}, run.trace[i]? = some (.invoked received r calls) →
    r.data = some data → run.carried item (i + 1) = data
  /-- After a response without data or in a terminal state the run ends with its data, and with its
  state unless that is no abort and the data is missing. -/
  stopped : ∀ {i received r calls}, run.trace[i]? = some (.invoked received r calls) →
    (r.data = none ∨ r.state.isTerminal = true) →
      run.trace.length = i + 1 ∧ run.response.data = r.data ∧
      (r.state = .fatalError ∨ r.state = .unhandledError → run.response.state = r.state) ∧
      (r.state ≠ .fatalError ∧ r.state ≠ .unhandledError → r.data = none →
        run.response.state = .nullData) ∧
      (r.data ≠ none → run.response.state = r.state)
  /-- What nothing stops is a success with the item that is carried to the end. -/
  completed : (∀ visit ∈ run.trace, visit.stops = false) →
    run.trace.length = steps.length ∧ run.response.state = .ok ∧
      run.response.data = some (run.carried item steps.length)

/-- A processor that gives no answer counts as one that answers with an unhandled error. -/
theorem Outcome.toResponse_of_no_answer {outcome : Outcome β}
    (h : ∀ answer, outcome ≠ .response answer) :
    outcome.toResponse.state = .unhandledError ∧ outcome.toResponse.data = none := by
  cases outcome with
  | response r => exact absurd rfl (h r)
  | failure cause => exact ⟨rfl, rfl⟩
  | panic message => exact ⟨rfl, rfl⟩

/-- **The law of a run over one item.** -/
theorem Pipeline.lawful_run {α : Type} (p : Pipeline α) (item : α) (context : Context) :
    (p.run item context).Lawful context p.steps item where
  reached_iff hs := Step.lt_length_trace_iff context hs item
  invoked_iff hs := Step.exists_invoked_iff context hs item
  invoked {i s received r calls} hs hvisit := by
    obtain ⟨-, hanswer, -⟩ := Step.from_invoked hs hvisit
    have hreceived := Step.received_eq_carried context hs hvisit
    obtain ⟨rfl, rfl⟩ := Prod.mk.inj hanswer
    refine ⟨hreceived, rfl, fun answer h => ?_, fun h => Outcome.toResponse_of_no_answer h⟩
    rw [h]
    rfl
  visits := ⟨(Step.byTurns context).length_trace_le p.steps item, rfl⟩
  carried_zero := rfl
  carried_skipped hvisit := Run.carried_succ _ item hvisit
  carried_invoked hvisit hdata := by
    rw [Run.carried_succ _ item hvisit, Visit.carry, hdata]
    rfl
  stopped {i received r calls} hvisit hstops := by
    obtain ⟨hlength, hdata, hstate⟩ :=
      Step.runAll_of_stops context hvisit (Response.stops_iff.2 hstops)
    refine ⟨hlength, hdata, fun herror => ?_, fun ⟨hfatal, hunhandled⟩ hnone => ?_, fun hsome => ?_⟩
    · rw [run, hstate, Response.endState, if_pos (State.isError_iff.2 herror)]
    · have herror : ¬r.state.isError = true :=
        fun h => (State.isError_iff.1 h).elim hfatal hunhandled
      rw [run, hstate, Response.endState, if_neg herror, hnone]
      rfl
    · rw [run, hstate, Response.endState_of_data hsome]
  completed h := by
    obtain ⟨hlength, hstate, hdata⟩ := Step.runAll_of_not_stops context h
    refine ⟨hlength, hstate, ?_⟩
    have hall : (p.run item context).trace.take p.steps.length = (p.run item context).trace :=
      List.take_of_length_le (Nat.le_of_eq hlength)
    rw [Run.carried, hall]
    exact hdata

end GuardedFlow
