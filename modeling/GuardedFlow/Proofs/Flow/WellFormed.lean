import GuardedFlow.Proofs.Flow.Turn

/-!
# Well-formed responses

Whatever its processors answer, a run ends with a response that a caller can rely on
(`Response.WellFormed`): one of six states, a cause that is a fault with an abort, no cause with a
success or missing data, and data with everything that ended as asked for. `Run.wellFormed_response`
says so of both kinds of runs.

Over a collection, more is known. What a stop ends with has items, and a processor never gets a
collection that is empty or has no item its guard holds on.
-/

namespace GuardedFlow

variable {α β : Type}

/-! ## Causes of aborts -/

/-- A fault that is in no context. -/
inductive Cause.Fault : Cause → Prop
  | processing (processor : String) (source : Cause) : Fault (.processing processor source)
  | unhandled (processor : String) (source : Cause) : Fault (.unhandled processor source)
  | step (e : StepError) : Fault (.step e)

/-- A cause that is a fault, or that has one below its contexts or among them. -/
inductive Cause.Attributed : Cause → Prop
  | fault {cause : Cause} (h : Fault cause) : Attributed cause
  | about {about : Cause} (h : Fault about) (inner : Cause) : Attributed (.within about inner)
  | within (about : Cause) {inner : Cause} (h : Attributed inner) :
      Attributed (.within about inner)

theorem Cause.isBareFault_iff {cause : Cause} : cause.isBareFault = true ↔ cause.Fault := by
  constructor
  · intro h
    cases cause with
    | message | within => cases h
    | processing processor source => exact .processing processor source
    | unhandled processor source => exact .unhandled processor source
    | step e => exact .step e
  · rintro (_ | _ | _) <;> rfl

theorem Cause.isFault_iff {cause : Cause} : cause.isFault = true ↔ cause.Attributed := by
  constructor
  · intro h
    induction cause with
    | within about inner _ ih =>
      rw [isFault, origin] at h
      split at h
      · next habout => exact .about (isBareFault_iff.1 habout) inner
      · exact .within about (ih h)
    | message | processing | unhandled | step => exact .fault (isBareFault_iff.1 h)
  · intro h
    induction h with
    | fault h => cases h <;> rfl
    | about h inner => rw [isFault, origin, if_pos (isBareFault_iff.2 h), isBareFault_iff.2 h]
    | within about _ ih =>
      rw [isFault, origin]
      split
      · assumption
      · exact ih

/-! ## Responses -/

namespace Response

/-- What every run ends with. -/
structure WellFormed (r : Response β) : Prop where
  state : r.state ∈ [.ok, .nullData, .stopWithOk, .stopWithError, .fatalError, .unhandledError]
  attributed : r.state = .fatalError ∨ r.state = .unhandledError →
    ∃ cause, r.cause = some cause ∧ cause.Attributed
  no_cause : r.state = .ok ∨ r.state = .nullData ∨ r.state = .stopWithOk → r.cause = none
  data : r.state = .ok ∨ r.state = .stopWithOk ∨ r.state = .stopWithError → r.data ≠ none

theorem Final.wellFormed {r : Response β} (h : r.Final) : r.WellFormed := by
  cases h with
  | ok | nullData | stopWithOk | stopWithError => constructor <;> simp
  | fatalError data cause warnings fault | unhandledError data cause warnings fault =>
    exact ⟨by simp, fun _ => ⟨cause, rfl, Cause.isFault_iff.1 fault⟩, by simp, by simp⟩

/-- What a run over a collection ends with: a stop that is no abort has items. -/
structure FinalItems (r : Response (List α)) : Prop where
  final : r.Final
  items : r.state = .stopWithOk ∨ r.state = .stopWithError → ∃ x xs, r.data = some (x :: xs)

end Response

/-! ## Collections -/

namespace BatchStep

theorem finalItems_filteredOut (reports : List Warning) :
    ((filteredOut : Response (List α)).withReports reports).FinalItems :=
  ⟨.nullData (some []) _, by simp [filteredOut, Response.withReports]⟩

/-- **One step.** What a judgement stops with is final, once the reports of the step are in front of
it. -/
theorem finalItems_of_judge (s : BatchStep α) (excluded : List α) {r response : Response (List α)}
    (h : (s.judge excluded r).2 = .stop response) :
    (response.withReports (s.judge excluded r).1).FinalItems := by
  rcases response_cases r with herror | ⟨herror, ⟨x, xs, hdata⟩ | hdata⟩
  · rw [judge_of_isError s excluded herror] at h ⊢
    refine ⟨Response.final_of_stop h, fun hstop => ?_⟩
    -- an abort stays an abort
    have hstate : response.state = r.state := by
      rw [(Response.of_stop h).2.1, Response.endState, if_pos herror]
    rw [Response.withReports, hstate] at hstop
    rcases hstop with hstop | hstop <;> simp [hstop, State.isError] at herror
  · rw [judge_of_items s excluded herror hdata] at h ⊢
    refine ⟨Response.final_of_stop h, fun _ => ?_⟩
    obtain ⟨y, ys, hitems⟩ := List.exists_cons_of_ne_nil (merged_ne_nil s excluded x xs)
    exact ⟨y, ys, (Response.of_stop h).1.trans (congrArg some hitems)⟩
  · rw [judge_of_no_items s excluded herror hdata] at h ⊢
    rw [eq_filteredOut_of_stop h]
    exact finalItems_filteredOut _

/-- **Runs.** A run over a collection ends with a final response. -/
theorem finalItems_runAll (context : Context) (steps : List (BatchStep α)) (items : List α) :
    (runAll context steps items).response.FinalItems := by
  refine (byTurns context).response_induction (fun data => ⟨.ok data [], by simp [Response.ok]⟩)
    ⟨.nullData none [], by simp [Response.nullData]⟩
    (fun response reports h => ⟨h.final.withReports reports, h.items⟩)
    (fun s data response _ h => ?_) steps items
  cases hany : data.any s.accepts with
  | true =>
    rw [turn_of_any context hany] at h ⊢
    exact finalItems_of_judge s _ h
  | false =>
    rw [turn_of_not_any context hany] at h ⊢
    rw [eq_filteredOut_of_stop h]
    exact finalItems_filteredOut _

end BatchStep

/-! ## Both kinds of runs -/

/-- **Every run ends well-formed.** Over a collection a stop has items, and each invoked step got a
collection with an item that its guard holds on. -/
theorem Run.wellFormed_response (p : Pipeline α) (b : BatchPipeline α) (item : α) (items : List α)
    (context : Context) :
    (p.run item context).response.WellFormed ∧
    (b.run items context).response.WellFormed ∧
    ((b.run items context).response.state = .stopWithOk ∨
      (b.run items context).response.state = .stopWithError →
      ∃ x xs, (b.run items context).response.data = some (x :: xs)) ∧
    ∀ (i : Nat) (received : List α) (r : Response (List α)) (calls : List (Call (List α))),
      (b.run items context).trace[i]? = some (.invoked received r calls) →
        ∃ s, b.steps[i]? = some s ∧ received ≠ [] ∧ ∃ x ∈ received, s.accepts x = true := by
  have hbatch := BatchStep.finalItems_runAll context b.steps items
  refine ⟨(Step.final_runAll context p.steps item).wellFormed, hbatch.final.wellFormed,
    hbatch.items, fun i received r calls hvisit => ?_⟩
  obtain ⟨s, -, -, hs, -⟩ := (BatchStep.byTurns context).from_visit hvisit
  obtain ⟨hany, -, -⟩ := BatchStep.from_invoked hs hvisit
  obtain ⟨x, hx, haccepts⟩ := List.any_eq_true.1 hany
  exact ⟨s, hs, List.ne_nil_of_mem hx, x, hx, haccepts⟩

end GuardedFlow
