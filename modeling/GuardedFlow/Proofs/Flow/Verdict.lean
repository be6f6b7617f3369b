import GuardedFlow.Flow.Batch
import GuardedFlow.Proofs.Flow.Final

/-!
# What one response leads to

Over one item, a response stops the run if it has no data or is terminal (`Response.stops`), and
goes on with its data otherwise. What it stops with has the same data and, but for missing data, the
same state (`Response.of_stop`).

Over a collection a response is judged in one of three ways: as it is if it is an abort, with the
excluded items behind its own if it has items, and by the excluded items alone if it has none
(`BatchStep.response_cases`).
-/

namespace GuardedFlow

variable {α β : Type}

theorem State.isError_iff {state : State} :
    state.isError = true ↔ state = .fatalError ∨ state = .unhandledError := by
  cases state <;> simp [isError]

/-! ## One item -/

namespace Response

/-- A response that ends a run over one item: one without data, or in a terminal state. -/
def stops (r : Response β) : Bool := r.data.isNone || r.state.isTerminal

/-- What a run ends with after a response that stops it. An abort keeps its state, and other
responses without data count as missing data. -/
def endState (r : Response β) : State :=
  if r.state.isError then r.state else if r.data.isNone then .nullData else r.state

theorem stops_iff {r : Response β} :
    r.stops = true ↔ r.data = none ∨ r.state.isTerminal = true := by
  rw [stops, Bool.or_eq_true, Option.isNone_iff_eq_none]

theorem endState_of_data {r : Response β} (h : r.data ≠ none) : r.endState = r.state := by
  have hnone : r.data.isNone = false := Option.isNone_eq_false_iff.2 (Option.isSome_iff_ne_none.2 h)
  rw [endState, hnone]
  exact ite_self r.state

theorem verdict_of_not_stops (name : String) {r : Response β} (h : r.stops = false) :
    ∃ data, r.data = some data ∧ r.verdict name = .proceed data := by
  obtain ⟨state, data, cause, warnings⟩ := r
  cases data with
  | none => simp [stops] at h
  | some data =>
    refine ⟨data, rfl, ?_⟩
    cases state with
    | pending | ok | notExecuted | continueWithError => rfl
    | nullData | stopWithOk | stopWithError | fatalError | unhandledError =>
      simp [stops, State.isTerminal] at h

theorem verdict_of_stops (name : String) {r : Response β} (h : r.stops = true) :
    ∃ response, r.verdict name = .stop response := by
  obtain ⟨state, data, cause, warnings⟩ := r
  cases state with
  | pending | ok | notExecuted | continueWithError =>
    cases data with
    | none => exact ⟨_, rfl⟩
    | some data => simp [stops, State.isTerminal] at h
  | nullData | stopWithOk | stopWithError => cases data <;> exact ⟨_, rfl⟩
  | fatalError | unhandledError => exact ⟨_, rfl⟩

/-- A stop keeps the data, decides the state, and brings no reports. -/
theorem of_stop {name : String} {r response : Response β} (h : r.verdict name = .stop response) :
    response.data = r.data ∧ response.state = r.endState ∧ response.warnings = [] := by
  obtain ⟨state, data, cause, warnings⟩ := r
  cases state <;> cases data <;> simp only [verdict, Verdict.stop.injEq, reduceCtorEq] at h <;>
    subst h <;> exact ⟨rfl, rfl, rfl⟩

end Response

/-! ## Collections -/

namespace BatchStep

theorem judge_of_isError (s : BatchStep α) (excluded : List α) {r : Response (List α)}
    (h : r.state.isError = true) : s.judge excluded r = (r.reports s.name, r.verdict s.name) :=
  if_pos h

/-- A response whose items are all that go on after the step. -/
def whole (s : BatchStep α) (excluded items : List α) (r : Response (List α)) : Response (List α) :=
  { r with data := some (s.merged items excluded) }

theorem judge_of_items (s : BatchStep α) (excluded : List α) {r : Response (List α)} {x : α}
    {xs : List α} (h : r.state.isError = false) (hdata : r.data = some (x :: xs)) :
    s.judge excluded r =
      ((s.whole excluded (x :: xs) r).reports s.name,
        (s.whole excluded (x :: xs) r).verdict s.name) := by
  unfold judge
  rw [h, hdata]
  rfl

theorem judge_of_no_items (s : BatchStep α) (excluded : List α) {r : Response (List α)}
    (h : r.state.isError = false) (hdata : r.data.getD [] = []) :
    s.judge excluded r = (r.allReports s.name, s.withoutItems excluded) := by
  unfold judge
  rw [h]
  cases hr : r.data with
  | none => rfl
  | some items =>
    rw [hr, Option.getD_some] at hdata
    rw [hdata]
    rfl

theorem eq_filteredOut_of_stop {s : BatchStep α} {excluded : List α} {response : Response (List α)}
    (h : s.withoutItems excluded = .stop response) : response = filteredOut := by
  unfold withoutItems at h
  split at h
  · exact (Verdict.stop.inj h).symm
  · cases h

theorem response_cases (r : Response (List α)) :
    r.state.isError = true ∨ r.state.isError = false ∧
      ((∃ x xs, r.data = some (x :: xs)) ∨ r.data.getD [] = []) := by
  cases r.state.isError with
  | true => exact Or.inl rfl
  | false =>
    refine Or.inr ⟨rfl, ?_⟩
    rcases r.data with _ | _ | ⟨x, xs⟩
    · exact Or.inr rfl
    · exact Or.inr rfl
    · exact Or.inl ⟨x, xs, rfl⟩

theorem merged_ne_nil (s : BatchStep α) (excluded : List α) (x : α) (xs : List α) :
    s.merged (x :: xs) excluded ≠ [] := by
  unfold merged
  cases s.filter <;> simp

end BatchStep

end GuardedFlow
