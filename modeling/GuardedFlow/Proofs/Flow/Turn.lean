import GuardedFlow.Proofs.Flow.Verdict

/-!
# Runs, turn by turn

A run over one item and a run over a collection are made in the same way. A step that is reached
takes a turn, which leaves a visit, reports, and a verdict on whether the run goes on and with which
data. `ByTurns` says this of a function that runs steps, and everything about whole runs comes from
it:

* the run from a visit on is a run of its own over the steps from there (`ByTurns.from_visit`);
* no step is visited twice (`ByTurns.length_trace_le`);
* the warnings of a run are what its turns left, in order (`ByTurns.warnings_eq`);
* what the response of every stop has, the response of every run has (`ByTurns.response_induction`).

Since a step is visited once at most, it makes no difference to a run whether its processor would
have answered otherwise a second time.
-/

namespace GuardedFlow

variable {σ β : Type}

/-! ## Turns -/

/-- The run that a verdict leads to. -/
def Verdict.follow (verdict : Verdict β) (next : β → Run β) : Run β :=
  match verdict with
  | .proceed data => next data
  | .stop response => .done response

theorem Run.conclude_eq_after (visit : Visit β) (reports : List Warning) (verdict : Verdict β)
    (next : β → Run β) :
    Run.conclude visit reports verdict next = (verdict.follow next).after visit reports := by
  cases verdict <;> rfl

/-- What a step does with the data that reaches it. -/
structure Turn (β : Type) where
  visit : Visit β
  reports : List Warning
  verdict : Verdict β

/-- The run of a step and of what its verdict leads to. -/
def Turn.lead (t : Turn β) (next : β → Run β) : Run β :=
  (t.verdict.follow next).after t.visit t.reports

@[simp] theorem Turn.trace_lead (t : Turn β) (next : β → Run β) :
    (t.lead next).trace = t.visit :: (t.verdict.follow next).trace := rfl

@[simp] theorem Turn.response_lead (t : Turn β) (next : β → Run β) :
    (t.lead next).response = (t.verdict.follow next).response.withReports t.reports := rfl

/-- Running steps is taking their turns: a step on whose data no turn begins ends the run as one
without data. -/
structure ByTurns (begins : β → Prop) (turn : σ → β → Turn β) (run : List σ → β → Run β) :
    Prop where
  nil : ∀ data, run [] data = .done (.ok data)
  begun : ∀ {data}, begins data → ∀ s rest, run (s :: rest) data = (turn s data).lead (run rest)
  unbegun : ∀ {data}, ¬begins data → ∀ s rest, run (s :: rest) data = .done .nullData

namespace ByTurns

variable {begins : β → Prop} {turn : σ → β → Turn β} {run : List σ → β → Run β}

/-- **From a visit on.** The visit is the turn of the step in its place, and what comes after it is
what the verdict of that turn leads to, but for the reports that were left before. -/
theorem from_visit (h : ByTurns begins turn run) {steps : List σ} {data : β} {i : Nat}
    {visit : Visit β} (hvisit : (run steps data).trace[i]? = some visit) :
    ∃ s received reports, steps[i]? = some s ∧ begins received ∧ visit = (turn s received).visit ∧
      (run steps data).trace.drop (i + 1) =
        ((turn s received).verdict.follow (run (steps.drop (i + 1)))).trace ∧
      (run steps data).response =
        ((turn s received).verdict.follow (run (steps.drop (i + 1)))).response.withReports
          reports := by
  -- by induction on the steps: the visit is the first one, or one of the run that the first
  -- verdict leads to
  induction steps generalizing data i with
  | nil => simp [h.nil, Run.done] at hvisit
  | cons s rest ih =>
    by_cases hbegins : begins data
    · rw [h.begun hbegins] at hvisit ⊢
      cases i with
      | zero =>
        have hfirst : visit = (turn s data).visit := by simpa [eq_comm] using hvisit
        exact ⟨s, data, (turn s data).reports, rfl, hbegins, hfirst, rfl, rfl⟩
      | succ i =>
        rw [Turn.trace_lead, List.getElem?_cons_succ] at hvisit
        cases hverdict : (turn s data).verdict with
        | stop response => simp [hverdict, Verdict.follow, Run.done] at hvisit
        | proceed next =>
          rw [hverdict] at hvisit
          obtain ⟨t, received, reports, ht, hreceived, heq, htrace, hresponse⟩ := ih hvisit
          refine ⟨t, received, (turn s data).reports ++ reports, ht, hreceived, heq, ?_, ?_⟩
          · rw [Turn.trace_lead, List.drop_succ_cons, hverdict]
            exact htrace
          · rw [Turn.response_lead, hverdict, ← Response.withReports_withReports,
              List.drop_succ_cons, ← hresponse]
            rfl
    · rw [h.unbegun hbegins] at hvisit
      simp [Run.done] at hvisit

theorem length_trace_le (h : ByTurns begins turn run) (steps : List σ) (data : β) :
    (run steps data).trace.length ≤ steps.length := by
  refine Nat.le_of_not_lt fun hlt => ?_
  obtain ⟨s, -, -, hs, -⟩ := h.from_visit (List.getElem?_eq_getElem hlt)
  rw [List.getElem?_eq_none (Nat.le_refl _)] at hs
  cases hs

/-- **Reports of a run.** Where a stop brings no reports, the warnings are what the turns left, in
order. -/
theorem warnings_eq (h : ByTurns begins turn run)
    (hstop : ∀ s data response, (turn s data).verdict = .stop response → response.warnings = [])
    (left : σ → Visit β → List Warning)
    (hleft : ∀ s data, (turn s data).reports = left s (turn s data).visit)
      (steps : List σ) (data : β) :
    (run steps data).response.warnings =
      (steps.zip (run steps data).trace).flatMap fun place => left place.1 place.2 := by
  induction steps generalizing data with
  | nil => rw [h.nil]; rfl
  | cons s rest ih =>
    by_cases hbegins : begins data
    · rw [h.begun hbegins, Turn.trace_lead, Turn.response_lead, List.zip_cons_cons,
        List.flatMap_cons, ← hleft]
      cases hverdict : (turn s data).verdict with
      | stop response =>
        simp [Verdict.follow, Run.done, Response.withReports, hstop s data response hverdict]
      | proceed next =>
        -- the reports of the turn stand in front of those of the rest
        show (turn s data).reports ++ (run rest next).response.warnings = _
        rw [ih]
        rfl
    · rw [h.unbegun hbegins]
      rfl

/-- **Responses of runs.** A run that gets through ends as a success, one whose data does not let a
step begin ends without data, and any other with the response of a stop. -/
theorem response_induction (h : ByTurns begins turn run) {P : Response β → Prop}
    (hok : ∀ data, P (.ok data)) (hnull : P .nullData)
    (hreports : ∀ response reports, P response → P (response.withReports reports))
    (hstop : ∀ s data response, begins data → (turn s data).verdict = .stop response →
      P (response.withReports (turn s data).reports)) (steps : List σ) (data : β) :
    P (run steps data).response := by
  induction steps generalizing data with
  | nil => rw [h.nil]; exact hok data
  | cons s rest ih =>
    by_cases hbegins : begins data
    · rw [h.begun hbegins, Turn.response_lead]
      cases hverdict : (turn s data).verdict with
      | stop response => exact hstop s data response hbegins hverdict
      | proceed next => exact hreports _ _ (ih next)
    · rw [h.unbegun hbegins]
      exact hnull

end ByTurns

/-! ## One item -/

namespace Step

variable {α : Type}

/-- A guard that does not hold passes the item on. -/
def turn (context : Context) (s : Step α) (item : α) : Turn α :=
  if s.accepts item then
    let answer := s.processor.invoke item context
    ⟨.invoked item answer.1 answer.2, answer.1.reports s.name, answer.1.verdict s.name⟩
  else ⟨.skipped, [], .proceed item⟩

theorem turn_of_accepts (context : Context) {s : Step α} {item : α} (h : s.accepts item = true) :
    s.turn context item =
      ⟨.invoked item (s.processor.invoke item context).1 (s.processor.invoke item context).2,
        (s.processor.invoke item context).1.reports s.name,
        (s.processor.invoke item context).1.verdict s.name⟩ :=
  if_pos h

theorem turn_of_not_accepts (context : Context) {s : Step α} {item : α}
    (h : s.accepts item = false) :
    s.turn context item = ⟨.skipped, [], .proceed item⟩ :=
  if_neg (by simp [h])

theorem byTurns (context : Context) :
    ByTurns (fun _ : α => True) (turn context) (runAll context) where
  nil _ := rfl
  begun {item} _ s rest := by
    cases haccepts : s.accepts item with
    | false =>
      rw [runAll_cons_of_not_accepts context haccepts, turn_of_not_accepts context haccepts]
      rfl
    | true =>
      rw [runAll_cons_of_accepts context haccepts, turn_of_accepts context haccepts,
        Run.conclude_eq_after]
      rfl
  unbegun h := absurd trivial h

/-- **From an invocation on**, over one item. -/
theorem from_invoked {context : Context} {steps : List (Step α)} {item : α} {i : Nat} {s : Step α}
    {received : α} {r : Response α} {calls : List (Call α)} (hs : steps[i]? = some s)
    (hvisit : (runAll context steps item).trace[i]? = some (.invoked received r calls)) :
    s.accepts received = true ∧ (r, calls) = s.processor.invoke received context ∧
      (runAll context steps item).trace.drop (i + 1) =
        ((r.verdict s.name).follow (runAll context (steps.drop (i + 1)))).trace ∧
      ∃ reports, (runAll context steps item).response =
        ((r.verdict s.name).follow (runAll context (steps.drop (i + 1)))).response.withReports
          reports := by
  obtain ⟨t, taken, reports, ht, -, heq, htrace, hresponse⟩ := (byTurns context).from_visit hvisit
  obtain rfl : s = t := Option.some.inj (hs.symm.trans ht)
  cases haccepts : s.accepts taken with
  | false => rw [turn_of_not_accepts context haccepts] at heq; cases heq
  | true =>
    rw [turn_of_accepts context haccepts] at heq htrace hresponse
    obtain ⟨rfl, rfl, rfl⟩ := Visit.invoked.inj heq
    exact ⟨haccepts, rfl, htrace, reports, hresponse⟩

end Step

/-! ## Collections -/

namespace BatchStep

variable {α : Type}

/-- A step that accepts no item passes all of them on, or drops them if it filters. -/
def turn (context : Context) (s : BatchStep α) (items : List α) : Turn (List α) :=
  if items.any s.accepts then
    let answer := s.processor.invoke items context
    let judgement := s.judge (s.excluded items) answer.1
    ⟨.invoked items answer.1 answer.2, judgement.1, judgement.2⟩
  else ⟨.skipped, [], s.withoutItems items⟩

theorem turn_of_any (context : Context) {s : BatchStep α} {items : List α}
    (h : items.any s.accepts = true) :
    s.turn context items =
      ⟨.invoked items (s.processor.invoke items context).1 (s.processor.invoke items context).2,
        (s.judge (s.excluded items) (s.processor.invoke items context).1).1,
        (s.judge (s.excluded items) (s.processor.invoke items context).1).2⟩ :=
  if_pos h

theorem turn_of_not_any (context : Context) {s : BatchStep α} {items : List α}
    (h : items.any s.accepts = false) :
    s.turn context items = ⟨.skipped, [], s.withoutItems items⟩ :=
  if_neg (by simp [h])

theorem length_excluded_eq_iff {s : BatchStep α} {items : List α} :
    (s.excluded items).length = items.length ↔ items.any s.accepts = false := by
  rw [excluded, List.length_filter_eq_length_iff, List.any_eq_false]
  simp only [Bool.not_eq_true, Bool.not_eq_eq_eq_not, Bool.not_true]

theorem excluded_of_not_any {s : BatchStep α} {items : List α} (h : items.any s.accepts = false) :
    s.excluded items = items :=
  List.filter_eq_self.2 (List.length_filter_eq_length_iff.1 (length_excluded_eq_iff.2 h))

/-- A step begins on a collection that is not empty. -/
theorem byTurns (context : Context) :
    ByTurns (fun items : List α => items ≠ []) (turn context) (runAll context) where
  nil _ := by rw [runAll]
  begun {items} hitems s rest := by
    rw [runAll]
    · cases hany : items.any s.accepts with
      | false =>
        rw [turn_of_not_any context hany, excluded_of_not_any hany]
        unfold withoutItems
        cases s.filter <;> simp [Turn.lead, Verdict.follow, Run.after, Run.afterSkip, Run.done]
      | true =>
        have hlength : (s.excluded items).length ≠ items.length := fun h => by
          rw [length_excluded_eq_iff.1 h] at hany
          cases hany
        rw [turn_of_any context hany]
        simp only [hlength, if_false]
        rw [Run.conclude_eq_after]
        rfl
    · exact hitems
  unbegun {items} h s rest := by
    rw [Classical.not_not.1 h, runAll]

/-- **From an invocation on**, over a collection. -/
theorem from_invoked {context : Context} {steps : List (BatchStep α)} {items : List α} {i : Nat}
    {s : BatchStep α} {received : List α} {r : Response (List α)} {calls : List (Call (List α))}
    (hs : steps[i]? = some s)
    (hvisit : (runAll context steps items).trace[i]? = some (.invoked received r calls)) :
    received.any s.accepts = true ∧ (r, calls) = s.processor.invoke received context ∧
      (runAll context steps items).trace.drop (i + 1) =
        ((s.judge (s.excluded received) r).2.follow
          (runAll context (steps.drop (i + 1)))).trace := by
  obtain ⟨t, taken, reports, ht, -, heq, htrace, -⟩ := (byTurns context).from_visit hvisit
  obtain rfl : s = t := Option.some.inj (hs.symm.trans ht)
  cases hany : taken.any s.accepts with
  | false => rw [turn_of_not_any context hany] at heq; cases heq
  | true =>
    rw [turn_of_any context hany] at heq htrace
    obtain ⟨rfl, rfl, rfl⟩ := Visit.invoked.inj heq
    exact ⟨hany, rfl, htrace⟩

end BatchStep

end GuardedFlow
