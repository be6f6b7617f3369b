import GuardedFlow.Proofs.Flow.Turn

/-!
# The reports of a run

A response owes the run the reports that it carries, or one of its own if it reports an error
without any (`Response.owed`). A run over a collection ends with all that is owed, in the order of
its steps. A run over one item does so too, with one exception: an error without data counts as
missing data, and is passed over (`Response.passedOver`). `Run.warnings_owed` says both, and that
this is the only loss.

One response leaves what is owed (`Response.reports_eq_owed`, `BatchStep.judge_reports`), so one
turn does (`Step.reports_turn`, `BatchStep.reports_turn`), and a run by `ByTurns.warnings_eq`.
-/

namespace GuardedFlow

variable {α β : Type}

/-! ## What one response owes -/

namespace Response

/-- The reports that a response carries, or else one that names the processor, the state and the
whole cause of an error that does not abort. -/
def owed (processor : String) (r : Response β) : List Warning :=
  if r.warnings = [] ∧ (r.state = .continueWithError ∨ r.state = .stopWithError) then
    [⟨processor, r.state, match r.cause with
      | some cause => cause.full
      | none => "processor reported an error"⟩]
  else r.warnings

/-- An error that does not abort, with neither data nor reports. -/
def passedOver (r : Response β) : Bool :=
  r.data.isNone && r.warnings.isEmpty &&
    (r.state == .continueWithError || r.state == .stopWithError)

theorem allReports_eq_owed (processor : String) (r : Response β) :
    r.allReports processor = r.owed processor := by
  obtain ⟨state, data, cause, warnings⟩ := r
  cases warnings with
  | cons first rest => rfl
  | nil => cases state <;> cases cause <;> rfl

theorem owed_ne_nil_of_passedOver (processor : String) {r : Response β} (h : r.passedOver = true) :
    r.owed processor ≠ [] := by
  simp only [passedOver, Bool.and_eq_true, Bool.or_eq_true, beq_iff_eq, List.isEmpty_iff] at h
  rw [owed, if_pos ⟨h.1.2, h.2⟩]
  exact List.cons_ne_nil _ _

/-- **One item.** A step leaves what is owed, but for an error that is passed over. -/
theorem reports_eq_owed (processor : String) (r : Response β) :
    r.reports processor = if r.passedOver then [] else r.owed processor := by
  rw [reports, ← allReports_eq_owed]
  obtain ⟨state, data, cause, warnings⟩ := r
  cases data with
  | some data => rfl
  | none =>
    cases warnings with
    | cons first rest => rfl
    | nil => cases state <;> rfl

end Response

namespace BatchStep

/-- **Collections.** A step leaves what is owed, with items or without. -/
theorem judge_reports (s : BatchStep α) (excluded : List α) (r : Response (List α)) :
    (s.judge excluded r).1 = r.owed s.name := by
  rw [← Response.allReports_eq_owed]
  rcases response_cases r with herror | ⟨herror, ⟨x, xs, hdata⟩ | hdata⟩
  · -- an abort reports nothing itself
    rw [judge_of_isError s excluded herror, Response.reports, Response.allReports]
    rcases State.isError_iff.1 herror with hstate | hstate <;> simp [hstate, State.isReport]
  · rw [judge_of_items s excluded herror hdata]
    rfl
  · rw [judge_of_no_items s excluded herror hdata]

theorem warnings_of_judge (s : BatchStep α) (excluded : List α) {r response : Response (List α)}
    (h : (s.judge excluded r).2 = .stop response) : response.warnings = [] := by
  rcases response_cases r with herror | ⟨herror, ⟨x, xs, hdata⟩ | hdata⟩
  · rw [judge_of_isError s excluded herror] at h
    exact (Response.of_stop h).2.2
  · rw [judge_of_items s excluded herror hdata] at h
    exact (Response.of_stop h).2.2
  · rw [judge_of_no_items s excluded herror hdata] at h
    rw [eq_filteredOut_of_stop h, filteredOut]

end BatchStep

/-! ## What a run ends with -/

namespace Visit

/-- A step that was skipped owes nothing. -/
def owed (processor : String) : Visit β → List Warning
  | skipped => []
  | invoked _ r _ => r.owed processor

def passedOver : Visit β → Bool
  | skipped => false
  | invoked _ r _ => r.passedOver

theorem owed_ne_nil_of_passedOver (processor : String) {visit : Visit β}
    (h : visit.passedOver = true) :
    visit.owed processor ≠ [] := by
  cases visit with
  | skipped => cases h
  | invoked item r calls => exact Response.owed_ne_nil_of_passedOver processor h

end Visit

theorem Step.reports_turn (context : Context) (s : Step α) (item : α) :
    (s.turn context item).reports =
      if (s.turn context item).visit.passedOver then []
        else (s.turn context item).visit.owed s.name := by
  cases haccepts : s.accepts item with
  | false => rw [turn_of_not_accepts context haccepts]; rfl
  | true =>
    rw [turn_of_accepts context haccepts]
    exact Response.reports_eq_owed s.name _

theorem Step.warnings_of_stop (context : Context) (s : Step α) (item : α) (response : Response α)
    (h : (s.turn context item).verdict = .stop response) : response.warnings = [] := by
  cases haccepts : s.accepts item with
  | false => rw [turn_of_not_accepts context haccepts] at h; cases h
  | true =>
    rw [turn_of_accepts context haccepts] at h
    exact (Response.of_stop h).2.2

theorem BatchStep.reports_turn (context : Context) (s : BatchStep α) (items : List α) :
    (s.turn context items).reports = (s.turn context items).visit.owed s.name := by
  cases hany : items.any s.accepts with
  | false => rw [turn_of_not_any context hany]; rfl
  | true =>
    rw [turn_of_any context hany]
    exact judge_reports s _ _

theorem BatchStep.warnings_of_stop (context : Context) (s : BatchStep α) (items : List α)
    (response : Response (List α)) (h : (s.turn context items).verdict = .stop response) :
    response.warnings = [] := by
  cases hany : items.any s.accepts with
  | false =>
    rw [turn_of_not_any context hany] at h
    rw [eq_filteredOut_of_stop h, filteredOut]
  | true =>
    rw [turn_of_any context hany] at h
    exact warnings_of_judge s _ h

theorem Step.warnings_eq (context : Context) (steps : List (Step α)) (item : α) :
    (runAll context steps item).response.warnings =
      (steps.zip (runAll context steps item).trace).flatMap fun place =>
        if place.2.passedOver then [] else place.2.owed place.1.name :=
  (byTurns context).warnings_eq (warnings_of_stop context)
    (fun s visit => if visit.passedOver then [] else visit.owed s.name)
      (reports_turn context) steps item

theorem BatchStep.warnings_eq (context : Context) (steps : List (BatchStep α)) (items : List α) :
    (runAll context steps items).response.warnings =
      (steps.zip (runAll context steps items).trace).flatMap fun place =>
        place.2.owed place.1.name :=
  (byTurns context).warnings_eq (warnings_of_stop context) (fun s visit => visit.owed s.name)
    (reports_turn context) steps items

theorem length_flatMap_ite_le {γ δ : Type} (out : γ → Bool) (f : γ → List δ) (l : List γ) :
    (l.flatMap fun x => if out x then [] else f x).length ≤ (l.flatMap f).length := by
  induction l with
  | nil => exact Nat.le_refl 0
  | cons x rest ih =>
    rw [List.flatMap_cons, List.flatMap_cons, List.length_append, List.length_append]
    cases out x with
    | true => exact Nat.le_trans (by simpa using ih) (Nat.le_add_left _ _)
    | false => exact Nat.add_le_add_left ih _

/-- A list of parts with some left out is that of all parts just if none is left out. -/
theorem flatMap_ite_eq_iff {γ δ : Type} {out : γ → Bool} {f : γ → List δ} {l : List γ}
    (hout : ∀ x ∈ l, out x = true → f x ≠ []) :
    (l.flatMap fun x => if out x then [] else f x) = l.flatMap f ↔ ∀ x ∈ l, out x = false := by
  induction l with
  | nil => simp
  | cons x rest ih =>
    have hrest := ih fun y hy => hout y (List.mem_cons_of_mem x hy)
    rw [List.flatMap_cons, List.flatMap_cons, List.forall_mem_cons]
    cases hx : out x with
    | false => simp [hrest]
    | true =>
      -- the parts of the rest cannot make up for the part that is left out here
      refine iff_of_false (fun heq => ?_) (by simp)
      have hle := length_flatMap_ite_le out f rest
      have hpos := List.length_pos_iff.2 (hout x List.mem_cons_self hx)
      have hlength := congrArg List.length heq
      simp only [if_true, List.nil_append, List.length_append] at hlength
      omega

theorem Step.runOptional_none (context : Context) (steps : List (Step α)) :
    (runOptional context steps none).trace = [] ∧
      (runOptional context steps none).response.warnings = [] := by
  refine ⟨rfl, ?_⟩
  cases steps <;> rfl

/-- The visits of a run with no more visits than steps are all in its places. -/
theorem forall_mem_zip_iff {σ : Type} {steps : List σ} {trace : List (Visit β)}
    (h : trace.length ≤ steps.length) {P : Visit β → Prop} :
    (∀ place ∈ steps.zip trace, P place.2) ↔ ∀ visit ∈ trace, P visit := by
  have hmap : (steps.zip trace).map Prod.snd = trace := List.map_snd_zip h
  rw [← List.forall_mem_map (f := Prod.snd), hmap]

/-- **The reports of runs.** A run over a collection ends with what its responses owe, in the order
of the steps. A run over one item ends with the same, unless the response that stopped it was an
error that is passed over. -/
theorem Run.warnings_owed (p : Pipeline α) (b : BatchPipeline α) (item : Option α) (items : List α)
    (context : Context) :
    let single := p.runOptional item context
    let batch := b.run items context
    single.trace.length ≤ p.steps.length ∧ batch.trace.length ≤ b.steps.length ∧
    batch.response.warnings =
      ((b.steps.zip batch.trace).flatMap fun place => place.2.owed place.1.name) ∧
    single.response.warnings = ((p.steps.zip single.trace).flatMap fun place =>
      if place.2.passedOver then [] else place.2.owed place.1.name) ∧
    (single.response.warnings =
      ((p.steps.zip single.trace).flatMap fun place => place.2.owed place.1.name) ↔
      ∀ visit ∈ single.trace, visit.passedOver = false) := by
  intro single batch
  have hlength : single.trace.length ≤ p.steps.length := by
    cases item with
    | none => exact Nat.zero_le _
    | some item => exact (Step.byTurns context).length_trace_le p.steps item
  have hwarnings : single.response.warnings = ((p.steps.zip single.trace).flatMap fun place =>
      if place.2.passedOver then [] else place.2.owed place.1.name) := by
    cases item with
    | none =>
      obtain ⟨htrace, hnone⟩ := Step.runOptional_none context p.steps
      exact hnone.trans (by simp [single, Pipeline.runOptional, htrace])
    | some item => exact Step.warnings_eq context p.steps item
  refine ⟨hlength, (BatchStep.byTurns context).length_trace_le b.steps items,
    BatchStep.warnings_eq context b.steps items, hwarnings, ?_⟩
  rw [hwarnings, ← forall_mem_zip_iff hlength]
  exact flatMap_ite_eq_iff fun place _ h => place.2.owed_ne_nil_of_passedOver place.1.name h

/-- One item: an error without data ends the run, and nobody learns of it. -/
example :
    let soft : Processor Nat := ⟨"soft", fun item _ =>
      (.response ⟨.continueWithError, none, some (.message "lookup failed"), []⟩, [⟨"soft", item⟩])⟩
    (Step.runAll [] [⟨soft, none⟩] 1).response = .nullData := rfl

/-- A collection: the same error is reported. -/
example :
    let soft : Processor (List Nat) := ⟨"soft", fun items _ =>
      (.response ⟨.continueWithError, none, some (.message "lookup failed"), []⟩,
        [⟨"soft", items⟩])⟩
    (BatchStep.runAll [] [⟨soft, none, false⟩] [1]).response.warnings =
      [⟨"soft", .continueWithError, "lookup failed"⟩] := rfl

end GuardedFlow
