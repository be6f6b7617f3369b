import GuardedFlow.Proofs.Flow.Final

/-!
# Nested pipelines

A pipeline is a processor, so a step can run one. This changes nothing: `Step.nesting_transparent`
says that a run over steps with a nested pipeline answers the same, and makes the same calls, as the
run over the steps with those of the pipeline in its place. A run over `xs ++ ys` is a run over `xs`
that goes on over `ys` unless it was stopped (`Step.runAll_append`); the response of the nested run
is final, so the step around it neither attributes nor reports anything again (`Step.same_nested`).

The traces differ, since the nested pipeline is one step; `Run.Same` compares what a caller sees.
-/

namespace GuardedFlow

/-! ## Runs one after the other -/

namespace Run

variable {β : Type}

/-- A run that goes on with another one from the data of its success. -/
def andThen (r : Run β) (next : β → Run β) : Run β :=
  match r.response.state, r.response.data with
  | .ok, some data =>
    { response := (next data).response.withReports r.response.warnings,
      trace := r.trace ++ (next data).trace }
  | _, _ => r

theorem andThen_of_ok {r : Run β} {data : β} (hstate : r.response.state = .ok)
    (hdata : r.response.data = some data) (next : β → Run β) : r.andThen next =
      ⟨(next data).response.withReports r.response.warnings, r.trace ++ (next data).trace⟩ := by
  unfold andThen
  rw [hstate, hdata]

theorem andThen_of_ne_ok {r : Run β} (h : r.response.state ≠ .ok) (next : β → Run β) :
    r.andThen next = r := by
  unfold andThen
  split
  · next hstate _ => exact absurd hstate h
  · rfl

@[simp] theorem andThen_done_ok (item : β) (next : β → Run β) :
    (done (.ok item)).andThen next = next item := rfl

@[simp] theorem after_andThen (r : Run β) (visit : Visit β) (reports : List Warning)
    (next : β → Run β) :
    (r.after visit reports).andThen next = (r.andThen next).after visit reports := by
  by_cases hstate : r.response.state = .ok
  · cases hdata : r.response.data with
    | some data =>
      rw [andThen_of_ok hstate hdata, andThen_of_ok (r := r.after visit reports) hstate hdata]
      simp [after, Response.withReports, List.append_assoc]
    | none => simp [andThen, after, hdata]
  · rw [andThen_of_ne_ok hstate, andThen_of_ne_ok (r := r.after visit reports) hstate]

@[simp] theorem afterSkip_andThen (r : Run β) (next : β → Run β) :
    r.afterSkip.andThen next = (r.andThen next).afterSkip := by
  by_cases hstate : r.response.state = .ok
  · cases hdata : r.response.data with
    | some data =>
      rw [andThen_of_ok hstate hdata, andThen_of_ok (r := r.afterSkip) hstate hdata]
      rfl
    | none => simp [andThen, afterSkip, hdata]
  · rw [andThen_of_ne_ok hstate, andThen_of_ne_ok (r := r.afterSkip) hstate]

/-- What goes on after a step is followed by the rest; what stops is not. -/
theorem conclude_andThen (visit : Visit β) (reports : List Warning) {verdict : Verdict β}
    (hstop : ∀ response, verdict = .stop response → response.state ≠ .ok) (next rest : β → Run β) :
    (conclude visit reports verdict next).andThen rest =
      conclude visit reports verdict fun data => (next data).andThen rest := by
  cases verdict with
  | proceed data => exact after_andThen (next data) visit reports rest
  | stop response =>
    exact andThen_of_ne_ok (r := (done response).after visit reports) (hstop response rfl) rest

/-! ## Runs that a caller cannot tell apart -/

/-- Two runs with the same response and the same calls in the same order. -/
structure Same (r s : Run β) : Prop where
  response : r.response = s.response
  calls : r.calls = s.calls

namespace Same

theorem refl (r : Run β) : Same r r := ⟨rfl, rfl⟩

theorem trans {r s t : Run β} (hrs : Same r s) (hst : Same s t) : Same r t :=
  ⟨hrs.response.trans hst.response, hrs.calls.trans hst.calls⟩

theorem after {r s : Run β} (h : Same r s) (visit : Visit β) (reports : List Warning) :
    Same (r.after visit reports) (s.after visit reports) := by
  refine ⟨?_, ?_⟩
  · simp only [Run.after, h.response]
  · have hcalls : r.trace.flatMap Visit.calls = s.trace.flatMap Visit.calls := h.calls
    simp only [Run.calls, Run.after, List.flatMap_cons, hcalls]

theorem afterSkip {r s : Run β} (h : Same r s) : Same r.afterSkip s.afterSkip :=
  ⟨h.response, h.calls⟩

theorem conclude {next next' : β → Run β} (h : ∀ data, Same (next data) (next' data))
    (visit : Visit β) (reports : List Warning) (verdict : Verdict β) :
    Same (Run.conclude visit reports verdict next) (Run.conclude visit reports verdict next') := by
  cases verdict with
  | proceed data => exact (h data).after visit reports
  | stop response => exact refl _

theorem andThen {r s : Run β} (h : Same r s) {next next' : β → Run β}
    (hnext : ∀ data, Same (next data) (next' data)) : Same (r.andThen next) (s.andThen next') := by
  have hr := h.response
  by_cases hstate : s.response.state = .ok
  · cases hdata : s.response.data with
    | some data =>
      rw [andThen_of_ok (by rw [hr, hstate]) (by rw [hr, hdata]), andThen_of_ok hstate hdata]
      refine ⟨by simp only [hr, (hnext data).response], ?_⟩
      have hcalls : r.trace.flatMap Visit.calls = s.trace.flatMap Visit.calls := h.calls
      have hrest : (next data).trace.flatMap Visit.calls = (next' data).trace.flatMap Visit.calls :=
        (hnext data).calls
      simp only [Run.calls, List.flatMap_append, hcalls, hrest]
    | none => simpa [Run.andThen, hr, hdata] using h
  · rw [andThen_of_ne_ok (by rwa [hr]), andThen_of_ne_ok hstate]
    exact h

end Same

end Run

/-! ## Steps -/

namespace Step

variable {α : Type} (context : Context)

/-- A run over two lists of steps is a run over the first that goes on over the second. -/
theorem runAll_append (xs ys : List (Step α)) (item : α) :
    runAll context (xs ++ ys) item = (runAll context xs item).andThen (runAll context ys) := by
  induction xs generalizing item with
  | nil => rfl
  | cons s rest ih =>
    rw [List.cons_append]
    cases haccepts : s.accepts item with
    | false =>
      rw [runAll_cons_of_not_accepts context haccepts,
        runAll_cons_of_not_accepts context haccepts, ih, Run.afterSkip_andThen]
    | true =>
      rw [runAll_cons_of_accepts context haccepts, runAll_cons_of_accepts context haccepts,
        Run.conclude_andThen _ _ fun _ h => Response.stop_state_ne_ok h]
      congr 1
      funext data
      exact ih data

/-- **One nested pipeline.** Its step and what follows are the run of the pipeline that goes on. -/
theorem same_nested (p : Pipeline α) (rest : List (Step α)) (item : α) :
    Run.Same (runAll context (⟨p.toProcessor, none⟩ :: rest) item)
      ((p.run item context).andThen (runAll context rest)) := by
  have hfinal : (p.run item context).response.Final := final_runAll context p.steps item
  rw [runAll_cons_of_accepts context (s := ⟨p.toProcessor, none⟩) rfl]
  have hinvoke : p.toProcessor.invoke item context =
      ((p.run item context).response, (p.run item context).calls) := rfl
  -- the nested response is final, so the step leaves its reports and its cause as they are
  rw [hinvoke, hfinal.reports_eq]
  rcases hfinal.verdict_eq p.name with ⟨data, hok, hverdict⟩ | ⟨hterminal, hverdict⟩
  · have hstate : (p.run item context).response.state = .ok := by rw [hok]
    have hdata : (p.run item context).response.data = some data := by rw [hok]
    rw [show (⟨p.toProcessor, none⟩ : Step α).name = p.name from rfl, hverdict,
      Run.andThen_of_ok hstate hdata]
    exact ⟨rfl, by simp [Run.calls, Run.conclude, Run.after, Visit.calls]⟩
  · rw [show (⟨p.toProcessor, none⟩ : Step α).name = p.name from rfl, hverdict,
      Run.andThen_of_ne_ok fun hok => by simp [hok, State.isTerminal] at hterminal]
    exact ⟨by simp [Run.conclude, Run.after, Run.done],
      by simp [Run.calls, Run.conclude, Run.after, Run.done, Visit.calls]⟩

/-- The steps of a pipeline can stand in the place of the pipeline, wherever it is. -/
theorem same_unnested (xs ys : List (Step α)) (p : Pipeline α) (item : α) :
    Run.Same (runAll context (xs ++ ⟨p.toProcessor, none⟩ :: ys) item)
      (runAll context (xs ++ (p.steps ++ ys)) item) := by
  rw [runAll_append, runAll_append]
  refine (Run.Same.refl _).andThen fun data => ?_
  rw [runAll_append]
  exact same_nested context p ys data

/-- Steps with nested pipelines, and the steps that are left when each of the nested ones is
replaced by its own steps, to any depth. -/
inductive Unnests : List (Step α) → List (Step α) → Prop where
  | nil : Unnests [] []
  | step (s : Step α) {steps leaves : List (Step α)} (h : Unnests steps leaves) :
      Unnests (s :: steps) (s :: leaves)
  | nested (p : Pipeline α) {steps inner leaves : List (Step α)} (hp : Unnests p.steps inner)
      (h : Unnests steps leaves) : Unnests (⟨p.toProcessor, none⟩ :: steps) (inner ++ leaves)

/-- **Any depth.** A run over nested steps is the run over the steps that they unnest to. -/
theorem same_of_unnests {steps leaves : List (Step α)} (h : Unnests steps leaves) (item : α) :
    Run.Same (runAll context steps item) (runAll context leaves item) := by
  -- by induction on how the steps unnest; the calls are compared and not the traces, which differ
  induction h generalizing item with
  | nil => exact .refl _
  | step s h ih =>
    cases haccepts : s.accepts item with
    | false =>
      rw [runAll_cons_of_not_accepts context haccepts, runAll_cons_of_not_accepts context haccepts]
      exact (ih item).afterSkip
    | true =>
      rw [runAll_cons_of_accepts context haccepts, runAll_cons_of_accepts context haccepts]
      exact Run.Same.conclude ih _ _ _
  | nested p hp h ihp ih =>
    rw [runAll_append]
    exact (same_nested context p _ item).trans ((ihp item).andThen ih)

/-- **Nesting is transparent.** A pipeline that is run as a step without a guard can be replaced by
its steps: the response, with its reports in their order, and the calls stay the same, and so when
all nested pipelines are replaced at every depth. A nested response that is terminal is the response
of the whole. -/
theorem nesting_transparent (xs ys : List (Step α)) (p : Pipeline α) (item : α) :
    let nested := runAll context (xs ++ [⟨p.toProcessor, none⟩] ++ ys) item
    let flat := runAll context (xs ++ p.steps ++ ys) item
    nested.response = flat.response ∧ nested.calls = flat.calls ∧
    (∀ leaves, Unnests (xs ++ [⟨p.toProcessor, none⟩] ++ ys) leaves →
      nested.response = (runAll context leaves item).response ∧
      nested.calls = (runAll context leaves item).calls) ∧
    ((p.run item context).response.state.isTerminal = true →
      (runAll context ([⟨p.toProcessor, none⟩] ++ ys) item).response =
        (p.run item context).response ∧
      (runAll context ([⟨p.toProcessor, none⟩] ++ ys) item).calls =
        (p.run item context).calls) := by
  intro nested flat
  have hsame : Run.Same nested flat := by
    have h := same_unnested context xs ys p item
    simpa [nested, flat] using h
  refine ⟨hsame.response, hsame.calls, fun leaves h => ?_, fun hterminal => ?_⟩
  · have hleaves := same_of_unnests context h item
    exact ⟨hleaves.response, hleaves.calls⟩
  · have h := same_nested context p ys item
    rw [Run.andThen_of_ne_ok fun hok => by simp [hok, State.isTerminal] at hterminal] at h
    exact ⟨h.response, h.calls⟩

/-- A step that stops with an error, two pipelines deep: the response of the outermost run is that
of the innermost one, with one report. -/
theorem nesting_transparent_two_deep :
    let halt : Processor Nat := ⟨"halt", fun item _ =>
      (.response (.stopWithError item (.message "full")), [⟨"halt", item⟩])⟩
    let inner : Pipeline Nat := ⟨"inner", [⟨halt, none⟩], by decide⟩
    let outer : Pipeline Nat := ⟨"outer", [⟨inner.toProcessor, none⟩], by decide⟩
    (outer.run 7 []).response.state.isTerminal = true ∧
    (runAll [] ([⟨outer.toProcessor, none⟩] ++ [⟨halt, none⟩]) 7).response =
      ⟨.stopWithError, some 7, some (.message "full"), [⟨"halt", .stopWithError, "full"⟩]⟩ := by
  intro halt inner outer
  refine ⟨rfl, ?_⟩
  rw [((nesting_transparent [] [] [⟨halt, none⟩] outer 7).2.2.2 rfl).1]
  rfl

end Step

end GuardedFlow
