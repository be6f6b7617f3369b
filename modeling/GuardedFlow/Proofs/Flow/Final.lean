import GuardedFlow.Flow.Pipeline

/-!
# What a run ends with

The response of a run is not any response: `Response.Final` lists the six forms it can have. A
failure that aborts has a cause that is a fault, a reported stop has left its report, and nothing
else carries a cause (`Step.final_runAll`).

A final response is not touched a second time: as the response of a step it leaves the reports it
has (`Response.Final.reports_eq`), and its verdict goes on with its data, or stops with the response
as it is (`Response.Final.verdict_eq`).
-/

namespace GuardedFlow

variable {β : Type}

/-- A cause under a fault is a fault, whether or not it was one before. -/
theorem Cause.isFault_attributed {fault : Cause → Cause} (hfault : ∀ c, (fault c).isFault = true)
    (missing : String) (cause : Option Cause) :
    (Cause.attributed fault missing cause).isFault = true := by
  unfold Cause.attributed
  split
  · split
    · assumption
    · exact hfault _
  · exact hfault _

namespace Response

/-- The forms of the response of a run over a present item. -/
inductive Final : Response β → Prop where
  | ok (data : β) (warnings : List Warning) : Final ⟨.ok, some data, none, warnings⟩
  | nullData (data : Option β) (warnings : List Warning) : Final ⟨.nullData, data, none, warnings⟩
  | stopWithOk (data : β) (warnings : List Warning) : Final ⟨.stopWithOk, some data, none, warnings⟩
  | stopWithError (data : β) (cause : Option Cause) (warnings : List Warning)
      (reported : warnings ≠ []) : Final ⟨.stopWithError, some data, cause, warnings⟩
  | fatalError (data : Option β) (cause : Cause) (warnings : List Warning)
      (fault : cause.isFault = true) : Final ⟨.fatalError, data, some cause, warnings⟩
  | unhandledError (data : Option β) (cause : Cause) (warnings : List Warning)
      (fault : cause.isFault = true) : Final ⟨.unhandledError, data, some cause, warnings⟩

/-- The verdict of a response, as it goes into the run: with reports in front. -/
def withReports (r : Response β) (reports : List Warning) : Response β :=
  { r with warnings := reports ++ r.warnings }

@[simp] theorem withReports_nil (r : Response β) : r.withReports [] = r := rfl

@[simp] theorem withReports_withReports (r : Response β) (first second : List Warning) :
    (r.withReports second).withReports first = r.withReports (first ++ second) := by
  simp [withReports, List.append_assoc]

/-- Reports in front of a final response leave it final. -/
theorem Final.withReports {r : Response β} (h : r.Final) (reports : List Warning) :
    (r.withReports reports).Final := by
  cases h with
  | ok data warnings => exact .ok data _
  | nullData data warnings => exact .nullData data _
  | stopWithOk data warnings => exact .stopWithOk data _
  | stopWithError data cause warnings reported =>
    exact .stopWithError data cause _ fun h => reported (List.append_eq_nil_iff.1 h).2
  | fatalError data cause warnings fault => exact .fatalError data cause _ fault
  | unhandledError data cause warnings fault => exact .unhandledError data cause _ fault

/-- A response that reports an error with data leaves a report. -/
theorem allReports_ne_nil (name : String) {r : Response β} (h : r.state.isReport = true) :
    r.allReports name ≠ [] := by
  unfold allReports
  split
  · exact List.cons_ne_nil _ _
  · next hw =>
    intro hnil
    exact hw (by simp [hnil, h])

/-- **One step.** What a verdict stops with is final once the reports of the step are in front of
it. -/
theorem final_of_stop {name : String} {r s : Response β} (h : r.verdict name = .stop s) :
    (s.withReports (r.reports name)).Final := by
  obtain ⟨state, data, cause, warnings⟩ := r
  -- without data, everything but the two failures stops as an end without data
  cases state <;> cases data <;> simp only [verdict, Verdict.stop.injEq, reduceCtorEq] at h <;>
    subst h
  case fatalError.none => exact .fatalError _ _ _ (Cause.isFault_attributed (fun _ => rfl) _ _)
  case fatalError.some => exact .fatalError _ _ _ (Cause.isFault_attributed (fun _ => rfl) _ _)
  case unhandledError.none =>
    exact .unhandledError _ _ _ (Cause.isFault_attributed (fun _ => rfl) _ _)
  case unhandledError.some =>
    exact .unhandledError _ _ _ (Cause.isFault_attributed (fun _ => rfl) _ _)
  case nullData.some data => exact .nullData (some data) _
  case stopWithOk.some data => exact .stopWithOk data _
  case stopWithError.some data =>
    refine .stopWithError data _ _ fun hnil => ?_
    exact allReports_ne_nil name (r := ⟨.stopWithError, some data, cause, warnings⟩) rfl
      (List.append_eq_nil_iff.1 hnil).1
  all_goals exact .nullData none _

/-- What a verdict stops with carries no reports of its own and is no success. -/
theorem stop_state_ne_ok {name : String} {r s : Response β} (h : r.verdict name = .stop s) :
    s.state ≠ .ok := by
  obtain ⟨state, data, cause, warnings⟩ := r
  cases state <;> cases data <;> simp only [verdict, Verdict.stop.injEq, reduceCtorEq] at h <;>
    subst h <;> simp [nullData, stopOk]

/-! ## Final responses as responses of a step -/

/-- A final response has left its reports already. -/
theorem Final.reports_eq {r : Response β} (h : r.Final) (name : String) :
    r.reports name = r.warnings := by
  cases h with
  | nullData data warnings =>
    cases data <;> simp [reports, allReports, State.isReport]
  | stopWithError data cause warnings reported =>
    simp [reports, allReports, reported]
  | fatalError data cause warnings fault =>
    cases data <;> simp [reports, allReports, State.isReport]
  | unhandledError data cause warnings fault =>
    cases data <;> simp [reports, allReports, State.isReport]
  | _ => simp [reports, allReports, State.isReport]

/-- The verdict on a final response: a success goes on with its data, all else stops as it is. -/
theorem Final.verdict_eq {r : Response β} (h : r.Final) (name : String) :
    (∃ data, r = ⟨.ok, some data, none, r.warnings⟩ ∧ r.verdict name = .proceed data) ∨
    (r.state.isTerminal = true ∧ r.verdict name = .stop { r with warnings := [] }) := by
  cases h with
  | ok data warnings => exact Or.inl ⟨data, rfl, rfl⟩
  | nullData data warnings => exact Or.inr ⟨rfl, by cases data <;> rfl⟩
  | stopWithOk data warnings => exact Or.inr ⟨rfl, rfl⟩
  | stopWithError data cause warnings reported => exact Or.inr ⟨rfl, rfl⟩
  | fatalError data cause warnings fault =>
    exact Or.inr ⟨rfl, by simp [verdict, Cause.ofFatal, Cause.attributed, fault]⟩
  | unhandledError data cause warnings fault =>
    exact Or.inr ⟨rfl, by simp [verdict, Cause.ofUnhandled, Cause.attributed, fault]⟩

end Response

/-! ## Runs -/

variable {α : Type}

namespace Step

theorem runAll_cons_of_accepts (context : Context) {s : Step α} {item : α}
    (h : s.accepts item = true) (rest : List (Step α)) : runAll context (s :: rest) item =
      Run.conclude
        (.invoked item (s.processor.invoke item context).1 (s.processor.invoke item context).2)
        ((s.processor.invoke item context).1.reports s.name)
        ((s.processor.invoke item context).1.verdict s.name) (runAll context rest) := by
  rw [runAll, if_pos h]

theorem runAll_cons_of_not_accepts (context : Context) {s : Step α} {item : α}
    (h : s.accepts item = false) (rest : List (Step α)) :
    runAll context (s :: rest) item = (runAll context rest item).afterSkip := by
  rw [runAll, if_neg (by simp [h])]

/-- **Runs.** A run over a present item ends with a final response. -/
theorem final_runAll (context : Context) (steps : List (Step α)) (item : α) :
    (runAll context steps item).response.Final := by
  induction steps generalizing item with
  | nil => exact .ok item []
  | cons s rest ih =>
    cases haccepts : s.accepts item with
    | false =>
      rw [runAll_cons_of_not_accepts context haccepts]
      exact ih item
    | true =>
      rw [runAll_cons_of_accepts context haccepts]
      cases hverdict : (s.processor.invoke item context).1.verdict s.name with
      | proceed data => exact (ih data).withReports _
      | stop response => exact Response.final_of_stop hverdict

end Step

end GuardedFlow
