import GuardedFlow.Flow.Processor

/-!
# Runs

What a run is made of: its response and its trace, which has one entry for each step that was
reached. After a step, `Response.verdict` says whether the run goes on and with which data, and
which reports it leaves.

Failures are judged before missing data, so that the cause of an abort is never hidden by the
absence of data. A failure that is already attributed to a processor keeps that attribution, and a
response that carries reports of its own is not reported again.
-/

namespace GuardedFlow

/-- What happened at one step. -/
inductive Visit (β : Type) where
  | skipped
  | invoked (item : β) (response : Response β) (calls : List (Call β))

/-- The calls made at a step. -/
def Visit.calls {β : Type} : Visit β → List (Call β)
  | skipped => []
  | invoked _ _ calls => calls

/-- A run over steps. -/
structure Run (β : Type) where
  response : Response β
  /-- An entry for each step that was reached, in the order of the steps. -/
  trace : List (Visit β)

/-- What follows after a step. -/
inductive Verdict (β : Type) where
  | proceed (data : β)
  | stop (response : Response β)

variable {β : Type}

namespace Run

/-- The run that ends before its first step. -/
def done (response : Response β) : Run β := ⟨response, []⟩

def calls (r : Run β) : List (Call β) := r.trace.flatMap Visit.calls

/-- A run with a step in front, and with the reports of that step before its own. -/
def after (r : Run β) (visit : Visit β) (reports : List Warning) : Run β :=
  { response := { r.response with warnings := reports ++ r.response.warnings },
    trace := visit :: r.trace }

/-- A run with a skipped step in front. -/
def afterSkip (r : Run β) : Run β := { r with trace := .skipped :: r.trace }

/-- The run of a step and of what its verdict leads to. -/
def conclude (visit : Visit β) (reports : List Warning) (verdict : Verdict β) (next : β → Run β) :
    Run β :=
  match verdict with
  | .proceed data => (next data).after visit reports
  | .stop response => (done response).after visit reports

end Run

namespace Cause

/-- A cause put under a fault, unless it is one already; the message stands in for a missing
cause. -/
def attributed (fault : Cause → Cause) (missing : String) : Option Cause → Cause
  | some cause => if cause.isFault then cause else fault cause
  | none => fault (.message missing)

/-- The cause of a fatal error of a processor. -/
def ofFatal (processor : String) (cause : Option Cause) : Cause :=
  attributed (processing processor) "processor raised error" cause

/-- The cause of an unhandled error of a processor. -/
def ofUnhandled (processor : String) (cause : Option Cause) : Cause :=
  attributed (unhandled processor) "processor failed without an error" cause

end Cause

namespace Response

/-- The report of an error that does not abort a run. -/
def report (processor : String) (r : Response β) : Warning :=
  ⟨processor, r.state, (r.cause.map Cause.full).getD "processor reported an error"⟩

/-- The reports of a response: its own, or else one for an error that does not abort. -/
def allReports (processor : String) (r : Response β) : List Warning :=
  if r.warnings.isEmpty && r.state.isReport then [r.report processor] else r.warnings

/-- The reports that go with a verdict on a response. An error without data counts as missing data
and is not reported. -/
def reports (processor : String) (r : Response β) : List Warning :=
  if r.data.isSome then r.allReports processor else r.warnings

/-- What follows from a response of a processor. -/
def verdict (processor : String) (r : Response β) : Verdict β :=
  match r.state, r.data with
  | .fatalError, data => .stop ⟨.fatalError, data, some (.ofFatal processor r.cause), []⟩
  | .unhandledError, data =>
    .stop ⟨.unhandledError, data, some (.ofUnhandled processor r.cause), []⟩
  | _, none => .stop nullData
  | .nullData, some data => .stop ⟨.nullData, some data, none, []⟩
  | .stopWithOk, some data => .stop (stopOk data)
  | .stopWithError, some data => .stop ⟨.stopWithError, some data, r.cause, []⟩
  | .pending, some data => .proceed data
  | .ok, some data => .proceed data
  | .notExecuted, some data => .proceed data
  | .continueWithError, some data => .proceed data

end Response

end GuardedFlow
