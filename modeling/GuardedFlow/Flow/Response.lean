import GuardedFlow.Flow.Cause
import GuardedFlow.Flow.State

/-!
# Responses

What a step, or a whole run, answers: how it ended, the data to go on with, the cause of a failure,
and the reports of errors that did not stop anything.
-/

namespace GuardedFlow

/-- A report of an error that did not abort a run. -/
structure Warning where
  processor : String
  state : State
  message : String
deriving DecidableEq, Repr

/-- The answer of a step or of a run. -/
structure Response (β : Type) where
  state : State
  data : Option β := none
  cause : Option Cause := none
  warnings : List Warning := []

namespace Response

variable {β : Type}

def ok (data : β) : Response β := ⟨.ok, some data, none, []⟩

def nullData : Response β := ⟨.nullData, none, none, []⟩

def notExecuted (data : β) : Response β := ⟨.notExecuted, some data, none, []⟩

def stopOk (data : β) : Response β := ⟨.stopWithOk, some data, none, []⟩

/-- An error after which a run goes on. -/
def continueWithError (data : β) (cause : Cause) : Response β :=
  ⟨.continueWithError, some data, some cause, []⟩

/-- An error that ends a run, data kept. -/
def stopWithError (data : β) (cause : Cause) : Response β :=
  ⟨.stopWithError, some data, some cause, []⟩

def fatal (cause : Cause) : Response β := ⟨.fatalError, none, some cause, []⟩

/-- A failure that gives no cause. -/
def fatalWithoutCause (data : Option β) : Response β := ⟨.fatalError, data, none, []⟩

def isOk (r : Response β) : Bool := r.state == .ok

end Response

end GuardedFlow
