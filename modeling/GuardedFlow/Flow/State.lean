/-!
# States

The nine ways a step can end, and what they mean for the steps after it.
-/

namespace GuardedFlow

/-- How a step ended. -/
inductive State where
  | pending
  | ok
  | notExecuted
  | nullData
  | continueWithError
  | stopWithOk
  | stopWithError
  | fatalError
  | unhandledError
deriving DecidableEq, Repr

namespace State

def all : List State :=
  [pending, ok, notExecuted, nullData, continueWithError, stopWithOk, stopWithError, fatalError,
    unhandledError]

/-- Whether a run stops after a step in this state. -/
def isTerminal : State → Bool
  | pending | ok | notExecuted | continueWithError => false
  | _ => true

/-- Whether the state is one of the two failures that abort a run. -/
def isError : State → Bool
  | fatalError | unhandledError => true
  | _ => false

/-- Whether the state reports an error that does not abort a run. -/
def isReport : State → Bool
  | continueWithError | stopWithError => true
  | _ => false

def name : State → String
  | pending => "none"
  | ok => "ok"
  | notExecuted => "not_executed"
  | nullData => "null_data"
  | continueWithError => "continue_with_error"
  | stopWithOk => "stop_with_ok"
  | stopWithError => "stop_with_error"
  | fatalError => "fatal_error"
  | unhandledError => "unhandled_error"

def ofName? (name : String) : Option State := all.find? fun s => s.name == name

end State

end GuardedFlow
