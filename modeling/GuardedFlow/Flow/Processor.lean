import GuardedFlow.Flow.Response

/-!
# Processors

A processor is a named unit of work on data of one type. It answers with a response, fails with a
cause, or panics; `Processor.invoke` turns all three into a response. Along with the outcome it
tells which calls were made in the course of the work, so that the calls of a whole run are the
calls of its steps in order.
-/

namespace GuardedFlow

/-- The named values that a run hands to every processor. -/
abbrev Context := Keyed Value

/-- A call of a unit of work that has no steps of its own. -/
structure Call (β : Type) where
  processor : String
  item : β

/-- How the work of a processor ended. -/
inductive Outcome (β : Type) where
  | response (r : Response β)
  | failure (cause : Cause)
  /-- An abrupt end, with its message if it has one in words. -/
  | panic (message : Option String)

/-- A named unit of work. -/
structure Processor (β : Type) where
  name : String
  run : β → Context → Outcome β × List (Call β)

variable {β : Type}

/-- The response that an outcome amounts to: what is neither foreseen nor answered is an unhandled
error. -/
def Outcome.toResponse : Outcome β → Response β
  | response r => r
  | failure cause => ⟨.unhandledError, none, some cause, []⟩
  | panic message =>
    ⟨.unhandledError, none,
      some (.message ("panicked: " ++ message.getD "unknown panic payload")), []⟩

namespace Processor

/-- The response to an item, with the calls made. -/
def invoke (p : Processor β) (item : β) (context : Context) : Response β × List (Call β) :=
  let (outcome, calls) := p.run item context
  (outcome.toResponse, calls)

/-- The same work under another name. -/
def renamed (p : Processor β) (name : String) : Processor β := { p with name := name }

end Processor

end GuardedFlow
