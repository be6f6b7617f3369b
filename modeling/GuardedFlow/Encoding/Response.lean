import GuardedFlow.Encoding.Fields
import GuardedFlow.Flow.Response

/-!
# States and warnings in documents
-/

namespace GuardedFlow

def State.toJson (s : State) : Json := .string s.name

def State.ofJson? (j : Json) : Option State := j.unitName?.bind State.ofName?

def Warning.toJson (w : Warning) : Json :=
  .object [("processor", .string w.processor), ("state", w.state.toJson),
    ("message", .string w.message)]

def Warning.ofJson? (j : Json) : Option Warning :=
  match j.fields? ["processor", "state", "message"] 3 with
  | some [processor, state, message] => do
    let processor ← Json.required Json.string? processor
    let state ← Json.required State.ofJson? state
    let message ← Json.required Json.string? message
    return ⟨processor, state, message⟩
  | _ => none

end GuardedFlow
