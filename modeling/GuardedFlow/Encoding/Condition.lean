import GuardedFlow.Encoding.Operand

/-!
# Conditions in documents

Each kind of condition is a variant. Its fields are written in the order of the type, the missing
ones as null, and a missing field is also read where it is left out.
-/

namespace GuardedFlow

def Connective.tag : Connective → String
  | .and => "And"
  | .or => "Or"

namespace Condition

mutual

def toJson : Condition → Json
  | group children closed =>
    .tagged "Group" (.object [("children", .array (allToJson children)), ("closed", .bool closed)])
  | logical op left right closed =>
    .tagged op.tag
      (.object [("left", sideToJson left), ("right", sideToJson right), ("closed", .bool closed)])
  | comparison left op right =>
    .tagged "Comparison"
      (.object [("left", left.toJson), ("operator", .ofOption (op.map fun o => .string o.name)),
        ("right", .ofOption (right.map Operand.toJson))])
  | set left op values closed =>
    .tagged "SetComparison"
      (.object [("left", left.toJson), ("operator", .string op.name),
        ("values", .array (Operand.allToJson values)), ("closed", .bool closed)])
termination_by structural c => c

def allToJson : List Condition → List Json
  | [] => []
  | c :: rest => c.toJson :: allToJson rest
termination_by structural l => l

/-- A side as a document, null if it is missing. -/
def sideToJson : Option Condition → Json
  | none => .null
  | some c => c.toJson
termination_by structural o => o

end

def readGroup? (read : Json → Option Condition) (payload : Json) : Option Condition :=
  match payload.fields? ["children", "closed"] 2 with
  | some [children, closed] => do
    let children ← Json.required (Json.list? read) children
    let closed ← Json.required Json.bool? closed
    return group children closed
  | _ => none

def readLogical? (read : Json → Option Condition) (op : Connective) (payload : Json) :
    Option Condition :=
  match payload.fields? ["left", "right", "closed"] 3 with
  | some [left, right, closed] => do
    let left ← Json.optional read left
    let right ← Json.optional read right
    let closed ← Json.required Json.bool? closed
    return logical op left right closed
  | _ => none

def readComparison? (payload : Json) : Option Condition :=
  match payload.fields? ["left", "operator", "right"] 3 with
  | some [left, op, right] => do
    let left ← Json.required Operand.ofJson? left
    let op ← Json.optional (fun j => j.unitName?.bind Comparator.ofName?) op
    let right ← Json.optional Operand.ofJson? right
    return comparison left op right
  | _ => none

def readSet? (payload : Json) : Option Condition :=
  match payload.fields? ["left", "operator", "values", "closed"] 4 with
  | some [left, op, values, closed] => do
    let left ← Json.required Operand.ofJson? left
    let op ← Json.required (fun j => j.unitName?.bind SetOperator.ofName?) op
    let values ← Json.required (Json.list? Operand.ofJson?) values
    let closed ← Json.required Json.bool? closed
    return set left op values closed
  | _ => none

/-- The condition that a document writes, if it is nested no deeper than the fuel. -/
def read? : Nat → Json → Option Condition
  | 0, _ => none
  | fuel + 1, j =>
    match j.variant? with
    | some ("Group", some payload) => readGroup? (read? fuel) payload
    | some ("And", some payload) => readLogical? (read? fuel) .and payload
    | some ("Or", some payload) => readLogical? (read? fuel) .or payload
    | some ("Comparison", some payload) => readComparison? payload
    | some ("SetComparison", some payload) => readSet? payload
    | _ => none

def ofJson? (j : Json) : Option Condition := read? (j.depth + 1) j

end Condition

end GuardedFlow
