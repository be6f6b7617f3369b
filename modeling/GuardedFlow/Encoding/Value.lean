import GuardedFlow.Number.Round
import GuardedFlow.Encoding.Fields
import GuardedFlow.Value.Basic

/-!
# Values in documents

A value is written as itself, every number as one that is not whole. A number that is not finite is
written as null, as documents have none. Of members with one key the last one counts when a value is
read.
-/

namespace GuardedFlow.Value

mutual

def toJson : Value → Json
  | null => .null
  | bool b => .bool b
  | number x => if x.isFinite then .number x else .null
  | string s => .string s
  | array items => .array (itemsToJson items)
  | object fields => .object (fieldsToJson fields)
termination_by structural v => v

def itemsToJson : List Value → List Json
  | [] => []
  | v :: rest => v.toJson :: itemsToJson rest
termination_by structural l => l

def fieldsToJson : List (String × Value) → List (String × Json)
  | [] => []
  | (key, v) :: rest => (key, v.toJson) :: fieldsToJson rest
termination_by structural l => l

end

mutual

def ofJson? : Json → Option Value
  | .null => some null
  | .bool b => some (bool b)
  | .integer i => some (number (.ofInt i))
  | .number x => some (number x)
  | .string s => some (string s)
  | .array items => (itemsOfJson? items).map array
  | .object members => (fieldsOfJson? members).map ofFields
  | .unreadable => none
termination_by structural j => j

def itemsOfJson? : List Json → Option (List Value)
  | [] => some []
  | j :: rest =>
    match ofJson? j, itemsOfJson? rest with
    | some v, some others => some (v :: others)
    | _, _ => none
termination_by structural l => l

def fieldsOfJson? : List (String × Json) → Option (List (String × Value))
  | [] => some []
  | (key, j) :: rest =>
    match ofJson? j, fieldsOfJson? rest with
    | some v, some others => some ((key, v) :: others)
    | _, _ => none
termination_by structural l => l

end

end GuardedFlow.Value
