import GuardedFlow.Json.Basic

/-!
# Structures and variants in documents

A structure is written as an object with named fields. When it is read, fields that are not known
are ignored and a field given twice is an error; the fields may also stand in an array, in their
order. A variant is written as its name alone, or as an object with the name as its only key.
-/

namespace GuardedFlow.Json

/-- The levels of nesting in a document. -/
def depth : Json → Nat
  | array items => itemsDepth items + 1
  | object members => membersDepth members + 1
  | _ => 0
where
  itemsDepth : List Json → Nat
    | [] => 0
    | j :: rest => max (depth j) (itemsDepth rest)
  membersDepth : List (String × Json) → Nat
    | [] => 0
    | (_, j) :: rest => max (depth j) (membersDepth rest)

/-- The field of a name among members: an error if it is given twice. -/
def field? (members : List (String × Json)) (name : String) : Option (Option Json) :=
  match members.filter fun m => m.1 == name with
  | [] => some none
  | [(_, j)] => some (some j)
  | _ => none

/-- The fields of a structure in the order of their names. An array may leave out fields from the
end as long as `least` are there. -/
def fields? (names : List String) (least : Nat) : Json → Option (List (Option Json))
  | object members => names.mapM (field? members)
  | array items =>
    if least ≤ items.length ∧ items.length ≤ names.length then
      some (items.map some ++ List.replicate (names.length - items.length) none)
    else none
  | _ => none

/-- The name and the payload of a variant. -/
def variant? : Json → Option (String × Option Json)
  | string name => some (name, none)
  | object [(name, payload)] => some (name, some payload)
  | _ => none

/-- A variant with a payload. -/
def tagged (name : String) (payload : Json) : Json := object [(name, payload)]

def isUnit : Option Json → Bool
  | none => true
  | some null => true
  | some _ => false

/-- The name of a variant that has no payload. -/
def unitName? (j : Json) : Option String :=
  match j.variant? with
  | some (name, payload) => if isUnit payload then some name else none
  | none => none

/-- A required field. -/
def required {α : Type} (read : Json → Option α) (field : Option Json) : Option α := field.bind read

/-- A field that may be absent or null. -/
def optional {α : Type} (read : Json → Option α) : Option Json → Option (Option α)
  | none => some none
  | some null => some none
  | some j => (read j).map some

def string? : Json → Option String
  | string s => some s
  | _ => none

def bool? : Json → Option Bool
  | bool b => some b
  | _ => none

def nat? : Json → Option Nat
  | integer i => if 0 ≤ i then some i.toNat else none
  | _ => none

/-- An array whose items are all readable. -/
def list? {α : Type} (read : Json → Option α) : Json → Option (List α)
  | array items => items.mapM read
  | _ => none

end GuardedFlow.Json
