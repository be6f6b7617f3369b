import GuardedFlow.Keyed
import GuardedFlow.Number.Basic

/-!
# Values

The values that expressions compare: scalars, arrays and objects. An object keeps its members sorted
by key, each key once, so that two objects with the same members are the same value. Members are
entered through `Value.ofFields`, which keeps that order; `Value.Canonical` is the predicate for it
at every depth.
-/

namespace GuardedFlow

/-- A value of an expression or a record. -/
inductive Value where
  /-- The absent value, also what an absent field reads as. -/
  | null
  | bool (b : Bool)
  | number (x : Number)
  | string (s : String)
  | array (items : List Value)
  /-- Members in ascending order of their keys. -/
  | object (fields : List (String × Value))
deriving Repr

namespace Value

instance : Inhabited Value := ⟨null⟩

def kind : Value → String
  | null => "null"
  | bool _ => "bool"
  | number _ => "number"
  | string _ => "string"
  | array _ => "array"
  | object _ => "object"

def isNull : Value → Bool
  | null => true
  | _ => false

def number? : Value → Option Number
  | number x => some x
  | _ => none

def string? : Value → Option String
  | string s => some s
  | _ => none

/-! ## Members of objects -/

/-- The object with the given members; of members with one key the last one counts. -/
def ofFields (fields : List (String × Value)) : Value := object (Keyed.ofList fields)

/-- The value at the end of a path of keys. A key that is missing, or asked of anything but an
object, leads to the absent value. -/
def follow : Value → List String → Value
  | v, [] => v
  | object fields, key :: path =>
    match Keyed.find? fields key with
    | some v => v.follow path
    | none => null
  | _, _ :: _ => null

mutual

/-- Whether the members of every object in a value are in ascending order. -/
def canonical : Value → Bool
  | array items => canonicalItems items
  | object fields => Keyed.ascending fields && canonicalFields fields
  | _ => true
termination_by structural v => v

/-- `canonical` for each item. -/
def canonicalItems : List Value → Bool
  | [] => true
  | v :: rest => v.canonical && canonicalItems rest
termination_by structural l => l

/-- `canonical` for each member. -/
def canonicalFields : List (String × Value) → Bool
  | [] => true
  | (_, v) :: rest => v.canonical && canonicalFields rest
termination_by structural l => l

end

/-- The members of every object are in ascending order of their keys, each key once. -/
def Canonical (v : Value) : Prop := v.canonical = true

/-! ## Equality -/

mutual

/-- Whether two values are equal, numbers by their numeric value: NaN differs from itself. -/
def equals : Value → Value → Bool
  | null, null => true
  | bool a, bool b => a == b
  | number x, number y => x.equals y
  | string s, string t => s == t
  | array xs, array ys => equalItems xs ys
  | object fs, object gs => equalFields fs gs
  | _, _ => false
termination_by structural v => v

def equalItems : List Value → List Value → Bool
  | [], [] => true
  | x :: xs, y :: ys => x.equals y && equalItems xs ys
  | _, _ => false
termination_by structural l => l

def equalFields : List (String × Value) → List (String × Value) → Bool
  | [], [] => true
  | (k, x) :: xs, (l, y) :: ys => k == l && (x.equals y && equalFields xs ys)
  | _, _ => false
termination_by structural l => l

end

end Value

end GuardedFlow
