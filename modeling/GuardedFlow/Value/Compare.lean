import GuardedFlow.Text.Blank
import GuardedFlow.Value.Text

/-!
# Comparing values of different kinds

Before two values are compared the right one is brought to the kind of the left one, where there is
a conversion: between texts and numbers, and between texts and truth values. Equality then is
equality of values, and an order exists between two numbers and between two texts only.
-/

namespace GuardedFlow.Value

/-- A value brought to the kind of `target`; a value without a conversion stays as it is. -/
def coerce (v target : Value) : Value :=
  match target, v with
  | number _, string s =>
    match Number.parse? (Text.trim s) with
    | some x => number x
    | none => v
  | string _, number x => string x.text
  | string _, bool b => string (boolText b)
  | bool _, string s => if s = "true" then bool true else if s = "false" then bool false else v
  | _, _ => v

/-- Whether two values are equal after the right one is brought to the kind of the left one. -/
def looseEquals (l r : Value) : Bool := l.equals (r.coerce l)

/-- The order of two values of one kind; texts are ordered by code points. -/
def order : Value → Value → Option Ordering
  | number x, number y => x.order y
  | string s, string t => some (compare s t)
  | _, _ => none

/-- The order of two values after the right one is brought to the kind of the left one. -/
def looseOrder (l r : Value) : Option Ordering := l.order (r.coerce l)

/-- Whether a value lies between two bounds, ends included. The absent value lies in no range. -/
def within (v low high : Value) : Bool :=
  !v.isNull && ((v.looseOrder low).any Ordering.isGE && (v.looseOrder high).any Ordering.isLE)

/-- Whether a value is equal to an item of an array. -/
def isAmong (v : Value) : Value → Bool
  | array items => items.any fun item => v.looseEquals item
  | _ => false

end GuardedFlow.Value
