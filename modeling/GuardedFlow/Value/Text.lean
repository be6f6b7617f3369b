import GuardedFlow.Number.Text
import GuardedFlow.Value.Basic

/-!
# Values as text

A value is shown the way it is written in messages: numbers by `Number.text`, texts bare, arrays in
brackets and objects in braces, members in the order of their keys.
-/

namespace GuardedFlow.Value

def boolText (b : Bool) : String := if b then "true" else "false"

mutual

def text : Value → String
  | null => "null"
  | bool b => boolText b
  | number x => x.text
  | string s => s
  | array items => "[" ++ itemsText items ++ "]"
  | object fields => "\x7b" ++ fieldsText fields ++ "\x7d"
termination_by structural v => v

/-- The texts of items, separated by commas. -/
def itemsText : List Value → String
  | [] => ""
  | [v] => v.text
  | v :: rest => v.text ++ ", " ++ itemsText rest
termination_by structural l => l

/-- The texts of members, separated by commas. -/
def fieldsText : List (String × Value) → String
  | [] => ""
  | [(k, v)] => k ++ ": " ++ v.text
  | (k, v) :: rest => k ++ ": " ++ v.text ++ ", " ++ fieldsText rest
termination_by structural l => l

end

end GuardedFlow.Value
