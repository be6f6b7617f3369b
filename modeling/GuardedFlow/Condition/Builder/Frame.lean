import GuardedFlow.Condition.Builder.Pending

/-!
# Containers under construction

The containers that are still open form a stack, the innermost first. `Frame.attach` hands a
finished condition to the container below it, and `Frame.settle` closes a comparison once no more of
it can follow.
-/

namespace GuardedFlow

/-- A container that is still open. -/
inductive Frame where
  | group (children : List Condition)
  /-- A connective that waits for its right side. -/
  | logical (op : Connective) (left : Condition)
  | comparison (left : Operand) (op : Option Comparator) (right : Option Operand)
  | set (left : Operand) (op : SetOperator) (values : List Operand)
deriving Repr

namespace Frame

def kind : Frame → String
  | group _ => "group"
  | logical op _ => op.name
  | comparison .. => "comparison"
  | set .. => "set comparison"

/-- What a container is called where a token does not fit in. -/
def name : Frame → String
  | group _ => "Group"
  | logical .. => "Logical"
  | comparison .. => "Comparison"
  | set .. => "SetComparison"

/-- The condition that a container stands for: one that is not closed, and that has no right side
if it is a connective. -/
def condition : Frame → Condition
  | group children => .group children false
  | logical op left => .logical op (some left) none false
  | comparison left op right => .comparison left op right
  | set left op values => .set left op values false

/-- Hands a finished condition to the innermost container.

A connective is complete with its right side and is handed on in turn. -/
def attach (offset : Nat) (c : Condition) : List Frame → Except SyntaxError (List Frame)
  | [] => .error (.structural .noContainer offset)
  | group children :: below => .ok (group (children ++ [c]) :: below)
  | logical op left :: below => attach offset (.logical op (some left) (some c) true) below
  | frame :: _ => .error (.structural (.misplacedCondition frame.kind) offset)

/-- A comparison with the absent value is a test for it. -/
def nullTest (op : Option Comparator) (right : Option Operand) :
    Option Comparator × Option Operand :=
  match op, right with
  | some .eq, some .null => (some .isNull, none)
  | some .ne, some .null => (some .notNull, none)
  | _, _ => (op, right)

/-- Closes a comparison that is the innermost container. -/
def settle (offset : Nat) (pending : Pending) : List Frame → Except SyntaxError (List Frame)
  | comparison left op right :: below =>
    match pending.missing? with
    | some problem => .error (.structural problem offset)
    | none =>
      match nullTest op right with
      | (none, _) => .error (.structural (.noComparator left) offset)
      | (some op, right) =>
        if right.isNone && !op.isUnary then
          .error (.structural (.missingComparisonRight left) offset)
        else
          match Condition.comparisonDefect? left (some op) right with
          | some d => .error (.defect d)
          | none => attach offset (.comparison left (some op) right) below
  | stack => .ok stack

/-- What is missing in the innermost container when the input ends. -/
def unclosed : Frame → Problem
  | set left op _ => .unclosedSet op left
  | logical op _ => .missingRight op
  | _ => .unclosedGroup

end Frame

end GuardedFlow
