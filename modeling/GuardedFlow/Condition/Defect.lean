import GuardedFlow.Condition.Basic

/-!
# Defects of conditions

What can be wrong with a node, and the two checks: `Condition.defect?` looks at one node alone and
`Condition.treeDefect?` at the whole tree, closing marks included. Both give the first defect in
reading order.
-/

namespace GuardedFlow.Condition

/-- What a condition lacks. -/
inductive Defect where
  | emptyGroup
  | missingSide (op : Connective) (isLeft : Bool)
  | noOperator (left : Operand)
  | constantLeft (left : Operand)
  | missingRight (left : Operand) (op : Comparator)
  | extraRight (left right : Operand)
  | testedOperand (left : Operand)
  | noValues (left : Operand)
  | missingBound (left : Operand)
  | openGroup
  | openLogical (op : Connective)
  | openSet (left : Operand)
deriving Repr

/-- What a defect is called, without the heading. -/
def Defect.detail : Defect → String
  | emptyGroup => "group has no conditions"
  | missingSide op isLeft =>
    op.name ++ " is missing its " ++ (if isLeft then "left" else "right") ++ " side"
  | noOperator left => "comparison on '" ++ left.text ++ "' has no operator"
  | constantLeft left => "left side of a comparison must be a variable, found '" ++ left.text ++ "'"
  | missingRight left op =>
    "comparison '" ++ left.text ++ " " ++ op.symbol ++ "' is missing its right side"
  | extraRight left right =>
    "null check on '" ++ left.text ++ "' cannot take a value, found '" ++ right.text ++ "'"
  | testedOperand left => "set comparison must test a variable, found '" ++ left.text ++ "'"
  | noValues left => "set comparison on '" ++ left.text ++ "' has no values"
  | missingBound left => "range on '" ++ left.text ++ "' needs a low and a high bound"
  | openGroup => "group is not closed"
  | openLogical op => op.name ++ " is not closed"
  | openSet left => "set comparison on '" ++ left.text ++ "' is not closed"

def Defect.message (d : Defect) : String := "Validation error: " ++ d.detail

/-- What a comparison lacks. -/
def comparisonDefect? (left : Operand) (op : Option Comparator) (right : Option Operand) :
    Option Defect :=
  match op with
  | none => some (.noOperator left)
  | some o =>
    if !left.mentionsVariable then some (.constantLeft left)
    else
      match o.isUnary, right with
      | false, none => some (.missingRight left o)
      | true, some r => some (.extraRight left r)
      | _, _ => none

/-- What a set test lacks. -/
def setDefect? (left : Operand) (op : SetOperator) (values : List Operand) : Option Defect :=
  if !left.isVariable then some (.testedOperand left)
  else if values.isEmpty then some (.noValues left)
  else if op.isRange && decide (values.length < 2) then some (.missingBound left)
  else none

/-- What a node lacks, its children aside. -/
def defect? : Condition → Option Defect
  | group children _ => if children.isEmpty then some .emptyGroup else none
  | logical op left right _ =>
    if left.isNone then some (.missingSide op true)
    else if right.isNone then some (.missingSide op false)
    else none
  | comparison left op right => comparisonDefect? left op right
  | set left op values _ => setDefect? left op values

mutual

/-- The first defect of a node or of anything below it; a node is checked before what is below
it. -/
def treeDefect? : Condition → Option Defect
  | c@(group children closed) =>
    c.defect?.or (if closed then childrenDefect? children else some .openGroup)
  | c@(logical op left right closed) =>
    c.defect?.or
      (if closed then (sideDefect? left).or (sideDefect? right) else some (.openLogical op))
  | c@(comparison ..) => c.defect?
  | c@(set left _ _ closed) => c.defect?.or (if closed then none else some (.openSet left))
termination_by structural c => c

def childrenDefect? : List Condition → Option Defect
  | [] => none
  | c :: rest => c.treeDefect?.or (childrenDefect? rest)
termination_by structural l => l

def sideDefect? : Option Condition → Option Defect
  | none => none
  | some c => c.treeDefect?
termination_by structural o => o

end

end GuardedFlow.Condition
