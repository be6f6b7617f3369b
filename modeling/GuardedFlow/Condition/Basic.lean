import GuardedFlow.Operand.Basic

/-!
# Conditions

The tree of an expression: groups of conditions that must all hold, two-sided connectives,
comparisons and set tests. A node may be incomplete, since trees are also built by hand and read
from documents; `Condition.defect?` of `Condition.Defect` says what is missing.
-/

namespace GuardedFlow

/-- The operators of a comparison. The last two test for the absent value and have no right side. -/
inductive Comparator where
  | eq | ne | gt | ge | lt | le | isNull | notNull
deriving DecidableEq, Repr

namespace Comparator

def isUnary : Comparator → Bool
  | isNull | notNull => true
  | _ => false

def symbol : Comparator → String
  | eq => "="
  | ne => "!="
  | gt => ">"
  | ge => ">="
  | lt => "<"
  | le => "<="
  | isNull => "= null"
  | notNull => "!= null"

/-- The comparison that an operator symbol stands for. -/
def ofOperator? : Operator → Option Comparator
  | .eq => some eq
  | .ne => some ne
  | .gt => some gt
  | .ge => some ge
  | .lt => some lt
  | .le => some le
  | _ => none

end Comparator

/-- The operators of a set test: membership in a list, or a range with both ends, each also
negated. -/
inductive SetOperator where
  | member | notMember | inRange | notInRange
deriving DecidableEq, Repr

namespace SetOperator

/-- The operator with the given properties. -/
def ofFlags (negated range : Bool) : SetOperator :=
  match negated, range with
  | false, false => member
  | true, false => notMember
  | false, true => inRange
  | true, true => notInRange

/-- Whether the values are the two ends of a range. -/
def isRange : SetOperator → Bool
  | inRange | notInRange => true
  | _ => false

def isNegated : SetOperator → Bool
  | notMember | notInRange => true
  | _ => false

/-- The delimiters around the values. -/
def delimiters (o : SetOperator) : Delimiter × Delimiter :=
  if o.isRange then (.openBracket, .closeBracket) else (.openBrace, .closeBrace)

end SetOperator

/-- The operators that join two conditions. -/
inductive Connective where
  | and | or
deriving DecidableEq, Repr

namespace Connective

def symbol : Connective → String
  | and => "&&"
  | or => "||"

/-- The name of a connective in messages. -/
def name : Connective → String
  | and => "and"
  | or => "or"

end Connective

/-- A condition, whole or in part. A node is closed once its end has been read. -/
inductive Condition where
  /-- All of the children hold. -/
  | group (children : List Condition) (closed : Bool)
  | logical (op : Connective) (left right : Option Condition) (closed : Bool)
  | comparison (left : Operand) (op : Option Comparator) (right : Option Operand)
  | set (left : Operand) (op : SetOperator) (values : List Operand) (closed : Bool)
deriving Repr

namespace Condition

instance : Inhabited Condition := ⟨group [] false⟩

def kind : Condition → String
  | group .. => "group"
  | logical op .. => op.name
  | comparison .. => "comparison"
  | set .. => "set comparison"

mutual

/-- The variables of a condition from left to right, with repetitions. -/
def variableNames : Condition → List String
  | group children _ => allVariableNames children
  | logical _ left right _ => sideVariableNames left ++ sideVariableNames right
  | comparison left _ right => left.variableNames ++ (right.map Operand.variableNames).getD []
  | set left _ values _ => left.variableNames ++ Operand.allVariableNames values
termination_by structural c => c

/-- The variables of the conditions, one after the other. -/
def allVariableNames : List Condition → List String
  | [] => []
  | c :: rest => c.variableNames ++ allVariableNames rest
termination_by structural l => l

/-- The variables of a side, none if the side is missing. -/
def sideVariableNames : Option Condition → List String
  | none => []
  | some c => c.variableNames
termination_by structural o => o

end

/-! ## Text -/

mutual

/-- The text of a condition. Only groups are written with parentheses, and a missing side as `?`. -/
def text : Condition → String
  | group children _ => "(" ++ childrenText children ++ ")"
  | logical op left right _ => sideText left ++ " " ++ op.symbol ++ " " ++ sideText right
  | comparison left op right =>
    left.text ++ (op.map fun o => " " ++ o.symbol).getD "" ++
      (right.map fun r => " " ++ r.text).getD ""
  | set left op values _ =>
    left.text ++ (if op.isNegated then " != " else " = ") ++
      String.singleton op.delimiters.1.char ++
      Operand.commaText values ++ String.singleton op.delimiters.2.char
termination_by structural c => c

def childrenText : List Condition → String
  | [] => ""
  | [c] => c.text
  | c :: rest => c.text ++ " && " ++ childrenText rest
termination_by structural l => l

def sideText : Option Condition → String
  | none => "?"
  | some c => c.text
termination_by structural o => o

end

end Condition

end GuardedFlow
