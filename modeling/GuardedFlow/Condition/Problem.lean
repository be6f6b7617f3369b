import GuardedFlow.Condition.Defect
import GuardedFlow.Token.Lexer

/-!
# What can be wrong with an expression

A text is no expression because it cannot be cut into tokens, because a token stands where it cannot
(`Problem`), or because a node that was just closed has a defect. The first two carry the byte they
are at.
-/

namespace GuardedFlow

/-- Why a token, or the end of the input, cannot stand where it does. -/
inductive Problem where
  | emptyExpression
  | unclosedCall (name : String)
  | unclosedSet (op : SetOperator) (left : Operand)
  | unclosedGroup
  | missingRight (op : Connective)
  | missingLeft (op : Connective)
  | missingRightBefore (text : String)
  | unmatchedClose
  | unmatchedCloseInList (text : String)
  | expectedConnective
  | expectedConnectiveAfterComparison
  | groupAfterSign
  | missingComparisonLeft (text : String)
  | secondComparator
  | noComparator (left : Operand)
  | missingComparisonRight (left : Operand)
  | strayList
  | mismatchedClose (expected : Delimiter)
  | expectedValueBefore (text : String)
  | expectedSeparator
  | missingOperatorBetween
  | missingMathLeft (op : Operator)
  | missingMathRight (op : BinaryOp)
  | missingSigned (op : UnaryOp)
  | consecutiveOperators (op : Operator)
  | signBetween (op : Operator)
  | unexpectedCall (name : String)
  | missingArgumentBefore (text : String) (name : String)
  | unexpectedInCall (text : String) (name : String)
  | unexpected (text : String)
  | unexpectedIn (text : String) (container : String)
  | noContainer
  /-- A comparison was to be continued where there is none. -/
  | noComparison
  /-- A value was to be listed where there is no list. -/
  | noValueList
  /-- A connective was to take its left side from something other than a group. -/
  | noGroup
  /-- A list was to be closed where there is none. -/
  | strayClose
  /-- A finished condition reached a container that holds no conditions. -/
  | misplacedCondition (container : String)
  /-- Something other than a group is left at the end. -/
  | dangling (container : String)
  /-- A binary operator waits although nothing stands before it. -/
  | pendingWithoutLeft
  /-- A sign waits although a whole operand stands before it. -/
  | danglingSign
deriving Repr

def Problem.message : Problem → String
  | emptyExpression => "empty expression"
  | unclosedCall name => "unclosed '(' in call to " ++ name ++ "()"
  | unclosedSet op left =>
    "unclosed '" ++ String.singleton op.delimiters.1.char ++ "' in set comparison on '" ++
      left.text ++ "'"
  | unclosedGroup => "unclosed '('"
  | missingRight op => "'" ++ op.symbol ++ "' is missing its right operand"
  | missingLeft op => "'" ++ op.symbol ++ "' is missing its left operand"
  | missingRightBefore text =>
    "logical operator is missing its right operand before '" ++ text ++ "'"
  | unmatchedClose => "unmatched ')'"
  | unmatchedCloseInList text => "unmatched '" ++ text ++ "' inside a value list"
  | expectedConnective => "expected '&&' or '||' between conditions"
  | expectedConnectiveAfterComparison => "expected '&&' or '||' after a complete comparison"
  | groupAfterSign => "prefix operators cannot apply to a parenthesised condition"
  | missingComparisonLeft text => "comparison operator '" ++ text ++ "' is missing its left operand"
  | secondComparator =>
    "comparison already has an operator; combine comparisons with '&&' or '||'"
  | noComparator left => "'" ++ left.text ++ "' is not followed by a comparison operator"
  | missingComparisonRight left =>
    "comparison on '" ++ left.text ++ "' is missing its right operand"
  | strayList => "a value list must directly follow '=' or '!='"
  | mismatchedClose expected =>
    "mismatched delimiter: expected '" ++ String.singleton expected.char ++ "'"
  | expectedValueBefore text => "expected a value before '" ++ text ++ "'"
  | expectedSeparator => "expected ',' between values"
  | missingOperatorBetween => "missing operator between operands"
  | missingMathLeft op => "operator '" ++ op.symbol ++ "' is missing its left operand"
  | missingMathRight op => "operator '" ++ op.symbol ++ "' is missing its right operand"
  | missingSigned op => "operator '" ++ op.symbol ++ "' is missing its operand"
  | consecutiveOperators op => "operator '" ++ op.symbol ++ "' follows another operator"
  | signBetween op => "'" ++ op.symbol ++ "' is a prefix operator and cannot join two operands"
  | unexpectedCall name => "unexpected call to " ++ name ++ "()"
  | missingArgumentBefore text name =>
    "expected an argument before '" ++ text ++ "' in call to " ++ name ++ "()"
  | unexpectedInCall text name => "unexpected '" ++ text ++ "' inside call to " ++ name ++ "()"
  | unexpected text => "unexpected '" ++ text ++ "'"
  | unexpectedIn text container => "unexpected '" ++ text ++ "' in " ++ container
  | noContainer => "no enclosing container"
  | noComparison => "no comparison to attach to"
  | noValueList => "no value list to append to"
  | noGroup => "logical operator has no enclosing container"
  | strayClose => "unexpected closing delimiter"
  | misplacedCondition container => "a condition cannot be nested in a " ++ container
  | dangling container => "dangling " ++ container ++ " at end of input"
  | pendingWithoutLeft => "math operator is missing its left operand"
  | danglingSign => "dangling prefix operator"

/-- Why a text is no expression. -/
inductive SyntaxError where
  | tokens (e : LexError)
  | structural (problem : Problem) (offset : Nat)
  | defect (d : Condition.Defect)
deriving Repr

def SyntaxError.message : SyntaxError → String
  | tokens e =>
    "Tokenizing error at offset " ++ toString e.offset ++
      ": unterminated quoted literal starting with " ++ String.singleton e.quote
  | structural problem offset =>
    "Parsing error at offset " ++ toString offset ++ ": " ++ problem.message
  | defect d => d.message

end GuardedFlow
