import GuardedFlow.Token.Basic
import GuardedFlow.Value.Text

/-!
# Operands

The two sides of a comparison: variables, literals, arithmetic, calls and lists of values.
Arithmetic is built from left to right with `Operand.extend`, which keeps tighter operators below
looser ones and operators of one strength leaning to the left.
-/

namespace GuardedFlow

/-- The operators that join two operands. -/
inductive BinaryOp where
  | add | sub | mul | div | mod | bitAnd | bitOr | bitXor | shl | shr
deriving DecidableEq, Repr

namespace BinaryOp

/-- The operator of a symbol, if the symbol joins two operands. -/
def ofOperator? : Operator → Option BinaryOp
  | .add => some add
  | .sub => some sub
  | .mul => some mul
  | .div => some div
  | .mod => some mod
  | .bitAnd => some bitAnd
  | .bitOr => some bitOr
  | .bitXor => some bitXor
  | .shl => some shl
  | .shr => some shr
  | _ => none

def symbol : BinaryOp → String
  | add => "+"
  | sub => "-"
  | mul => "*"
  | div => "/"
  | mod => "%"
  | bitAnd => "&"
  | bitOr => "|"
  | bitXor => "^"
  | shl => "<<"
  | shr => ">>"

/-- How tightly an operator binds; higher is tighter. -/
def precedence : BinaryOp → Nat
  | mul | div | mod => 5
  | add | sub => 4
  | shl | shr => 3
  | bitAnd => 2
  | bitXor => 1
  | bitOr => 0

end BinaryOp

/-- The operators in front of one operand. -/
inductive UnaryOp where
  | neg | bitNot
deriving DecidableEq, Repr

namespace UnaryOp

def symbol : UnaryOp → String
  | neg => "-"
  | bitNot => "~"

end UnaryOp

/-- One side of a comparison. -/
inductive Operand where
  /-- A field, possibly dotted. -/
  | var (name : String)
  | literal (value : Value)
  /-- The absent value, written out. -/
  | null
  | binary (left : Operand) (op : BinaryOp) (right : Operand)
  | unary (op : UnaryOp) (operand : Operand)
  | call (name : String) (args : List Operand)
  | list (items : List Operand)
deriving Repr

namespace Operand

instance : Inhabited Operand := ⟨null⟩

/-- The operand that a bare word stands for: a keyword, a number, or else a variable.

The names of the numbers that are not finite start with a letter, and such words are variables. -/
def ofWord (text : String) : Operand :=
  if text = "null" then null
  else if text = "true" then literal (.bool true)
  else if text = "false" then literal (.bool false)
  else
    match Number.parse? text with
    | some x => if text.toList.head?.any Char.isAlpha then var text else literal (.number x)
    | none => var text

def quoted (text : String) : Operand := literal (.string text)

/-- An operand followed by an operator and another operand.

A tighter operator goes down the right side of what is there. -/
def extend : Operand → BinaryOp → Operand → Operand
  | binary left existing right, op, operand =>
    if existing.precedence < op.precedence then binary left existing (right.extend op operand)
    else binary (binary left existing right) op operand
  | left, op, operand => binary left op operand

/-- An operand with a minus sign in front, which a numeric literal takes in. -/
def negate : Operand → Operand
  | literal (.number x) => literal (.number x.neg)
  | operand => unary .neg operand

def complement (operand : Operand) : Operand := unary .bitNot operand

/-- An operand with the given sign in front. -/
def signed (operand : Operand) : UnaryOp → Operand
  | .neg => operand.negate
  | .bitNot => operand.complement

def isVariable : Operand → Bool
  | var _ => true
  | _ => false

mutual

/-- Whether a variable occurs in an operand. -/
def mentionsVariable : Operand → Bool
  | var _ => true
  | literal _ | null => false
  | binary left _ right => left.mentionsVariable || right.mentionsVariable
  | unary _ operand => operand.mentionsVariable
  | call _ args => anyMentionsVariable args
  | list items => anyMentionsVariable items
termination_by structural o => o

/-- Whether a variable occurs in one of the operands. -/
def anyMentionsVariable : List Operand → Bool
  | [] => false
  | o :: rest => o.mentionsVariable || anyMentionsVariable rest
termination_by structural l => l

end

mutual

/-- The variables of an operand from left to right, with repetitions. -/
def variableNames : Operand → List String
  | var name => [name]
  | literal _ | null => []
  | binary left _ right => left.variableNames ++ right.variableNames
  | unary _ operand => operand.variableNames
  | call _ args => allVariableNames args
  | list items => allVariableNames items
termination_by structural o => o

def allVariableNames : List Operand → List String
  | [] => []
  | o :: rest => o.variableNames ++ allVariableNames rest
termination_by structural l => l

end

/-! ## Text -/

mutual

/-- The text of an operand: texts quoted, arithmetic in parentheses, lists in braces. -/
def text : Operand → String
  | var name => name
  | literal (.string s) => Text.quote s
  | literal value => value.text
  | null => "null"
  | binary left op right => "(" ++ left.text ++ " " ++ op.symbol ++ " " ++ right.text ++ ")"
  | unary op operand => op.symbol ++ operand.text
  | call name args => name ++ "(" ++ commaText args ++ ")"
  | list items => "\x7b" ++ commaText items ++ "\x7d"
termination_by structural o => o

def commaText : List Operand → String
  | [] => ""
  | [o] => o.text
  | o :: rest => o.text ++ ", " ++ commaText rest
termination_by structural l => l

end

end Operand

end GuardedFlow
