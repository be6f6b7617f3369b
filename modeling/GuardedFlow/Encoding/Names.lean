import GuardedFlow.Condition.Basic

/-!
# Names of operators

The names under which operators, delimiters and connectives stand in documents. Each table of names
is read in both directions, and names are told apart by case.
-/

namespace GuardedFlow

/-- The first element with a name. -/
def named? {α : Type} (all : List α) (name : α → String) (s : String) : Option α :=
  all.find? fun a => name a == s

namespace Operator

def name : Operator → String
  | eq => "Eq"
  | ne => "Ne"
  | gt => "Gt"
  | ge => "Ge"
  | lt => "Lt"
  | le => "Le"
  | and => "And"
  | or => "Or"
  | add => "Add"
  | sub => "Sub"
  | mul => "Mul"
  | div => "Div"
  | mod => "Mod"
  | bitAnd => "BitAnd"
  | bitOr => "BitOr"
  | bitXor => "BitXor"
  | shl => "Shl"
  | shr => "Shr"
  | bitNot => "BitNot"

def ofName? (s : String) : Option Operator := named? longestFirst name s

end Operator

namespace Delimiter

def all : List Delimiter :=
  [openParen, closeParen, openBracket, closeBracket, openBrace, closeBrace]

def name : Delimiter → String
  | openParen => "OpenParen"
  | closeParen => "CloseParen"
  | openBracket => "OpenBracket"
  | closeBracket => "CloseBracket"
  | openBrace => "OpenBrace"
  | closeBrace => "CloseBrace"

def ofName? (s : String) : Option Delimiter := named? all name s

end Delimiter

namespace BinaryOp

def all : List BinaryOp := [add, sub, mul, div, mod, bitAnd, bitOr, bitXor, shl, shr]

def name : BinaryOp → String
  | add => "Add"
  | sub => "Sub"
  | mul => "Mul"
  | div => "Div"
  | mod => "Mod"
  | bitAnd => "BitAnd"
  | bitOr => "BitOr"
  | bitXor => "BitXor"
  | shl => "Shl"
  | shr => "Shr"

def ofName? (s : String) : Option BinaryOp := named? all name s

end BinaryOp

namespace UnaryOp

def all : List UnaryOp := [neg, bitNot]

def name : UnaryOp → String
  | neg => "Neg"
  | bitNot => "BitNot"

def ofName? (s : String) : Option UnaryOp := named? all name s

end UnaryOp

namespace Comparator

def all : List Comparator := [eq, ne, gt, ge, lt, le, isNull, notNull]

def name : Comparator → String
  | eq => "Eq"
  | ne => "Ne"
  | gt => "Gt"
  | ge => "Ge"
  | lt => "Lt"
  | le => "Le"
  | isNull => "IsNull"
  | notNull => "NotNull"

def ofName? (s : String) : Option Comparator := named? all name s

end Comparator

namespace SetOperator

def all : List SetOperator := [member, notMember, inRange, notInRange]

def name : SetOperator → String
  | member => "In"
  | notMember => "NotIn"
  | inRange => "InRange"
  | notInRange => "NotInRange"

def ofName? (s : String) : Option SetOperator := named? all name s

end SetOperator

end GuardedFlow
