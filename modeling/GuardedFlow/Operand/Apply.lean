import GuardedFlow.Number.Arith
import GuardedFlow.Operand.Basic
import GuardedFlow.Text.Blank
import GuardedFlow.Text.Case

/-!
# Applying operators and functions to values

Nothing here fails: operands that do not fit an operator, a zero divisor and a shift out of range
all give the absent value, and so does the absent value itself. Bitwise operators act on 64-bit
two's-complement words and need operands that are whole numbers in range.
-/

namespace GuardedFlow

/-- The 64-bit word of a whole number of magnitude at most `2 ^ 63`; `2 ^ 63` itself is cut down to
the greatest word. -/
def Number.toWord? (x : Number) : Option (BitVec 64) :=
  match x.toInt? with
  | some i =>
    if i.natAbs ≤ Nat.pow 2 63 then some (BitVec.ofInt 64 (min i (Nat.pow 2 63 - 1))) else none
  | none => none

/-- The number of a 64-bit word, read as a signed integer. -/
def Number.ofWord (w : BitVec 64) : Number := .ofInt w.toInt

/-- The value of an optional number, absent without one. -/
def Value.ofNumber? : Option Number → Value
  | some x => .number x
  | none => .null

namespace BinaryOp

/-- A bitwise operator on words. Shifts need a count below 64; the right shift keeps the sign. -/
def applyWords (op : BinaryOp) (l r : BitVec 64) : Option (BitVec 64) :=
  match op with
  | bitAnd => some (l &&& r)
  | bitOr => some (l ||| r)
  | bitXor => some (l ^^^ r)
  | shl => if r.toNat < 64 then some (l <<< r.toNat) else none
  | shr => if r.toNat < 64 then some (l.sshiftRight r.toNat) else none
  | _ => none

/-- A binary operator on numbers. -/
def applyNumbers (op : BinaryOp) (x y : Number) : Option Number :=
  match op with
  | add => some (x.add y)
  | sub => some (x.sub y)
  | mul => some (x.mul y)
  | div => if y.isZero then none else some (x.div y)
  | mod => if y.isZero then none else some (x.rem y)
  | _ =>
    match x.toWord?, y.toWord? with
    | some l, some r => (op.applyWords l r).map Number.ofWord
    | _, _ => none

/-- A binary operator on values. Two texts can be added. -/
def apply (op : BinaryOp) (l r : Value) : Value :=
  match l, r with
  | .number x, .number y => Value.ofNumber? (op.applyNumbers x y)
  | .string s, .string t => if op = add then .string (s ++ t) else .null
  | _, _ => .null

end BinaryOp

/-- A sign on a value. -/
def UnaryOp.apply (op : UnaryOp) (v : Value) : Value :=
  match op, v with
  | .neg, .number x => .number x.neg
  | .bitNot, .number x => Value.ofNumber? (x.toWord?.map fun w => Number.ofWord (~~~w))
  | _, _ => .null

/-- The functions that can be called, each with one argument. -/
inductive Builtin where
  | len | lower | upper | trim | abs
deriving DecidableEq, Repr

namespace Builtin

/-- The function of a name. -/
def ofName? (name : String) : Option Builtin :=
  if name = "len" then some len
  else if name = "lower" then some lower
  else if name = "upper" then some upper
  else if name = "trim" then some trim
  else if name = "abs" then some abs
  else none

/-- The value of a function, absent where the argument does not fit. -/
def apply (f : Builtin) (v : Value) : Value :=
  match f, v with
  | len, .string s => .number (.ofNat s.length)
  | len, .array items => .number (.ofNat items.length)
  | len, .object fields => .number (.ofNat fields.length)
  | lower, .string s => .string (Text.lower s)
  | upper, .string s => .string (Text.upper s)
  | trim, .string s => .string (Text.trim s)
  | abs, .number x => .number x.abs
  | _, _ => .null

end Builtin

end GuardedFlow
