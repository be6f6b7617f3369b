import GuardedFlow.Condition.Problem

/-!
# Operators that wait for an operand

While an operand is read, a binary operator may wait for its right side and signs may wait for the
operand they stand before. `Pending.combine` joins the next operand to what is there.
-/

namespace GuardedFlow

/-- The operators that have been read and not yet applied. -/
structure Pending where
  /-- A binary operator whose right side has not arrived. -/
  binary : Option BinaryOp
  /-- The signs in front of the operand to come, the last one read first. -/
  signs : List UnaryOp
deriving DecidableEq, Repr

namespace Pending

def idle : Pending := ⟨none, []⟩

def isIdle (p : Pending) : Bool := p.binary.isNone && p.signs.isEmpty

/-- An operand with the waiting signs applied, the one next to it first. -/
def applySigns (p : Pending) (operand : Operand) : Operand := p.signs.foldl Operand.signed operand

/-- The operand built so far, joined with the next one. Nothing waits afterwards. -/
def combine (p : Pending) (current : Option Operand) (operand : Operand) : Except Problem Operand :=
  match current, p.binary with
  | none, none => .ok (p.applySigns operand)
  | some left, some op => .ok (left.extend op (p.applySigns operand))
  | some _, none => .error .missingOperatorBetween
  | none, some _ => .error .pendingWithoutLeft

/-- What is missing when no operand is to come. -/
def missing? (p : Pending) : Option Problem :=
  match p.binary, p.signs with
  | some op, _ => some (.missingMathRight op)
  | none, op :: _ => some (.missingSigned op)
  | none, [] => none

/-- Takes in an arithmetic operator: a sign where an operand is to come, a binary operator after
one. -/
def push (p : Pending) (expectsOperand : Bool) (op : Operator) : Except Problem Pending :=
  if expectsOperand then
    match op with
    | .sub => .ok { p with signs := .neg :: p.signs }
    | .bitNot => .ok { p with signs := .bitNot :: p.signs }
    | _ => .error (if p.binary.isSome then .consecutiveOperators op else .missingMathLeft op)
  else if p.signs ≠ [] then .error .danglingSign
  else
    match BinaryOp.ofOperator? op with
    | some binary => .ok { p with binary := some binary }
    | none => .error (.signBetween op)

end Pending

end GuardedFlow
