import GuardedFlow.Condition.Basic
import GuardedFlow.Operand.Apply

/-!
# Folding constants

`Operand.fold` replaces every operator and every well-formed call whose operands are constant by its
value, from the leaves up. What cannot be computed stays as it is: lists are folded inside, and a
call that is wrong is left for the compiler to report. `Condition.fold` folds every operand of a
condition and keeps its shape.
-/

namespace GuardedFlow

namespace Operand

/-- The value of an operand that is written out. -/
def constant? : Operand → Option Value
  | literal v => some v
  | null => some .null
  | _ => none

/-- The operand that writes out a value. -/
def ofConstant : Value → Operand
  | .null => null
  | v => literal v

/-- A binary operator on folded operands. -/
def foldBinary (left : Operand) (op : BinaryOp) (right : Operand) : Operand :=
  match left.constant?, right.constant? with
  | some l, some r => ofConstant (op.apply l r)
  | _, _ => binary left op right

/-- A sign on a folded operand. -/
def foldUnary (op : UnaryOp) (operand : Operand) : Operand :=
  match operand.constant? with
  | some v => ofConstant (op.apply v)
  | none => unary op operand

/-- A call on folded arguments. -/
def foldCall (name : String) (args : List Operand) : Operand :=
  match Builtin.ofName? name, args.map constant? with
  | some f, [some v] => ofConstant (f.apply v)
  | _, _ => call name args

mutual

/-- An operand with its constant parts computed. -/
def fold : Operand → Operand
  | var name => var name
  | literal v => literal v
  | null => null
  | binary left op right => foldBinary left.fold op right.fold
  | unary op operand => foldUnary op operand.fold
  | call name args => foldCall name (foldAll args)
  | list items => list (foldAll items)
termination_by structural o => o

def foldAll : List Operand → List Operand
  | [] => []
  | o :: rest => o.fold :: foldAll rest
termination_by structural l => l

end

end Operand

namespace Condition

mutual

/-- A condition with the constant parts of its operands computed. -/
def fold : Condition → Condition
  | group children closed => group (foldAll children) closed
  | logical op left right closed => logical op (foldSide left) (foldSide right) closed
  | comparison left op right => comparison left.fold op (right.map Operand.fold)
  | set left op values closed => set left.fold op (Operand.foldAll values) closed
termination_by structural c => c

def foldAll : List Condition → List Condition
  | [] => []
  | c :: rest => c.fold :: foldAll rest
termination_by structural l => l

def foldSide : Option Condition → Option Condition
  | none => none
  | some c => some c.fold
termination_by structural o => o

end

end Condition

end GuardedFlow
