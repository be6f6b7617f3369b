import GuardedFlow.Condition.Parse
import GuardedFlow.Field.Resolver
import GuardedFlow.Operand.Fold
import GuardedFlow.Predicate.Basic
import GuardedFlow.Value.Compare

/-!
# Compiling conditions

A condition is checked, optionally folded, and turned into a test for the records of a resolver.
Fields and functions are looked up once; the test itself only reads and compares. Variables may be
qualified by the name that the expression uses for the record (its *scope*).
-/

namespace GuardedFlow

/-- Why a condition cannot be compiled. -/
inductive CompileFault where
  | defect (d : Condition.Defect)
  | unknownField (name entity : String)
  | unknownFunction (name : String)
  | wrongArity (name : String) (expected given : Nat)
  | emptyGroup
  | missingOperand (op : Connective)
  | noOperator
  | noRightSide (left : Operand)
  | noBounds (left : Operand)
deriving Repr

def CompileFault.detail : CompileFault → String
  | defect d => d.detail
  | unknownField name entity => "unknown field '" ++ name ++ "' for entity " ++ entity
  | unknownFunction name => "unknown function '" ++ name ++ "'"
  | wrongArity name expected given =>
    "function '" ++ name ++ "' takes " ++ toString expected ++ " argument(s), got " ++
      toString given
  | emptyGroup => "Group has no conditions"
  | missingOperand .and => "And condition is missing an operand"
  | missingOperand .or => "Or condition is missing an operand"
  | noOperator => "comparison has no operator"
  | noRightSide left => "comparison on " ++ left.text ++ " has no right operand"
  | noBounds left => "range on " ++ left.text ++ " needs two bounds"

/-- Why an expression cannot be made a predicate. -/
inductive CompileError where
  | expression (e : SyntaxError)
  | invalid (fault : CompileFault)
  | other (detail : String)
deriving Repr

def CompileError.message : CompileError → String
  | expression e => e.message
  | invalid fault => "Validation error: " ++ fault.detail
  | other detail => "Validation error: " ++ detail

/-- The path of a variable relative to the record: without the scope and its dot, and empty for the
scope itself. -/
def fieldPath (scope name : String) : String :=
  if scope.isEmpty then name
  else if name = scope then ""
  else if (scope.toList ++ ['.']).isPrefixOf name.toList then
    String.ofList (name.toList.drop (scope.length + 1))
  else name

variable {α : Type}

namespace Operand

/-- The function of a call, which must exist and take as many arguments as there are. -/
def callee (name : String) (arity : Nat) : Except CompileFault Builtin :=
  match Builtin.ofName? name with
  | none => .error (.unknownFunction name)
  | some f => if arity = 1 then .ok f else .error (.wrongArity name 1 arity)

/-- The value of a function on a list of arguments, of which it takes the only one. -/
def applyCall (f : Builtin) : List Value → Value
  | [v] => f.apply v
  | _ => .null

mutual

/-- The value of an operand as a function of the record. A list whose items are all written out is
put together once. -/
def compile (r : Resolver α) (scope : String) : Operand → Except CompileFault (α → Value)
  | var name =>
    match r.resolve (fieldPath scope name) with
    | some read => .ok read
    | none => .error (.unknownField name r.entity)
  | literal v => .ok fun _ => v
  | null => .ok fun _ => .null
  | binary left op right => do
    let l ← left.compile r scope
    let r ← right.compile r scope
    return fun item => op.apply (l item) (r item)
  | unary op operand => do
    let v ← operand.compile r scope
    return fun item => op.apply (v item)
  | call name args => do
    let f ← callee name args.length
    let values ← compileAll r scope args
    return fun item => applyCall f (values item)
  | list items =>
    match items.mapM constant? with
    | some values => .ok fun _ => .array values
    | none => do
      let values ← compileAll r scope items
      return fun item => .array (values item)
termination_by structural o => o

def compileAll (r : Resolver α) (scope : String) :
    List Operand → Except CompileFault (α → List Value)
  | [] => .ok fun _ => []
  | o :: rest => do
    let first ← o.compile r scope
    let others ← compileAll r scope rest
    return fun item => first item :: others item
termination_by structural l => l

end

end Operand

/-- Whether a comparison holds between two values. -/
def Comparator.holds (op : Comparator) (l r : Value) : Bool :=
  match op with
  | .eq => l.looseEquals r
  | .ne => !l.looseEquals r
  | .gt => (l.looseOrder r).any Ordering.isGT
  | .ge => (l.looseOrder r).any Ordering.isGE
  | .lt => (l.looseOrder r).any Ordering.isLT
  | .le => (l.looseOrder r).any Ordering.isLE
  | .isNull => l.isNull
  | .notNull => !l.isNull

namespace Condition

/-- The test of a comparison. -/
def compileComparison (r : Resolver α) (scope : String) (left : Operand) (op : Option Comparator)
    (right : Option Operand) : Except CompileFault (α → Bool) :=
  match op with
  | none => .error .noOperator
  | some op => do
    let l ← left.compile r scope
    if op.isUnary then return fun item => op.holds (l item) .null
    else
      match right with
      | none => .error (.noRightSide left)
      | some right => do
        let v ← right.compile r scope
        return fun item => op.holds (l item) (v item)

/-- The test of a set comparison. A range uses its first two values and ignores others. -/
def compileSet (r : Resolver α) (scope : String) (left : Operand) (op : SetOperator)
    (values : List Operand) : Except CompileFault (α → Bool) := do
  let l ← left.compile r scope
  if op.isRange then
    match values with
    | low :: high :: _ => do
      let low ← low.compile r scope
      let high ← high.compile r scope
      return fun item => (l item).within (low item) (high item) != op.isNegated
    | _ => .error (.noBounds left)
  else do
    let candidates ← (Operand.list values).compile r scope
    return fun item => (l item).isAmong (candidates item) != op.isNegated

mutual

/-- The test of a condition. -/
def compile (r : Resolver α) (scope : String) : Condition → Except CompileFault (α → Bool)
  | group children _ => do
    let tests ← compileChildren r scope children
    if children.isEmpty then .error .emptyGroup else return tests
  | logical op left right _ =>
    match left, right with
    | some left, some right => do
      let l ← left.compile r scope
      let r ← right.compile r scope
      match op with
      | .and => return fun item => l item && r item
      | .or => return fun item => l item || r item
    | _, _ => .error (.missingOperand op)
  | comparison left op right => compileComparison r scope left op right
  | set left op values _ => compileSet r scope left op values
termination_by structural c => c

/-- The test that all conditions hold. -/
def compileChildren (r : Resolver α) (scope : String) :
    List Condition → Except CompileFault (α → Bool)
  | [] => .ok fun _ => true
  | c :: rest => do
    let first ← c.compile r scope
    let others ← compileChildren r scope rest
    return fun item => first item && others item
termination_by structural l => l

end

end Condition

namespace Predicate

/-- The predicate of a condition, with the given source text. -/
def generate (r : Resolver α) (scope : String) (folding : Bool) (c : Condition) (source : String) :
    Except CompileError (Predicate α) :=
  match c.treeDefect? with
  | some d => .error (.invalid (.defect d))
  | none =>
    match (if folding then c.fold else c).compile r scope with
    | .ok test => .ok ⟨source, test⟩
    | .error fault => .error (.invalid fault)

/-- The predicate of a condition. -/
def ofCondition (r : Resolver α) (scope : String) (folding : Bool) (c : Condition) :
    Except CompileError (Predicate α) :=
  generate r scope folding c c.text

/-- The predicate of an expression. -/
def ofText (r : Resolver α) (scope : String) (folding : Bool) (text : String) :
    Except CompileError (Predicate α) :=
  match Condition.parse text with
  | .ok c => generate r scope folding c (Text.trim text)
  | .error e => .error (.expression e)

end Predicate

end GuardedFlow
