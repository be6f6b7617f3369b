import GuardedFlow.Proofs.Predicate.Folding
import GuardedFlow.Proofs.Result

/-!
# Evaluating without compiling

A function takes the first of its arguments, and only the check of their number, when a call is
compiled or folded, sees to it that there is one. Here nothing is checked before: the value of an
operand (`Operand.eval?`) and the verdict of a condition (`Condition.holds?`) are found on the
record itself, and there is none if anything is missing on the way, an argument included. What is
compiled misses nothing (`Condition.holds?_of_compile`), and neither does what is folded
(`Condition.fold?_eq`).
-/

namespace GuardedFlow

variable {α : Type}

/-- A function on the first of its arguments. -/
def Builtin.first? (f : Builtin) (args : List Value) : Option Value := args[0]?.map f.apply

theorem Builtin.first?_of_length {f : Builtin} {values : List Value} (h : values.length = 1) :
    f.first? values = some (Operand.applyCall f values) := by
  obtain ⟨v, rfl⟩ := List.length_eq_one_iff.1 h
  rfl

/-! ## Operands -/

namespace Operand

mutual

/-- The value of an operand on a record. -/
def eval? (r : Resolver α) (scope : String) (item : α) : Operand → Option Value
  | var name => (r.resolve (fieldPath scope name)).map fun read => read item
  | literal v => some v
  | null => some .null
  | binary left op right => do
    let l ← left.eval? r scope item
    let v ← right.eval? r scope item
    return op.apply l v
  | unary op operand => do
    let v ← operand.eval? r scope item
    return op.apply v
  | call name args => do
    let f ← Builtin.ofName? name
    let values ← evalAll? r scope item args
    f.first? values
  | list items => do
    let values ← evalAll? r scope item items
    return .array values
termination_by structural o => o

def evalAll? (r : Resolver α) (scope : String) (item : α) : List Operand → Option (List Value)
  | [] => some []
  | o :: rest => do
    let first ← o.eval? r scope item
    let others ← evalAll? r scope item rest
    return first :: others
termination_by structural l => l

end

/-- A call on folded arguments, whose value is that of the function on the first of them. -/
def foldCall? (name : String) (args : List Operand) : Option Operand :=
  match args.mapM constant?, callee name args.length with
  | some values, .ok f => (f.first? values).map ofConstant
  | _, _ => some (call name args)

mutual

/-- An operand with its constant parts computed, if every function finds an argument. -/
def fold? : Operand → Option Operand
  | var name => some (var name)
  | literal v => some (literal v)
  | null => some null
  | binary left op right => do
    let left ← left.fold?
    let right ← right.fold?
    return foldBinary left op right
  | unary op operand => do
    let operand ← operand.fold?
    return foldUnary op operand
  | call name args => do
    let args ← foldAll? args
    foldCall? name args
  | list items => do
    let items ← foldAll? items
    return list items
termination_by structural o => o

def foldAll? : List Operand → Option (List Operand)
  | [] => some []
  | o :: rest => do
    let first ← o.fold?
    let others ← foldAll? rest
    return first :: others
termination_by structural l => l

end

variable {r : Resolver α} {scope : String}

theorem callee_eq_ok {name : String} {arity : Nat} {f : Builtin} :
    callee name arity = .ok f ↔ Builtin.ofName? name = some f ∧ arity = 1 := by
  unfold callee
  cases Builtin.ofName? name with
  | none => simp
  | some g => by_cases h : arity = 1 <;> simp [h]

mutual

/-- What an operand is compiled to gives its value on every record. -/
theorem eval?_of_compile : ∀ (o : Operand) {f : α → Value}, o.compile r scope = .ok f →
    ∀ item, o.eval? r scope item = some (f item)
  | var name, f, h, item => by
    rw [compile] at h
    rw [eval?]
    cases hread : r.resolve (fieldPath scope name) with
    | none => rw [hread] at h; cases h
    | some read => rw [hread] at h; cases h; rfl
  | literal v, _, h, item => by cases h; rfl
  | null, _, h, item => by cases h; rfl
  | binary left op right, _, h, item => by
    obtain ⟨l, hl, h⟩ := bind_eq_ok.1 h
    obtain ⟨v, hv, h⟩ := bind_eq_ok.1 h
    cases h
    rw [eval?, eval?_of_compile left hl item, eval?_of_compile right hv item]
    rfl
  | unary op operand, _, h, item => by
    obtain ⟨v, hv, h⟩ := bind_eq_ok.1 h
    cases h
    rw [eval?, eval?_of_compile operand hv item]
    rfl
  | call name args, _, h, item => by
    obtain ⟨f, hf, h⟩ := bind_eq_ok.1 h
    obtain ⟨values, hvalues, h⟩ := bind_eq_ok.1 h
    cases h
    obtain ⟨hname, harity⟩ := callee_eq_ok.1 hf
    obtain ⟨heval, hlength⟩ := evalAll?_of_compile args hvalues item
    rw [eval?, hname, heval]
    exact Builtin.first?_of_length (hlength.trans harity)
  | list items, _, h, item => by
    rw [compile_list] at h
    obtain ⟨values, hvalues, rfl⟩ := map_eq_ok.1 h
    rw [eval?, (evalAll?_of_compile items hvalues item).1]
    rfl

theorem evalAll?_of_compile :
    ∀ (l : List Operand) {values : α → List Value}, compileAll r scope l = .ok values →
    ∀ item, evalAll? r scope item l = some (values item) ∧ (values item).length = l.length
  | [], _, h, item => by cases h; exact ⟨rfl, rfl⟩
  | o :: rest, _, h, item => by
    obtain ⟨first, hfirst, h⟩ := bind_eq_ok.1 h
    obtain ⟨others, hothers, h⟩ := bind_eq_ok.1 h
    cases h
    obtain ⟨heval, hlength⟩ := evalAll?_of_compile rest hothers item
    rw [evalAll?, eval?_of_compile o hfirst item, heval]
    exact ⟨rfl, congrArg (· + 1) hlength⟩

end

/-- A call is folded only if there is one argument. -/
theorem foldCall?_eq (name : String) (args : List Operand) :
    foldCall? name args = some (foldCall name args) := by
  have hcallee : ∀ n, n ≠ 1 → ∃ e, callee name n = .error e := fun n hn => by
    cases h : callee name n with
    | error e => exact ⟨e, rfl⟩
    | ok f => exact absurd (callee_eq_ok.1 h).2 hn
  unfold foldCall? foldCall
  match args with
  | [arg] =>
    cases hname : Builtin.ofName? name <;> cases harg :
      arg.constant? <;> simp [callee, hname, harg, Builtin.first?]
  | [] =>
    obtain ⟨e, he⟩ := hcallee 0 (by decide)
    simp [he]
  | a :: b :: rest =>
    obtain ⟨e, he⟩ := hcallee (a :: b :: rest).length (by simp)
    rw [he]
    simp

mutual

/-- Folding an operand never misses an argument. -/
theorem fold?_eq : ∀ o : Operand, o.fold? = some o.fold
  | var _ => rfl
  | literal _ => rfl
  | null => rfl
  | binary left op right => by
    rw [fold?, fold?_eq left, fold?_eq right]
    rfl
  | unary op operand => by
    rw [fold?, fold?_eq operand]
    rfl
  | call name args => by
    rw [fold?, foldAll?_eq args]
    exact foldCall?_eq name (foldAll args)
  | list items => by
    rw [fold?, foldAll?_eq items]
    rfl

theorem foldAll?_eq : ∀ l : List Operand, foldAll? l = some (foldAll l)
  | [] => rfl
  | o :: rest => by
    rw [foldAll?, fold?_eq o, foldAll?_eq rest]
    rfl

end

end Operand

/-! ## Conditions -/

namespace Condition

/-- Whether a comparison holds on a record. -/
def comparisonHolds? (r : Resolver α) (scope : String) (item : α) (left : Operand)
    (op : Option Comparator) (right : Option Operand) : Option Bool := do
  let op ← op
  let l ← left.eval? r scope item
  if op.isUnary then return op.holds l .null
  else do
    let right ← right
    let v ← right.eval? r scope item
    return op.holds l v

/-- Whether a set test holds on a record. -/
def setHolds? (r : Resolver α) (scope : String) (item : α) (left : Operand) (op : SetOperator)
    (values : List Operand) :
    Option Bool := do
  let l ← left.eval? r scope item
  if op.isRange then
    match values with
    | low :: high :: _ => do
      let low ← low.eval? r scope item
      let high ← high.eval? r scope item
      return l.within low high != op.isNegated
    | _ => none
  else do
    let candidates ← (Operand.list values).eval? r scope item
    return l.isAmong candidates != op.isNegated

mutual

/-- Whether a condition holds on a record. All of its parts are evaluated. -/
def holds? (r : Resolver α) (scope : String) (item : α) : Condition → Option Bool
  | group children _ => allHold? r scope item children
  | logical op left right _ => do
    let l ← sideHolds? r scope item left
    let v ← sideHolds? r scope item right
    return match op with
      | .and => l && v
      | .or => l || v
  | comparison left op right => comparisonHolds? r scope item left op right
  | set left op values _ => setHolds? r scope item left op values
termination_by structural c => c

def allHold? (r : Resolver α) (scope : String) (item : α) : List Condition → Option Bool
  | [] => some true
  | c :: rest => do
    let first ← c.holds? r scope item
    let others ← allHold? r scope item rest
    return first && others
termination_by structural l => l

def sideHolds? (r : Resolver α) (scope : String) (item : α) : Option Condition → Option Bool
  | none => none
  | some c => c.holds? r scope item
termination_by structural o => o

end

mutual

/-- A condition with the constant parts of its operands computed, if every function finds an
argument. -/
def fold? : Condition → Option Condition
  | group children closed => do
    let children ← foldAll? children
    return group children closed
  | logical op left right closed => do
    let left ← foldSide? left
    let right ← foldSide? right
    return logical op left right closed
  | comparison left op right => do
    let left ← left.fold?
    let right ← right.mapM Operand.fold?
    return comparison left op right
  | set left op values closed => do
    let left ← left.fold?
    let values ← Operand.foldAll? values
    return set left op values closed
termination_by structural c => c

def foldAll? : List Condition → Option (List Condition)
  | [] => some []
  | c :: rest => do
    let first ← c.fold?
    let others ← foldAll? rest
    return first :: others
termination_by structural l => l

def foldSide? : Option Condition → Option (Option Condition)
  | none => some none
  | some c => do
    let c ← c.fold?
    return some c
termination_by structural o => o

end

variable {r : Resolver α} {scope : String}

theorem comparisonHolds?_of_compile {left : Operand} {op : Option Comparator}
    {right : Option Operand} {test : α → Bool}
    (h : compileComparison r scope left op right = .ok test) (item : α) :
    comparisonHolds? r scope item left op right = some (test item) := by
  unfold compileComparison at h
  unfold comparisonHolds?
  cases op with
  | none => cases h
  | some op =>
    obtain ⟨l, hl, h⟩ := bind_eq_ok.1 h
    have hleft := Operand.eval?_of_compile left hl item
    cases hunary : op.isUnary with
    | true =>
      simp only [hunary, ↓reduceIte] at h
      cases h
      simp [hleft, hunary]
    | false =>
      simp only [hunary, Bool.false_eq_true, ↓reduceIte] at h
      cases right with
      | none => cases h
      | some right =>
        obtain ⟨v, hv, h⟩ := bind_eq_ok.1 h
        cases h
        simp [hleft, hunary, Operand.eval?_of_compile right hv item]

theorem setHolds?_of_compile {left : Operand} {op : SetOperator} {values : List Operand}
    {test : α → Bool} (h : compileSet r scope left op values = .ok test) (item : α) :
    setHolds? r scope item left op values = some (test item) := by
  unfold compileSet at h
  unfold setHolds?
  obtain ⟨l, hl, h⟩ := bind_eq_ok.1 h
  have hleft := Operand.eval?_of_compile left hl item
  cases hrange : op.isRange with
  | true =>
    simp only [hrange, ↓reduceIte] at h
    match values, h with
    | low :: high :: _, h =>
      obtain ⟨lo, hlo, h⟩ := bind_eq_ok.1 h
      obtain ⟨hi, hhi, h⟩ := bind_eq_ok.1 h
      cases h
      simp [hleft, Operand.eval?_of_compile low hlo item, Operand.eval?_of_compile high hhi item]
    | [_], h => cases h
    | [], h => cases h
  | false =>
    simp only [hrange, Bool.false_eq_true, ↓reduceIte] at h
    obtain ⟨candidates, hcandidates, h⟩ := bind_eq_ok.1 h
    cases h
    simp [hleft, Operand.eval?_of_compile _ hcandidates item]

mutual

/-- **Nothing is missing.** The test that a condition is compiled to says on every record whether
the condition holds there. -/
theorem holds?_of_compile : ∀ (c : Condition) {test : α → Bool}, c.compile r scope = .ok test →
    ∀ item, c.holds? r scope item = some (test item)
  | group children _, _, h, item => by
    obtain ⟨tests, htests, h⟩ := bind_eq_ok.1 h
    split at h
    · cases h
    · cases h
      exact allHold?_of_compile children htests item
  | logical op left right _, _, h, item => by
    match left, right, h with
    | none, _, h => cases h
    | some _, none, h => cases h
    | some left, some right, h =>
      obtain ⟨l, hl, h⟩ := bind_eq_ok.1 h
      obtain ⟨v, hv, h⟩ := bind_eq_ok.1 h
      rw [holds?, sideHolds?, sideHolds?, holds?_of_compile left hl item,
        holds?_of_compile right hv item]
      cases op <;> cases h <;> rfl
  | comparison _ _ _, _, h, item => comparisonHolds?_of_compile h item
  | set _ _ _ _, _, h, item => setHolds?_of_compile h item

theorem allHold?_of_compile :
    ∀ (l : List Condition) {tests : α → Bool}, compileChildren r scope l = .ok tests →
    ∀ item, allHold? r scope item l = some (tests item)
  | [], _, h, item => by cases h; rfl
  | c :: rest, _, h, item => by
    obtain ⟨first, hfirst, h⟩ := bind_eq_ok.1 h
    obtain ⟨others, hothers, h⟩ := bind_eq_ok.1 h
    cases h
    rw [allHold?, holds?_of_compile c hfirst item, allHold?_of_compile rest hothers item]
    rfl

end

mutual

/-- Folding a condition never misses an argument. -/
theorem fold?_eq : ∀ c : Condition, c.fold? = some c.fold
  | group children closed => by
    rw [fold?, foldAll?_eq children]
    rfl
  | logical op left right closed => by
    rw [fold?, foldSide?_eq left, foldSide?_eq right]
    rfl
  | comparison left op right => by
    have hright : right.mapM Operand.fold? = some (right.map Operand.fold) := by
      cases right with
      | none => rfl
      | some right => simp [Operand.fold?_eq]
    rw [fold?, Operand.fold?_eq, hright]
    rfl
  | set left op values closed => by
    rw [fold?, Operand.fold?_eq, Operand.foldAll?_eq]
    rfl

theorem foldAll?_eq : ∀ l : List Condition, foldAll? l = some (foldAll l)
  | [] => rfl
  | c :: rest => by
    rw [foldAll?, fold?_eq c, foldAll?_eq rest]
    rfl

theorem foldSide?_eq : ∀ o : Option Condition, foldSide? o = some (foldSide o)
  | none => rfl
  | some c => by
    rw [foldSide?, fold?_eq c]
    rfl

end

end Condition

end GuardedFlow
