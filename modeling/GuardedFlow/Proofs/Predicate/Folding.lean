import GuardedFlow.Predicate.Compile
import GuardedFlow.Proofs.Condition.Defect
import GuardedFlow.Proofs.Operand.Folded

/-!
# Folding keeps the compiled test

Constants are computed in two ways: once, when an operand is folded, or each time, by the function
that an operand compiles to. `Operand.compile_fold`: both give the same function, or the same fault,
for every operand. For conditions this needs that the check has passed (`Condition.compile_fold`):
the messages of a missing right side and of missing bounds show the operand, and would show it
folded; `Condition.treeDefect?` reports both first.

`Predicate.generate_folding` puts the two together: whether a condition is folded is seen neither in
the predicate nor in the error.
-/

namespace GuardedFlow

variable {α : Type} (r : Resolver α) (scope : String)

/-! ## Operands -/

namespace Operand

/-- An operand that is written out compiles to its value. -/
theorem compile_of_constant {o : Operand} {v : Value} (h : o.constant? = some v) :
    o.compile r scope = .ok fun _ => v := by
  cases o with
  | literal w => obtain rfl : w = v := Option.some.inj h; rfl
  | null => obtain rfl : Value.null = v := Option.some.inj h; rfl
  | _ => exact absurd h (by simp [constant?])

theorem compile_ofConstant (v : Value) : (ofConstant v).compile r scope = .ok fun _ => v := by
  cases v <;> rfl

/-- A list of operands that are all written out compiles to their values. -/
theorem compileAll_of_constants {items : List Operand} {values : List Value}
    (h : items.mapM constant? = some values) : compileAll r scope items = .ok fun _ => values := by
  induction items generalizing values with
  | nil => obtain rfl : [] = values := Option.some.inj h; rfl
  | cons o rest ih =>
    simp only [List.mapM_cons, Option.bind_eq_bind, Option.bind_eq_some_iff] at h
    obtain ⟨v, hv, vs, hvs, hcons⟩ := h
    obtain rfl : v :: vs = values := Option.some.inj hcons
    rw [compileAll, compile_of_constant r scope hv, ih hvs]
    rfl

/-- Putting a list together once is the same as putting it together for each record. -/
theorem compile_list (items : List Operand) : (list items).compile r scope =
    (compileAll r scope items).map fun values item => .array (values item) := by
  rw [compile]
  cases h : items.mapM constant? with
  | some values => rw [compileAll_of_constants r scope h]; rfl
  | none => cases compileAll r scope items <;> rfl

theorem compile_foldBinary (left : Operand) (op : BinaryOp) (right : Operand) :
    (foldBinary left op right).compile r scope = (binary left op right).compile r scope := by
  unfold foldBinary
  split
  · next l v hl hv =>
    rw [compile_ofConstant, compile, compile_of_constant r scope hl, compile_of_constant r scope hv]
    rfl
  · rfl

theorem compile_foldUnary (op : UnaryOp) (operand : Operand) :
    (foldUnary op operand).compile r scope = (unary op operand).compile r scope := by
  unfold foldUnary
  split
  · next v hv =>
    rw [compile_ofConstant, compile, compile_of_constant r scope hv]
    rfl
  · rfl

/-- Only a call of a function that exists, with one argument, is computed: it compiles without a
fault. -/
theorem compile_foldCall (name : String) (args : List Operand) :
    (foldCall name args).compile r scope = (call name args).compile r scope := by
  unfold foldCall
  split
  · next f v hf hv =>
    obtain ⟨arg, rfl, harg⟩ := eq_singleton_of_constants hv
    have hcallee : callee name [arg].length = .ok f := by simp [callee, hf]
    have hargs : compileAll r scope [arg] = .ok fun _ => [v] := by
      rw [compileAll, compile_of_constant r scope harg]
      rfl
    rw [compile_ofConstant, compile, hcallee, hargs]
    rfl
  · rfl

@[simp] theorem length_foldAll (l : List Operand) : (foldAll l).length = l.length := by
  rw [foldAll_eq, List.length_map]

mutual

/-- **Operands.** A folded operand compiles to the same function, or has the same fault. -/
theorem compile_fold : ∀ o : Operand, o.fold.compile r scope = o.compile r scope
  | var _ => rfl
  | literal _ => rfl
  | null => rfl
  | binary left op right => by
    rw [fold, compile_foldBinary, compile, compile, compile_fold left, compile_fold right]
  | unary op operand => by
    rw [fold, compile_foldUnary, compile, compile, compile_fold operand]
  | call name args => by
    rw [fold, compile_foldCall, compile, compile, length_foldAll, compileAll_foldAll args]
  | list items => by
    rw [fold, compile_list, compile_list, compileAll_foldAll items]

theorem compileAll_foldAll :
    ∀ l : List Operand, compileAll r scope (foldAll l) = compileAll r scope l
  | [] => rfl
  | o :: rest => by
    rw [foldAll, compileAll, compileAll, compile_fold o, compileAll_foldAll rest]

end

end Operand

/-! ## Conditions -/

namespace Condition

/-- Without a defect the compiler never misses a right side, so no message shows the left side. -/
theorem compileComparison_fold {left : Operand} {op : Option Comparator} {right : Option Operand}
    (h : comparisonDefect? left op right = none) :
    compileComparison r scope left.fold op (right.map Operand.fold) =
      compileComparison r scope left op right := by
  cases op with
  | none => rfl
  | some o =>
    cases right with
    | some right =>
      simp only [compileComparison, Option.map_some, Operand.compile_fold]
    | none =>
      have hunary : o.isUnary = true := (comparisonDefect?_eq_none_iff.1 h).2.1 rfl
      simp only [compileComparison, Operand.compile_fold, hunary, ↓reduceIte]

/-- Without a defect a range has its two bounds. -/
theorem compileSet_fold {left : Operand} {op : SetOperator} {values : List Operand}
    (h : setDefect? left op values = none) :
    compileSet r scope left.fold op (Operand.foldAll values) =
      compileSet r scope left op values := by
  unfold compileSet
  rw [Operand.compile_fold, Operand.compile_list, Operand.compile_list, Operand.compileAll_foldAll]
  cases hrange : op.isRange with
  | false => rfl
  | true =>
    -- with fewer values there is a fault that shows the left side, but then there is a defect too
    match values, (setDefect?_eq_none_iff.1 h).2.2 hrange with
    | low :: high :: _, _ => simp only [Operand.foldAll, Operand.compile_fold]

theorem isEmpty_foldAll (children : List Condition) :
    (foldAll children).isEmpty = children.isEmpty := by
  cases children <;> rfl

mutual

/-- **Conditions.** A condition without a defect compiles to the same test, or has the same fault,
folded and not folded. -/
theorem compile_fold : ∀ c : Condition, c.treeDefect? = none →
    c.fold.compile r scope = c.compile r scope
  | group children closed, h => by
    obtain ⟨-, -, hchildren⟩ := treeDefect?_group_eq_none_iff.1 h
    rw [fold, compile, compile, compileChildren_foldAll children hchildren, isEmpty_foldAll]
  | logical op left right closed, h => by
    match left, right, treeDefect?_logical_eq_none_iff.1 h with
    | some left, some right, ⟨_, _, _, rfl, rfl, hleft, hright⟩ =>
      rw [fold, foldSide, foldSide, compile, compile, compile_fold left hleft,
        compile_fold right hright]
  | comparison left op right, h => compileComparison_fold r scope h
  | set left op values closed, h => compileSet_fold r scope (treeDefect?_set_eq_none_iff.1 h).2

theorem compileChildren_foldAll : ∀ l : List Condition, childrenDefect? l = none →
    compileChildren r scope (foldAll l) = compileChildren r scope l
  | [], _ => rfl
  | c :: rest, h => by
    obtain ⟨hc, hrest⟩ := Option.or_eq_none_iff.1 h
    rw [foldAll, compileChildren, compileChildren, compile_fold c hc,
      compileChildren_foldAll rest hrest]

end

end Condition

/-! ## Predicates -/

namespace Predicate

/-- Whether constants are folded is seen neither in the predicate nor in the error. -/
theorem generate_folding (c : Condition) (source : String) :
    generate r scope true c source = generate r scope false c source := by
  unfold generate
  cases h : c.treeDefect? with
  | some d => rfl
  | none => simp only [↓reduceIte, Bool.false_eq_true, Condition.compile_fold r scope c h]

/-- **Folding is transparent.** For every condition, complete or not, compiling with and without
folding fails with one error, or gives two predicates of one source that agree on every record. -/
theorem folding_transparent (c : Condition) (source : String) :
    (∃ e, generate r scope true c source = .error e ∧ generate r scope false c source = .error e) ∨
    ∃ folded plain, generate r scope true c source = .ok folded ∧
      generate r scope false c source = .ok plain ∧ folded.source = plain.source ∧
      ∀ item, folded.test item = plain.test item := by
  rw [generate_folding]
  cases h : generate r scope false c source with
  | error e => exact Or.inl ⟨e, rfl, rfl⟩
  | ok p => exact Or.inr ⟨p, p, rfl, rfl, rfl, fun _ => rfl⟩

end Predicate

end GuardedFlow
