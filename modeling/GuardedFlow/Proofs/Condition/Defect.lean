import GuardedFlow.Condition.Defect

/-!
# What a condition without defects has

For each node: when the check finds nothing wrong with it or with anything below it
(`Condition.treeDefect?`).
-/

namespace GuardedFlow

namespace SetOperator

theorem ofFlags_false (negated : Bool) :
    ofFlags negated false = if negated then notMember else member := by
  cases negated <;> rfl

theorem ofFlags_true (negated : Bool) :
    ofFlags negated true = if negated then notInRange else inRange := by
  cases negated <;> rfl

@[simp]
theorem isRange_ofFlags (negated range : Bool) : (ofFlags negated range).isRange = range := by
  cases negated <;> cases range <;> rfl

@[simp]
theorem isNegated_ofFlags (negated range : Bool) : (ofFlags negated range).isNegated = negated := by
  cases negated <;> cases range <;> rfl

theorem delimiters_ofFlags (negated range : Bool) : (ofFlags negated range).delimiters =
    if range then (.openBracket, .closeBracket) else (.openBrace, .closeBrace) := by
  rw [delimiters, isRange_ofFlags]

end SetOperator

namespace Condition

theorem setDefect?_eq_none_iff {left : Operand} {op : SetOperator} {values : List Operand} :
    setDefect? left op values = none ↔
      left.isVariable = true ∧ values ≠ [] ∧ (op.isRange = true → 2 ≤ values.length) := by
  unfold setDefect?
  cases left.isVariable with
  | false => simp
  | true =>
    cases values with
    | nil => simp
    | cons v rest =>
      cases op.isRange with
      | false => simp
      | true => cases rest <;> simp

/-- What a set test needs does not depend on whether it is negated. -/
theorem setDefect?_ofFlags (negated range : Bool) (left : Operand) (values : List Operand) :
    setDefect? left (.ofFlags negated range) values =
      setDefect? left (.ofFlags false range) values := by
  simp only [setDefect?, SetOperator.isRange_ofFlags]

theorem comparisonDefect?_eq_none_iff {left : Operand} {op : Comparator} {right : Option Operand} :
    comparisonDefect? left (some op) right = none ↔
      left.mentionsVariable = true ∧ (right = none ↔ op.isUnary = true) := by
  unfold comparisonDefect?
  cases left.mentionsVariable with
  | false => simp
  | true => cases op <;> cases right <;> simp [Comparator.isUnary]

theorem treeDefect?_group_eq_none_iff {children : List Condition} {closed : Bool} :
    (group children closed).treeDefect? = none ↔ children ≠ [] ∧ closed = true ∧
    childrenDefect? children = none := by
  rw [treeDefect?, defect?, Option.or_eq_none_iff]
  cases closed <;> cases children <;> simp

theorem treeDefect?_logical_eq_none_iff {op : Connective} {left right : Option Condition}
    {closed : Bool} :
    (logical op left right closed).treeDefect? = none ↔ closed = true ∧
      ∃ l r, left = some l ∧ right = some r ∧ l.treeDefect? = none ∧ r.treeDefect? = none := by
  rw [treeDefect?, defect?, Option.or_eq_none_iff]
  cases closed <;> cases left <;> cases right <;> simp [sideDefect?]

theorem treeDefect?_comparison_eq_none_iff {left : Operand} {op : Comparator}
    {right : Option Operand} :
    (comparison left (some op) right).treeDefect? = none ↔
      left.mentionsVariable = true ∧ (right = none ↔ op.isUnary = true) := by
  rw [treeDefect?, defect?, comparisonDefect?_eq_none_iff]

theorem treeDefect?_set_eq_none_iff {left : Operand} {op : SetOperator} {values : List Operand}
    {closed : Bool} :
    (set left op values closed).treeDefect? = none ↔
      closed = true ∧ setDefect? left op values = none := by
  rw [treeDefect?, defect?, Option.or_eq_none_iff]
  cases closed <;> simp

end Condition

end GuardedFlow
