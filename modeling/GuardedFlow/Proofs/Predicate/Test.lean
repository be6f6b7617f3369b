import GuardedFlow.Proofs.Predicate.Compiles

/-!
# The tests of single conditions

What a comparison, a set test and a connective are compiled to, once their operands or their sides
are compiled.
-/

namespace GuardedFlow.Condition

variable {α : Type} {r : Resolver α} {scope : String} {left right : Operand} {l v : α → Value}

theorem compile_comparison {op : Comparator} (hop : op.isUnary = false)
    (hl : left.compile r scope = .ok l) (hv : right.compile r scope = .ok v) :
    (comparison left (some op) (some right)).compile r scope = .ok fun item => op.holds (l item)
    (v item) := by
  rw [compile, compileComparison, hop]
  exact bind_eq_ok.2 ⟨l, hl, bind_eq_ok.2 ⟨v, hv, rfl⟩⟩

/-- A test for the absent value. -/
theorem compile_nullTest {op : Comparator} {right : Option Operand} (hop : op.isUnary = true)
    (hl : left.compile r scope = .ok l) :
    (comparison left (some op) right).compile r scope = .ok fun item =>
      op.holds (l item) .null := by
  rw [compile, compileComparison, hl, hop]
  rfl

/-- A range counts its first two values only. -/
theorem compile_range {op : SetOperator} {low high : Operand} {lo hi : α → Value}
    (hop : op.isRange = true) (hl : left.compile r scope = .ok l)
    (hlow : low.compile r scope = .ok lo) (hhigh : high.compile r scope = .ok hi)
    (rest : List Operand) (closed : Bool) :
    (set left op (low :: high :: rest) closed).compile r scope =
      .ok fun item => (l item).within (lo item) (hi item) != op.isNegated := by
  rw [compile, compileSet, hop]
  exact bind_eq_ok.2 ⟨l, hl, bind_eq_ok.2 ⟨lo, hlow, bind_eq_ok.2 ⟨hi, hhigh, rfl⟩⟩⟩

/-- Whether a list is put together once or for each record, its items are compared one by one. -/
theorem compile_membership {op : SetOperator} {values : List Operand} {vs : α → List Value}
    (hop : op.isRange = false) (hl : left.compile r scope = .ok l)
    (hvs : Operand.compileAll r scope values = .ok vs) (closed : Bool) :
    (set left op values closed).compile r scope =
      .ok fun item => (vs item).any (fun x => (l item).looseEquals x) != op.isNegated := by
  rw [compile, compileSet, hl, hop, Operand.compile_list, hvs]
  rfl

theorem compile_logical {c d : Condition} {test other : α → Bool}
    (hc : c.compile r scope = .ok test) (hd : d.compile r scope = .ok other) (op : Connective)
    (closed : Bool) :
    (logical op (some c) (some d) closed).compile r scope = .ok fun item =>
      match op with
      | .and => test item && other item
      | .or => test item || other item := by
  rw [compile, hc, hd]
  cases op <;> rfl

/-- A group of one condition has its test. -/
theorem compile_group {c : Condition} {test : α → Bool} (hc : c.compile r scope = .ok test)
    (closed : Bool) :
    (group [c] closed).compile r scope = .ok test := by
  have htest : (fun item => test item && true) = test := funext fun item => Bool.and_true _
  rw [compile, compileChildren, hc]
  exact congrArg Except.ok htest

end GuardedFlow.Condition
