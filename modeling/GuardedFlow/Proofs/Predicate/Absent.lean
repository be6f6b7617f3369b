import GuardedFlow.Proofs.Predicate.Test

/-!
# Absent values

Every operator and every function gives the absent value where it gets it. So an operand without
lists is absent as soon as one of its variables is (`Operand.eq_null_of_absent`). A list is a value
of its own, whatever its items are.

The absent value has no order with any value, lies in no range, and is equal to itself alone.
`Operand.absent_spec` says from this what a condition makes of an operand with an absent variable.
-/

namespace GuardedFlow

variable {α : Type}

/-! ## Values -/

namespace Value

@[simp] theorem coerce_null (v : Value) : v.coerce null = v := by cases v <;> rfl

@[simp] theorem null_coerce (target : Value) : null.coerce target = null := by cases target <;> rfl

/-- Nothing but the absent value is equal to it. -/
theorem null_looseEquals (v : Value) : null.looseEquals v = v.isNull := by
  rw [looseEquals, coerce_null]
  cases v <;> rfl

theorem looseEquals_null (v : Value) : v.looseEquals null = v.isNull := by
  rw [looseEquals, null_coerce]
  cases v <;> rfl

theorem looseOrder_null (v : Value) : v.looseOrder null = none := by
  rw [looseOrder, null_coerce]
  cases v <;> rfl

/-- The absent value lies in no range and is the end of none. -/
theorem within_of_null {v low high : Value} (h : null ∈ [v, low, high]) :
    v.within low high = false := by
  simp only [List.mem_cons, List.not_mem_nil, or_false] at h
  rcases h with rfl | rfl | rfl
  · rfl
  · simp [within, looseOrder_null]
  · simp [within, looseOrder_null]

end Value

/-! ## Operands -/

theorem BinaryOp.null_apply (op : BinaryOp) (v : Value) : op.apply .null v = .null := rfl

theorem BinaryOp.apply_null (op : BinaryOp) (v : Value) :
    op.apply v .null = .null := by cases v <;> rfl

theorem UnaryOp.apply_null (op : UnaryOp) : op.apply .null = .null := by cases op <;> rfl

theorem Builtin.apply_null (f : Builtin) : f.apply .null = .null := by cases f <;> rfl

namespace Operand

theorem applyCall_of_mem_null (f : Builtin) {values : List Value} (h : .null ∈ values) :
    applyCall f values = .null := by
  match values with
  | [v] =>
    rw [← List.mem_singleton.1 h]
    exact f.apply_null
  | [] | _ :: _ :: _ => rfl

mutual

/-- Whether no list occurs in an operand. -/
def listFree : Operand → Bool
  | var _ | literal _ | null => true
  | binary left _ right => left.listFree && right.listFree
  | unary _ operand => operand.listFree
  | call _ args => allListFree args
  | list _ => false
termination_by structural o => o

def allListFree : List Operand → Bool
  | [] => true
  | o :: rest => o.listFree && allListFree rest
termination_by structural l => l

end

/-- Whether a variable is one of a field that is absent on a record. -/
def AbsentAt (r : Resolver α) (scope : String) (item : α) (name : String) : Prop :=
  ∃ read, r.resolve (fieldPath scope name) = some read ∧ read item = .null

variable {r : Resolver α} {scope : String} {item : α}

theorem exists_mem_append {p : String → Prop} {l l' : List String} (h : ∃ name ∈ l ++ l', p name) :
    (∃ name ∈ l, p name) ∨ ∃ name ∈ l', p name := by
  obtain ⟨name, hname, hp⟩ := h
  exact (List.mem_append.1 hname).imp (⟨name, ·, hp⟩) (⟨name, ·, hp⟩)

mutual

/-- **Absence propagates.** An operand without lists is absent where one of its variables is. -/
theorem eq_null_of_absent :
    ∀ (o : Operand) {f : α → Value}, o.listFree = true → o.compile r scope = .ok f →
    (∃ name ∈ o.variableNames, AbsentAt r scope item name) → f item = .null
  | var name, f, _, hf, h => by
    obtain ⟨_, hname, read, hread, hnull⟩ := h
    rw [variableNames, List.mem_singleton] at hname
    rw [hname] at hread
    rw [compile, hread] at hf
    rwa [← Except.ok.inj hf]
  | literal _, _, _, _, h => by simp [variableNames] at h
  | null, _, _, _, h => by simp [variableNames] at h
  | binary left op right, f, hfree, hf, h => by
    rw [listFree, Bool.and_eq_true] at hfree
    obtain ⟨l, hl, hf⟩ := bind_eq_ok.1 hf
    obtain ⟨v, hv, hf⟩ := bind_eq_ok.1 hf
    cases hf
    rcases exists_mem_append h with h | h
    · show op.apply (l item) (v item) = .null
      rw [eq_null_of_absent left hfree.1 hl h]
      exact op.null_apply _
    · show op.apply (l item) (v item) = .null
      rw [eq_null_of_absent right hfree.2 hv h]
      exact op.apply_null _
  | unary op operand, f, hfree, hf, h => by
    obtain ⟨v, hv, hf⟩ := bind_eq_ok.1 hf
    cases hf
    show op.apply (v item) = .null
    rw [eq_null_of_absent operand hfree hv h]
    exact op.apply_null
  | call name args, f, hfree, hf, h => by
    obtain ⟨g, -, hf⟩ := bind_eq_ok.1 hf
    obtain ⟨values, hvalues, hf⟩ := bind_eq_ok.1 hf
    cases hf
    exact applyCall_of_mem_null g (null_mem_of_absent args hfree hvalues h)
  | list _, _, hfree, _, _ => nomatch hfree

theorem null_mem_of_absent : ∀ (l : List Operand) {f : α → List Value}, allListFree l = true →
    compileAll r scope l = .ok f → (∃ name ∈ allVariableNames l, AbsentAt r scope item name) →
    .null ∈ f item
  | [], _, _, _, h => by simp [allVariableNames] at h
  | o :: rest, f, hfree, hf, h => by
    rw [allListFree, Bool.and_eq_true] at hfree
    obtain ⟨first, hfirst, hf⟩ := bind_eq_ok.1 hf
    obtain ⟨others, hothers, hf⟩ := bind_eq_ok.1 hf
    cases hf
    rcases exists_mem_append h with h | h
    · exact List.mem_cons.2 (.inl (eq_null_of_absent o hfree.1 hfirst h).symm)
    · exact List.mem_cons_of_mem _ (null_mem_of_absent rest hfree.2 hothers h)

end

end Operand

/-! ## Conditions -/

/-- The verdict of a condition on a record: that of the test that it is compiled to, and if its
shape is right, of its predicate. -/
structure Condition.Decides (r : Resolver α) (scope : String) (item : α) (c : Condition)
    (verdict : Bool) : Prop where
  test : ∃ test, c.compile r scope = .ok test ∧ test item = verdict
  predicate : c.treeDefect? = none → ∀ folding source,
    ∃ p, Predicate.generate r scope folding c source = .ok p ∧ p.test item = verdict

variable {r : Resolver α} {scope : String} {item : α}

theorem Condition.decides_of_compile {c : Condition} {test : α → Bool} {verdict : Bool}
    (hc : c.compile r scope = .ok test) (h : test item = verdict) :
    c.Decides r scope item verdict where
  test := ⟨test, hc, h⟩
  predicate hdefect _ _ := ⟨_, Predicate.generate_of_compile hdefect hc, h⟩

/-- Without an order no comparison that asks for one holds. -/
theorem Comparator.holds_of_looseOrder_eq_none {op : Comparator} (hop : op ∈ [gt, ge, lt, le])
    {l v : Value} (h : l.looseOrder v = none) : op.isUnary = false ∧ op.holds l v = false := by
  simp only [List.mem_cons, List.not_mem_nil, or_false] at hop
  rcases hop with rfl | rfl | rfl | rfl <;> simp [isUnary, holds, h]

/-- **Absent variables.** Where a variable of an operand without lists is absent, the operand is;
then no comparison of it asks for an order that is there, no range with it holds, and it is equal to
nothing but what is absent. -/
theorem Operand.absent_spec {e : Operand} {f : α → Value} (hfree : e.listFree = true)
    (hf : e.compile r scope = .ok f)
    (habsent : ∃ name ∈ e.variableNames, AbsentAt r scope item name) :
    f item = .null ∧
    (∀ o g, o.compile r scope = .ok g →
      (∀ op ∈ [Comparator.gt, .ge, .lt, .le],
        (Condition.comparison e (some op) (some o)).Decides r scope item false ∧
        (Condition.comparison o (some op) (some e)).Decides r scope item false) ∧
      (Condition.comparison e (some .eq) (some o)).Decides r scope item (g item).isNull) ∧
    ∀ value low high rest closed, e ∈ [value, low, high] →
      (∀ o ∈ [value, low, high], ∃ g, o.compile r scope = .ok g) →
      (Condition.set value .inRange (low :: high :: rest) closed).Decides r scope item false ∧
      (Condition.set value .notInRange (low :: high :: rest) closed).Decides r scope item true := by
  have hnull : f item = .null := eq_null_of_absent e hfree hf habsent
  refine ⟨hnull, fun o g hg => ⟨fun op hop => ⟨?_, ?_⟩, ?_⟩,
    fun value low high rest closed hmem hcompile => ?_⟩
  · have hnone : (f item).looseOrder (g item) = none := by rw [hnull]; rfl
    obtain ⟨hunary, hholds⟩ := Comparator.holds_of_looseOrder_eq_none hop hnone
    exact Condition.decides_of_compile (Condition.compile_comparison hunary hf hg) hholds
  · have hnone : (g item).looseOrder (f item) = none := by rw [hnull, Value.looseOrder_null]
    obtain ⟨hunary, hholds⟩ := Comparator.holds_of_looseOrder_eq_none hop hnone
    exact Condition.decides_of_compile (Condition.compile_comparison hunary hg hf) hholds
  · refine Condition.decides_of_compile (Condition.compile_comparison rfl hf hg) ?_
    show (f item).looseEquals (g item) = (g item).isNull
    rw [hnull, Value.null_looseEquals]
  · obtain ⟨v, hv⟩ := hcompile value (by simp)
    obtain ⟨lo, hlow⟩ := hcompile low (by simp)
    obtain ⟨hi, hhigh⟩ := hcompile high (by simp)
    have hmem' : .null ∈ [v item, lo item, hi item] := by
      simp only [List.mem_cons, List.not_mem_nil, or_false] at hmem ⊢
      rcases hmem with rfl | rfl | rfl
      · cases hf.symm.trans hv
        exact .inl hnull.symm
      · cases hf.symm.trans hlow
        exact .inr (.inl hnull.symm)
      · cases hf.symm.trans hhigh
        exact .inr (.inr hnull.symm)
    have hwithin := Value.within_of_null hmem'
    exact ⟨Condition.decides_of_compile (Condition.compile_range rfl hv hlow hhigh rest closed)
      (by rw [hwithin]; rfl),
      Condition.decides_of_compile (Condition.compile_range rfl hv hlow hhigh rest closed)
        (by rw [hwithin]; rfl)⟩

/-- The opposite of a magnitude, and a field. -/
def Operand.shifted : Operand := .binary (.unary .neg (.call "abs" [.var "a"])) .add (.var "b")

theorem Operand.absent_spec_shifted : ∃ f, shifted.listFree = true ∧
    shifted.compile (Resolver.dynamic "item") "" = .ok f ∧
    (∃ name ∈ shifted.variableNames,
      AbsentAt (Resolver.dynamic "item") "" (.object [("b", .bool true)]) name) ∧
    f (.object [("b", .bool true)]) = .null ∧
    (Condition.comparison shifted (some .le) (some .null)).Decides (Resolver.dynamic "item") ""
      (.object [("b", .bool true)]) false ∧
    (Condition.comparison shifted (some .eq) (some .null)).Decides (Resolver.dynamic "item") ""
      (.object [("b", .bool true)]) true := by
  have hfree : shifted.listFree = true := rfl
  have hf : shifted.compile (Resolver.dynamic "item") "" = .ok _ := rfl
  have habsent : ∃ name ∈ shifted.variableNames,
      AbsentAt (Resolver.dynamic "item") "" (.object [("b", .bool true)]) name :=
    ⟨"a", List.mem_cons_self, _, rfl, rfl⟩
  obtain ⟨hnull, hcomparison, -⟩ := absent_spec hfree hf habsent
  obtain ⟨hordering, hequal⟩ := hcomparison .null _ rfl
  exact ⟨_, hfree, hf, habsent, hnull, (hordering .le (by decide)).1, hequal⟩

end GuardedFlow
