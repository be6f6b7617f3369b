import GuardedFlow.Proofs.Condition.Normal
import GuardedFlow.Proofs.Predicate.Direct

/-!
# What compiles

A condition refers to fields and functions by name (`Condition.references`). The check of its shape
leaves nothing else that can be wrong: what is wrong with a condition that passes it is what is
wrong with the first of its names (`Condition.error?_compile`). `Predicate.generate_spec` says from
this what is compiled, folded or not, and that no function misses its argument.
-/

namespace GuardedFlow

/-- The functions that there are. -/
def Builtin.names : List String := ["len", "lower", "upper", "trim", "abs"]

theorem Builtin.isSome_ofName? {name : String} : (ofName? name).isSome = true ↔ name ∈ names := by
  constructor
  · intro h
    refine Decidable.byContradiction fun hother => ?_
    simp only [names, List.mem_cons, List.not_mem_nil, or_false, not_or] at hother
    simp [ofName?, hother] at h
  · intro h
    simp only [names, List.mem_cons, List.not_mem_nil, or_false] at h
    rcases h with rfl | rfl | rfl | rfl | rfl <;> rfl

/-- A name that a condition looks up. -/
inductive Reference where
  | field (name : String)
  | call (name : String) (arity : Nat)

mutual

/-- The names in an operand from left to right, a function before its arguments. -/
def Operand.references : Operand → List Reference
  | var name => [.field name]
  | literal _ | null => []
  | binary left _ right => left.references ++ right.references
  | unary _ operand => operand.references
  | call name args => .call name args.length :: allReferences args
  | list items => allReferences items
termination_by structural o => o

def Operand.allReferences : List Operand → List Reference
  | [] => []
  | o :: rest => o.references ++ allReferences rest
termination_by structural l => l

end

mutual

/-- The names in a condition from left to right. Of the values of a range only the two ends
count. -/
def Condition.references : Condition → List Reference
  | group children _ => allReferences children
  | logical _ left right _ => sideReferences left ++ sideReferences right
  | comparison left _ right => left.references ++ (right.map Operand.references).getD []
  | set left op values _ =>
    left.references ++ Operand.allReferences (if op.isRange then values.take 2 else values)
termination_by structural c => c

def Condition.allReferences : List Condition → List Reference
  | [] => []
  | c :: rest => c.references ++ allReferences rest
termination_by structural l => l

def Condition.sideReferences : Option Condition → List Reference
  | none => []
  | some c => c.references
termination_by structural o => o

end

variable {α : Type} (r : Resolver α) (scope : String)

/-! ## Names -/

namespace Reference

/-- What can be wrong with a name. -/
inductive Fault : Reference → CompileFault → Prop where
  | unknownField {name : String} (h : r.resolve (fieldPath scope name) = none) :
      Fault (.field name) (.unknownField name r.entity)
  | unknownFunction {name : String} {arity : Nat} (h : name ∉ Builtin.names) :
      Fault (.call name arity) (.unknownFunction name)
  | wrongArity {name : String} {arity : Nat} (hname : name ∈ Builtin.names) (h : arity ≠ 1) :
      Fault (.call name arity) (.wrongArity name 1 arity)

/-- What is wrong with a name, if anything is. -/
def fault? : Reference → Option CompileFault
  | field name =>
    if (r.resolve (fieldPath scope name)).isSome then none else some (.unknownField name r.entity)
  | call name arity => error? (Operand.callee name arity)

theorem fault?_call (name : String) (arity : Nat) : (call name arity).fault? r scope =
    if name ∈ Builtin.names then if arity = 1 then none else some (.wrongArity name 1 arity)
    else some (.unknownFunction name) := by
  rw [fault?, Operand.callee]
  simp only [← Builtin.isSome_ofName?]
  cases Builtin.ofName? name with
  | none => rfl
  | some f => by_cases h : arity = 1 <;> simp [h, error?]

variable {r scope}

theorem fault?_field_eq_none_iff {name : String} :
    (field name).fault? r scope = none ↔ (r.resolve (fieldPath scope name)).isSome = true := by
  cases h : (r.resolve (fieldPath scope name)).isSome <;> simp [fault?, h]

theorem fault?_call_eq_none_iff {name : String} {arity : Nat} :
    (call name arity).fault? r scope = none ↔ name ∈ Builtin.names ∧ arity = 1 := by
  rw [fault?_call]
  by_cases hname : name ∈ Builtin.names <;> by_cases harity : arity = 1 <;> simp [hname, harity]

/-- There is nothing wrong with names of fields that exist and of functions that exist and are
called with one argument. -/
theorem forall_fault?_eq_none_iff {l : List Reference} : (∀ x ∈ l, x.fault? r scope = none) ↔
    (∀ name, field name ∈ l → (r.resolve (fieldPath scope name)).isSome = true) ∧
      ∀ name arity, call name arity ∈ l → name ∈ Builtin.names ∧ arity = 1 := by
  constructor
  · exact fun h => ⟨fun name hname => fault?_field_eq_none_iff.1 (h _ hname),
      fun name arity hcall => fault?_call_eq_none_iff.1 (h _ hcall)⟩
  · rintro ⟨hfields, hcalls⟩ x hx
    cases x with
    | field name => exact fault?_field_eq_none_iff.2 (hfields name hx)
    | call name arity => exact fault?_call_eq_none_iff.2 (hcalls name arity hx)

theorem Fault.of_fault? {x : Reference} {e : CompileFault} (h : x.fault? r scope = some e) :
    x.Fault r scope e := by
  cases x with
  | field name =>
    rw [fault?] at h
    split at h
    · cases h
    · next hnone =>
      cases h
      exact .unknownField (Option.not_isSome_iff_eq_none.1 hnone)
  | call name arity =>
    rw [fault?_call] at h
    split at h
    · next hname =>
      split at h
      · cases h
      · next harity =>
        cases h
        exact .wrongArity hname harity
    · next hname =>
      cases h
      exact .unknownFunction hname

end Reference

/-! ## Operands -/

namespace Operand

mutual

/-- What is wrong with an operand is what is wrong with the first of its names. -/
theorem error?_compile :
    ∀ o : Operand, error? (o.compile r scope) = o.references.findSome? (Reference.fault? r scope)
  | var name => by
    rw [compile, references, List.findSome?_singleton, Reference.fault?]
    cases r.resolve (fieldPath scope name) <;> rfl
  | literal _ => rfl
  | null => rfl
  | binary left op right => by
    rw [compile, references, List.findSome?_append, ← error?_compile left, ← error?_compile right]
    exact error?_bind fun _ => error?_map _ _
  | unary op operand => by
    rw [compile, references, ← error?_compile operand]
    exact error?_map _ _
  | call name args => by
    rw [compile, references, List.findSome?_cons, ← error?_compileAll args]
    refine (error?_bind fun f => error?_map _ _).trans ?_
    rw [Reference.fault?]
    cases error? (callee name args.length) <;> rfl
  | list items => by
    rw [compile_list, error?_map, references, error?_compileAll items]

theorem error?_compileAll : ∀ l : List Operand,
    error? (compileAll r scope l) = (allReferences l).findSome? (Reference.fault? r scope)
  | [] => rfl
  | o :: rest => by
    rw [compileAll, allReferences,
      List.findSome?_append, ← error?_compile o, ← error?_compileAll rest]
    exact error?_bind fun _ => error?_map _ _

end

end Operand

/-! ## Conditions -/

namespace Condition

theorem error?_compileComparison {left : Operand} {op : Option Comparator} {right : Option Operand}
    (h : comparisonDefect? left op right = none) :
    error? (compileComparison r scope left op right) =
      (left.references ++ (right.map Operand.references).getD []).findSome?
        (Reference.fault? r scope) := by
  cases op with
  | none => cases h
  | some op =>
    have hunary := (comparisonDefect?_eq_none_iff.1 h).2
    rw [List.findSome?_append, ← Operand.error?_compile]
    refine error?_bind fun l => ?_
    cases right with
    | none =>
      rw [if_pos (hunary.1 rfl)]
      rfl
    | some right =>
      rw [if_neg fun h => nomatch hunary.2 h]
      exact (error?_map _ _).trans (Operand.error?_compile r scope right)

theorem error?_compileSet {left : Operand} {op : SetOperator} {values : List Operand}
    (h : setDefect? left op values = none) :
    error? (compileSet r scope left op values) =
      (left.references ++
        Operand.allReferences (if op.isRange then values.take 2 else values)).findSome?
        (Reference.fault? r scope) := by
  rw [List.findSome?_append, ← Operand.error?_compile]
  refine error?_bind fun l => ?_
  cases hrange : op.isRange with
  | false =>
    rw [if_neg Bool.false_ne_true, if_neg Bool.false_ne_true]
    exact (error?_map _ _).trans (Operand.error?_compile r scope (.list values))
  | true =>
    rw [if_pos rfl, if_pos rfl]
    -- a range without a defect has its two ends
    match values, (setDefect?_eq_none_iff.1 h).2.2 hrange with
    | low :: high :: rest, _ =>
      have hends : Operand.allReferences (List.take 2 (low :: high :: rest)) =
          low.references ++ high.references := by
        rw [List.take_succ_cons, List.take_succ_cons, List.take_zero, Operand.allReferences,
          Operand.allReferences, Operand.allReferences, List.append_nil]
      rw [hends, List.findSome?_append, ← Operand.error?_compile, ← Operand.error?_compile]
      exact error?_bind fun _ => error?_map _ _

mutual

/-- What is wrong with a condition of the right shape is what is wrong with the first of its
names. -/
theorem error?_compile : ∀ c : Condition, c.treeDefect? = none →
    error? (c.compile r scope) = c.references.findSome? (Reference.fault? r scope)
  | group children closed, h => by
    obtain ⟨hne, -, hchildren⟩ := treeDefect?_group_eq_none_iff.1 h
    rw [compile, references, ← error?_compileChildren children hchildren]
    simp only [List.isEmpty_iff, hne, ↓reduceIte, bind_pure]
  | logical op left right closed, h => by
    match left, right, treeDefect?_logical_eq_none_iff.1 h with
    | some left, some right, ⟨_, _, _, rfl, rfl, hleft, hright⟩ =>
      rw [compile, references, sideReferences, sideReferences,
        List.findSome?_append, ← error?_compile left hleft, ← error?_compile right hright]
      cases op <;> exact error?_bind fun _ => error?_map _ _
  | comparison left op right, h => error?_compileComparison r scope h
  | set left op values closed, h => error?_compileSet r scope (treeDefect?_set_eq_none_iff.1 h).2

theorem error?_compileChildren : ∀ l : List Condition, childrenDefect? l = none →
    error? (compileChildren r scope l) = (allReferences l).findSome? (Reference.fault? r scope)
  | [], _ => rfl
  | c :: rest, h => by
    obtain ⟨hc, hrest⟩ := Option.or_eq_none_iff.1 h
    rw [compileChildren, allReferences,
      List.findSome?_append, ← error?_compile c hc, ← error?_compileChildren rest hrest]
    exact error?_bind fun _ => error?_map _ _

end

end Condition

/-! ## Predicates -/

namespace Predicate

variable {r scope} {folding : Bool} {c : Condition} {source : String} {p : Predicate α}
    {e : CompileError}

/-- A predicate has the test that the condition, or the folded one, is compiled to. -/
theorem compile_of_generate (h : generate r scope folding c source = .ok p) :
    c.treeDefect? = none ∧ (if folding then c.fold else c).compile r scope = .ok p.test := by
  unfold generate at h
  split at h
  · cases h
  · next hdefect =>
    split at h
    · next test htest =>
      cases h
      exact ⟨hdefect, htest⟩
    · cases h

/-- A condition of the right shape, folded or not, has the test that it is compiled to. -/
theorem generate_of_compile {test : α → Bool} (hdefect : c.treeDefect? = none)
    (h : c.compile r scope = .ok test) :
    generate r scope folding c source = .ok ⟨source, test⟩ := by
  have hplain : generate r scope false c source = .ok ⟨source, test⟩ := by
    simp only [generate, hdefect, Bool.false_eq_true, ↓reduceIte, h]
  cases folding with
  | false => exact hplain
  | true => exact (generate_folding r scope c source).trans hplain

/-- What is wrong with a condition of the right shape, folded or not, is what is wrong with the
first of its names. -/
theorem error?_generate (hdefect : c.treeDefect? = none) :
    error? (generate r scope folding c source) =
    (c.references.findSome? (Reference.fault? r scope)).map .invalid := by
  have hplain : generate r scope folding c source = generate r scope false c source := by
    cases folding with
    | false => rfl
    | true => exact generate_folding r scope c source
  rw [hplain, ← Condition.error?_compile r scope c hdefect]
  simp only [generate, hdefect, Bool.false_eq_true, ↓reduceIte]
  cases c.compile r scope <;> rfl

theorem exists_generate_iff : (∃ p, generate r scope folding c source = .ok p) ↔
    c.treeDefect? = none ∧ ∀ x ∈ c.references, x.fault? r scope = none := by
  rw [← List.findSome?_eq_none_iff, ← error?_eq_none_iff]
  constructor
  · intro h
    obtain ⟨p, hp⟩ := error?_eq_none_iff.1 h
    have hdefect := (compile_of_generate hp).1
    rw [error?_generate hdefect] at h
    exact ⟨hdefect, Option.map_eq_none_iff.1 h⟩
  · rintro ⟨hdefect, hnames⟩
    rw [error?_generate hdefect, hnames]
    rfl

/-- **What compiles.** A condition is compiled, folded or not, just if it has the right shape, each
of its fields exists, and each of its calls is that of a function that exists, with one argument. A
condition of the right shape fails with what is wrong with one of its names. No function of what is
compiled, and none that is computed by folding, misses its argument. -/
theorem generate_spec (r : Resolver α) (scope : String) (folding : Bool) (c : Condition)
    (source : String) :
    ((∃ p, generate r scope folding c source = .ok p) ↔ c.treeDefect? = none ∧
      (∀ name, .field name ∈ c.references → (r.resolve (fieldPath scope name)).isSome = true) ∧
      ∀ name arity, .call name arity ∈ c.references → name ∈ Builtin.names ∧ arity = 1) ∧
    (∀ e, c.treeDefect? = none → generate r scope folding c source = .error e →
      ∃ x ∈ c.references, ∃ fault, x.Fault r scope fault ∧ e = .invalid fault) ∧
    (∀ p, generate r scope folding c source = .ok p →
      ∀ item, (if folding then c.fold else c).holds? r scope item = some (p.test item)) ∧
    c.fold? = some c.fold := by
  refine ⟨?_, fun e hdefect he => ?_,
    fun p hp => Condition.holds?_of_compile _ (compile_of_generate hp).2, c.fold?_eq⟩
  · rw [exists_generate_iff, Reference.forall_fault?_eq_none_iff]
  · have hfirst := error?_eq_some_iff.2 he
    rw [error?_generate hdefect] at hfirst
    obtain ⟨fault, hfault, rfl⟩ := Option.map_eq_some_iff.1 hfirst
    obtain ⟨x, hx, hx'⟩ := List.exists_of_findSome?_eq_some hfault
    exact ⟨x, hx, fault, .of_fault? hx', rfl⟩

end Predicate

/-- A range with a third value that has no meaning. -/
def Condition.thirdValue : Condition :=
  .set (.var "n") .inRange [.call "abs" [.literal (.bool true)], .var "n",
    .call "pow" [.var "m"]] true

def Condition.twoArguments : Condition :=
  .comparison (.call "len" [.var "n", .var "m"]) (some .isNull) none

theorem Predicate.generate_spec_thirdValue :
    (∃ p, generate (Resolver.scalar "bool" Value.bool) "n" true Condition.thirdValue "" = .ok p ∧
      ∀ b, Condition.thirdValue.fold.holds? (Resolver.scalar "bool" Value.bool) "n" b =
        some (p.test b)) ∧
    ∃ x ∈ Condition.twoArguments.references, ∃ fault,
      x.Fault (Resolver.scalar "bool" Value.bool) "n" fault ∧
      CompileError.invalid (.wrongArity "len" 1 2) = .invalid fault := by
  obtain ⟨hcompiles, -, htest, -⟩ :=
    generate_spec (Resolver.scalar "bool" Value.bool) "n" true Condition.thirdValue ""
  obtain ⟨-, hfault, -⟩ :=
    generate_spec (Resolver.scalar "bool" Value.bool) "n" false Condition.twoArguments ""
  have hreferences : Condition.thirdValue.references = [.field "n", .call "abs" 1, .field "n"] :=
    rfl
  rw [hreferences] at hcompiles
  obtain ⟨p, hp⟩ := hcompiles.2 ⟨rfl, by simp [fieldPath, Resolver.scalar], by simp [Builtin.names]⟩
  exact ⟨⟨p, hp, htest p hp⟩, hfault _ rfl rfl⟩

end GuardedFlow
