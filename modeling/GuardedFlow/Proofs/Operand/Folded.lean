import GuardedFlow.Operand.Fold
import GuardedFlow.Predicate.Compile

/-!
# What folding leaves

An operand is *reducible* if it can be computed as it stands: an operator on constants, or a call on
constants that the compiler would take. Folding leaves nothing reducible (`Operand.reduced_fold`),
and changes nothing where nothing is (`Operand.fold_of_reduced`). It only ever computes what has no
variables, so these stay where they were (`Operand.variableNames_fold`).
-/

namespace GuardedFlow.Operand

variable {o left right : Operand} {op : BinaryOp} {v : Value}

/-! ## Parts -/

/-- Whether an operand is a value that is written out. -/
def isConstant (o : Operand) : Bool := o.constant?.isSome

/-- An operand that can be computed as it stands. -/
inductive Reducible : Operand → Prop where
  | binary {left : Operand} (op : BinaryOp) {right : Operand} (hleft : left.isConstant = true)
      (hright : right.isConstant = true) : Reducible (binary left op right)
  | unary (op : UnaryOp) {operand : Operand} (h : operand.isConstant = true) :
      Reducible (unary op operand)
  | call {name : String} {args : List Operand} {f : Builtin}
      (hcallee : callee name args.length = .ok f) (hargs : ∀ a ∈ args, a.isConstant = true) :
      Reducible (call name args)

mutual

/-- An operand and everything in it, from the outside in. -/
def parts : Operand → List Operand
  | var name => [var name]
  | literal v => [literal v]
  | null => [null]
  | binary left op right => binary left op right :: (left.parts ++ right.parts)
  | unary op operand => unary op operand :: operand.parts
  | call name args => call name args :: allParts args
  | list items => list items :: allParts items
termination_by structural o => o

def allParts : List Operand → List Operand
  | [] => []
  | o :: rest => o.parts ++ allParts rest
termination_by structural l => l

end

/-- An operand in which nothing can be computed. -/
def Reduced (o : Operand) : Prop := ∀ p ∈ o.parts, ¬ p.Reducible

theorem allParts_eq (l : List Operand) : allParts l = l.flatMap parts := by
  induction l with
  | nil => rfl
  | cons o rest ih => rw [allParts, ih, List.flatMap_cons]

theorem foldAll_eq (l : List Operand) : foldAll l = l.map fold := by
  induction l with
  | nil => rfl
  | cons o rest ih => rw [foldAll, ih, List.map_cons]

theorem reduced_binary :
    (binary left op right).Reduced ↔ ¬ (binary left op right).Reducible ∧ left.Reduced ∧
    right.Reduced := by
  simp only [Reduced, parts, List.forall_mem_cons, List.forall_mem_append]

theorem reduced_unary {op : UnaryOp} :
    (unary op o).Reduced ↔ ¬ (unary op o).Reducible ∧ o.Reduced := by
  simp only [Reduced, parts, List.forall_mem_cons]

theorem reduced_call {name : String} {args : List Operand} :
    (call name args).Reduced ↔ ¬ (call name args).Reducible ∧ ∀ a ∈ args, a.Reduced := by
  simp only [Reduced, parts, allParts_eq, List.forall_mem_cons, List.forall_mem_flatMap]

theorem reduced_list {items : List Operand} : (list items).Reduced ↔ ∀ i ∈ items, i.Reduced := by
  simp only [Reduced, parts, allParts_eq, List.forall_mem_cons, List.forall_mem_flatMap]
  exact and_iff_right fun h => nomatch h

theorem reduced_var (name : String) : (var name).Reduced := fun _ hp h => by
  obtain rfl := List.mem_singleton.1 hp
  cases h

theorem reduced_of_isConstant (h : o.isConstant = true) : o.Reduced := by
  cases o with
  | literal v | null =>
    intro p hp hp'
    obtain rfl := List.mem_singleton.1 hp
    cases hp'
  | _ => cases h

theorem isConstant_ofConstant (v : Value) : (ofConstant v).isConstant = true := by
  cases v <;> rfl

theorem variableNames_of_isConstant (h : o.isConstant = true) : o.variableNames = [] := by
  cases o with
  | literal | null => rfl
  | _ => cases h

theorem allVariableNames_eq_flatMap (l : List Operand) :
    allVariableNames l = l.flatMap variableNames := by
  induction l with
  | nil => rfl
  | cons o rest ih => rw [allVariableNames, ih, List.flatMap_cons]

/-- What can be computed has no variables. -/
theorem Reducible.variableNames_eq (h : o.Reducible) : o.variableNames = [] := by
  cases h with
  | binary _ hleft hright =>
    rw [variableNames, variableNames_of_isConstant hleft, variableNames_of_isConstant hright,
      List.append_nil]
  | unary _ h => rw [variableNames, variableNames_of_isConstant h]
  | call _ hargs =>
    rw [variableNames, allVariableNames_eq_flatMap, List.flatMap_eq_nil_iff]
    exact fun a ha => variableNames_of_isConstant (hargs a ha)

/-- A call is only computed where its arguments are one constant. -/
theorem eq_singleton_of_constants {args : List Operand} (h : args.map constant? = [some v]) :
    ∃ a, args = [a] ∧ a.constant? = some v := by
  obtain ⟨a, rest, rfl, ha, hrest⟩ := List.map_eq_cons_iff.1 h
  exact ⟨a, by rw [List.map_eq_nil_iff.1 hrest], ha⟩

theorem reducible_call_iff {name : String} {args : List Operand} :
    (call name args).Reducible ↔
      ∃ f a v, Builtin.ofName? name = some f ∧ args = [a] ∧ a.constant? = some v := by
  constructor
  · intro h
    cases h with
    | @call _ _ f hcallee hargs =>
      unfold callee at hcallee
      split at hcallee
      · cases hcallee
      · next hname =>
        split at hcallee
        · next hone =>
          obtain ⟨a, rfl⟩ := List.length_eq_one_iff.1 hone
          obtain ⟨v, hv⟩ := Option.isSome_iff_exists.1 (hargs a (List.mem_singleton_self a))
          exact ⟨_, a, v, hname, rfl, hv⟩
        · cases hcallee
  · rintro ⟨f, a, v, hname, rfl, hv⟩
    have hcallee : callee name [a].length = .ok f := by simp [callee, hname]
    refine .call hcallee fun b hb => ?_
    obtain rfl := List.mem_singleton.1 hb
    exact Option.isSome_iff_exists.2 ⟨v, hv⟩

/-! ## One step -/

/-- How an operand with folded parts is folded: what is reducible becomes a constant, and what is
not stays as it is. -/
inductive Settled (o : Operand) : Operand → Prop where
  | computed (h : o.Reducible) (v : Value) : Settled o (ofConstant v)
  | kept (h : ¬ o.Reducible) : Settled o o

theorem settled_foldBinary (left : Operand) (op : BinaryOp) (right : Operand) :
    Settled (binary left op right) (foldBinary left op right) := by
  unfold foldBinary
  split
  · next l r hl hr =>
    exact .computed
      (.binary op (Option.isSome_iff_exists.2 ⟨l, hl⟩) (Option.isSome_iff_exists.2 ⟨r, hr⟩)) _
  · next hnone =>
    refine .kept fun h => ?_
    cases h with
    | binary _ hleft hright =>
      obtain ⟨l, hl⟩ := Option.isSome_iff_exists.1 hleft
      obtain ⟨r, hr⟩ := Option.isSome_iff_exists.1 hright
      exact hnone l r hl hr

theorem settled_foldUnary (op : UnaryOp) (operand : Operand) :
    Settled (unary op operand) (foldUnary op operand) := by
  unfold foldUnary
  split
  · next v hv => exact .computed (.unary op (Option.isSome_iff_exists.2 ⟨v, hv⟩)) _
  · next hnone =>
    refine .kept fun h => ?_
    cases h with
    | unary _ hconstant =>
      rw [isConstant, hnone] at hconstant
      cases hconstant

theorem settled_foldCall (name : String) (args : List Operand) :
    Settled (call name args) (foldCall name args) := by
  unfold foldCall
  split
  · next f v hname hargs =>
    obtain ⟨a, rfl, ha⟩ := eq_singleton_of_constants hargs
    exact .computed (reducible_call_iff.2 ⟨f, a, v, hname, rfl, ha⟩) _
  · next hnone =>
    refine .kept fun h => ?_
    obtain ⟨f, a, v, hname, rfl, ha⟩ := reducible_call_iff.1 h
    exact hnone f v hname (by rw [List.map_singleton, ha])

namespace Settled

variable {result : Operand}

theorem reduced (h : Settled o result) (hkept : ¬ o.Reducible → o.Reduced) : result.Reduced := by
  cases h with
  | computed _ v => exact reduced_of_isConstant (isConstant_ofConstant v)
  | kept hnot => exact hkept hnot

theorem eq_of_not_reducible (h : Settled o result) (hnot : ¬ o.Reducible) : result = o := by
  cases h with
  | computed hred => exact absurd hred hnot
  | kept => rfl

theorem variableNames_eq (h : Settled o result) : result.variableNames = o.variableNames := by
  cases h with
  | computed hred v =>
    rw [hred.variableNames_eq, variableNames_of_isConstant (isConstant_ofConstant v)]
  | kept => rfl

theorem isVariable_eq (h : Settled o result) : result.isVariable = o.isVariable := by
  cases h with
  | computed hred v => cases hred <;> cases v <;> rfl
  | kept => rfl

end Settled

/-! ## Reduced forms -/

mutual

/-- **Reduced form.** Folding leaves nothing that can be computed. -/
theorem reduced_fold : ∀ o : Operand, o.fold.Reduced
  | var name => reduced_var name
  | literal _ => reduced_of_isConstant rfl
  | null => reduced_of_isConstant rfl
  | binary left op right =>
    (settled_foldBinary left.fold op right.fold).reduced fun hnot =>
      reduced_binary.2 ⟨hnot, reduced_fold left, reduced_fold right⟩
  | unary op operand =>
    (settled_foldUnary op operand.fold).reduced fun hnot =>
      reduced_unary.2 ⟨hnot, reduced_fold operand⟩
  | call name args =>
    (settled_foldCall name (foldAll args)).reduced fun hnot =>
      reduced_call.2 ⟨hnot, reduced_foldAll args⟩
  | list items => reduced_list.2 (reduced_foldAll items)

theorem reduced_foldAll : ∀ l : List Operand, ∀ o ∈ foldAll l, o.Reduced
  | [] => fun _ h => nomatch h
  | o :: rest => List.forall_mem_cons.2 ⟨reduced_fold o, reduced_foldAll rest⟩

end

mutual

/-- Where nothing can be computed folding changes nothing. -/
theorem fold_of_reduced : ∀ {o : Operand}, o.Reduced → o.fold = o
  | var _, _ => rfl
  | literal _, _ => rfl
  | null, _ => rfl
  | binary left op right, h => by
    obtain ⟨hnot, hleft, hright⟩ := reduced_binary.1 h
    rw [fold, fold_of_reduced hleft, fold_of_reduced hright]
    exact (settled_foldBinary left op right).eq_of_not_reducible hnot
  | unary op operand, h => by
    obtain ⟨hnot, hoperand⟩ := reduced_unary.1 h
    rw [fold, fold_of_reduced hoperand]
    exact (settled_foldUnary op operand).eq_of_not_reducible hnot
  | call name args, h => by
    obtain ⟨hnot, hargs⟩ := reduced_call.1 h
    rw [fold, foldAll_of_reduced hargs]
    exact (settled_foldCall name args).eq_of_not_reducible hnot
  | list items, h => congrArg list (foldAll_of_reduced (reduced_list.1 h))

theorem foldAll_of_reduced : ∀ {l : List Operand}, (∀ o ∈ l, o.Reduced) → foldAll l = l
  | [], _ => rfl
  | o :: rest, h => by
    obtain ⟨ho, hrest⟩ := List.forall_mem_cons.1 h
    rw [foldAll, fold_of_reduced ho, foldAll_of_reduced hrest]

end

theorem fold_fold (o : Operand) : o.fold.fold = o.fold := fold_of_reduced (reduced_fold o)

/-! ## Variables -/

mutual

/-- Folding keeps the variables, in order. -/
theorem variableNames_fold : ∀ o : Operand, o.fold.variableNames = o.variableNames
  | var _ => rfl
  | literal _ => rfl
  | null => rfl
  | binary left op right => by
    rw [fold, (settled_foldBinary left.fold op right.fold).variableNames_eq, variableNames,
      variableNames, variableNames_fold left, variableNames_fold right]
  | unary op operand => by
    rw [fold, (settled_foldUnary op operand.fold).variableNames_eq, variableNames, variableNames,
      variableNames_fold operand]
  | call name args => by
    rw [fold, (settled_foldCall name (foldAll args)).variableNames_eq, variableNames, variableNames,
      allVariableNames_foldAll args]
  | list items => allVariableNames_foldAll items

theorem allVariableNames_foldAll :
    ∀ l : List Operand, allVariableNames (foldAll l) = allVariableNames l
  | [] => rfl
  | o :: rest => by
    rw [foldAll, allVariableNames, allVariableNames, variableNames_fold o,
      allVariableNames_foldAll rest]

end

theorem isEmpty_append (l l' : List String) :
    (!(l ++ l').isEmpty) = (!l.isEmpty || !l'.isEmpty) := by
  cases l <;> rfl

mutual

/-- A variable occurs in an operand if there is one among its variables. -/
theorem mentionsVariable_eq : ∀ o : Operand, o.mentionsVariable = !o.variableNames.isEmpty
  | var _ => rfl
  | literal _ => rfl
  | null => rfl
  | binary left op right => by
    rw [mentionsVariable, variableNames, mentionsVariable_eq left, mentionsVariable_eq right,
      isEmpty_append]
  | unary op operand => mentionsVariable_eq operand
  | call name args => anyMentionsVariable_eq args
  | list items => anyMentionsVariable_eq items

theorem anyMentionsVariable_eq :
    ∀ l : List Operand, anyMentionsVariable l = !(allVariableNames l).isEmpty
  | [] => rfl
  | o :: rest => by
    rw [anyMentionsVariable, allVariableNames, mentionsVariable_eq o, anyMentionsVariable_eq rest,
      isEmpty_append]

end

theorem mentionsVariable_fold (o : Operand) : o.fold.mentionsVariable = o.mentionsVariable := by
  rw [mentionsVariable_eq, mentionsVariable_eq, variableNames_fold]

/-- Only a variable is folded to a variable. -/
theorem isVariable_fold (o : Operand) : o.fold.isVariable = o.isVariable := by
  cases o with
  | binary left op right => exact (settled_foldBinary left.fold op right.fold).isVariable_eq
  | unary op operand => exact (settled_foldUnary op operand.fold).isVariable_eq
  | call name args => exact (settled_foldCall name (foldAll args)).isVariable_eq
  | _ => rfl

end GuardedFlow.Operand
