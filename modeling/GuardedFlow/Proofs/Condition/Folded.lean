import GuardedFlow.Condition.Defect
import GuardedFlow.Proofs.Operand.Folded

/-!
# What folding a condition keeps

Folding reaches the operands of a condition and nothing else (`Condition.fold_eq`). So it keeps
whatever is said of a condition without its operands, and what the check and the list of variables
say of these it keeps for each of them: `Condition.fold_spec`.
-/

namespace GuardedFlow.Condition

variable {f g : Operand → Operand}

/-! ## The operands of a condition -/

mutual

/-- The operands of the comparisons and set tests of a condition, from left to right. -/
def operands : Condition → List Operand
  | group children _ => allOperands children
  | logical _ left right _ => sideOperands left ++ sideOperands right
  | comparison left _ right => left :: right.toList
  | set left _ values _ => left :: values
termination_by structural c => c

def allOperands : List Condition → List Operand
  | [] => []
  | c :: rest => c.operands ++ allOperands rest
termination_by structural l => l

def sideOperands : Option Condition → List Operand
  | none => []
  | some c => c.operands
termination_by structural o => o

end

mutual

/-- A condition with its operands replaced and all else as it is. -/
def mapOperands (f : Operand → Operand) : Condition → Condition
  | group children closed => group (mapAll f children) closed
  | logical op left right closed => logical op (mapSide f left) (mapSide f right) closed
  | comparison left op right => comparison (f left) op (right.map f)
  | set left op values closed => set (f left) op (values.map f) closed
termination_by structural c => c

def mapAll (f : Operand → Operand) : List Condition → List Condition
  | [] => []
  | c :: rest => c.mapOperands f :: mapAll f rest
termination_by structural l => l

def mapSide (f : Operand → Operand) : Option Condition → Option Condition
  | none => none
  | some c => some (c.mapOperands f)
termination_by structural o => o

end

/-- A condition without its operands: the kinds of its nodes, its operators and marks, and how many
of everything there are. -/
def outline (c : Condition) : Condition := c.mapOperands fun _ => .null

/-- The operands of a condition and everything in them. -/
def parts (c : Condition) : List Operand := c.operands.flatMap Operand.parts

mutual

theorem mapOperands_mapOperands :
    ∀ c : Condition, (c.mapOperands f).mapOperands g = c.mapOperands fun o => g (f o)
  | group children _ => by rw [mapOperands, mapOperands, mapOperands, mapAll_mapAll children]
  | logical _ left right _ => by
    rw [mapOperands, mapOperands, mapOperands, mapSide_mapSide left, mapSide_mapSide right]
  | comparison left op right => by
    rw [mapOperands, mapOperands, mapOperands, Option.map_map]
    rfl
  | set left op values _ => by
    rw [mapOperands, mapOperands, mapOperands, List.map_map]
    rfl

theorem mapAll_mapAll : ∀ l : List Condition, mapAll g (mapAll f l) = mapAll (fun o => g (f o)) l
  | [] => rfl
  | c :: rest => by rw [mapAll, mapAll, mapAll, mapOperands_mapOperands c, mapAll_mapAll rest]

theorem mapSide_mapSide :
    ∀ o : Option Condition, mapSide g (mapSide f o) = mapSide (fun o => g (f o)) o
  | none => rfl
  | some c => congrArg some (mapOperands_mapOperands c)

end

mutual

/-- Folding a condition is folding its operands. -/
theorem fold_eq : ∀ c : Condition, c.fold = c.mapOperands Operand.fold
  | group children _ => by rw [fold, mapOperands, foldAll_eq children]
  | logical _ left right _ => by rw [fold, mapOperands, foldSide_eq left, foldSide_eq right]
  | comparison .. => rfl
  | set _ _ values _ => by rw [fold, mapOperands, Operand.foldAll_eq]

theorem foldAll_eq : ∀ l : List Condition, foldAll l = mapAll Operand.fold l
  | [] => rfl
  | c :: rest => by rw [foldAll, mapAll, fold_eq c, foldAll_eq rest]

theorem foldSide_eq : ∀ o : Option Condition, foldSide o = mapSide Operand.fold o
  | none => rfl
  | some c => congrArg some (fold_eq c)

end

mutual

theorem operands_mapOperands : ∀ c : Condition, (c.mapOperands f).operands = c.operands.map f
  | group children _ => allOperands_mapAll children
  | logical _ left right _ => by
    rw [mapOperands, operands, operands, List.map_append, sideOperands_mapSide left,
      sideOperands_mapSide right]
  | comparison left _ right => by cases right <;> rfl
  | set .. => rfl

theorem allOperands_mapAll : ∀ l : List Condition, allOperands (mapAll f l) = (allOperands l).map f
  | [] => rfl
  | c :: rest => by
    rw [mapAll, allOperands, allOperands, List.map_append, operands_mapOperands c,
      allOperands_mapAll rest]

theorem sideOperands_mapSide :
    ∀ o : Option Condition, sideOperands (mapSide f o) = (sideOperands o).map f
  | none => rfl
  | some c => operands_mapOperands c

end

mutual

/-- The variables of a condition are those of its operands. -/
theorem variableNames_eq_flatMap :
    ∀ c : Condition, c.variableNames = c.operands.flatMap Operand.variableNames
  | group children _ => allVariableNames_eq_flatMap children
  | logical _ left right _ => by
    rw [variableNames, operands, List.flatMap_append, sideVariableNames_eq_flatMap left,
      sideVariableNames_eq_flatMap right]
  | comparison left _ right => by
    cases right with
    | none => rfl
    | some right => simp [variableNames, operands]
  | set left _ values _ => by
    rw [variableNames, operands, List.flatMap_cons, Operand.allVariableNames_eq_flatMap]

theorem allVariableNames_eq_flatMap :
    ∀ l : List Condition, allVariableNames l = (allOperands l).flatMap Operand.variableNames
  | [] => rfl
  | c :: rest => by
    rw [allVariableNames, allOperands, List.flatMap_append, variableNames_eq_flatMap c,
      allVariableNames_eq_flatMap rest]

theorem sideVariableNames_eq_flatMap :
    ∀ o : Option Condition, sideVariableNames o = (sideOperands o).flatMap Operand.variableNames
  | none => rfl
  | some c => variableNames_eq_flatMap c

end

/-! ## Defects -/

/-- A defect with the operands that it shows replaced. -/
def Defect.mapOperands (f : Operand → Operand) : Defect → Defect
  | emptyGroup => emptyGroup
  | missingSide op isLeft => missingSide op isLeft
  | noOperator left => noOperator (f left)
  | constantLeft left => constantLeft (f left)
  | missingRight left op => missingRight (f left) op
  | extraRight left right => extraRight (f left) (f right)
  | testedOperand left => testedOperand (f left)
  | noValues left => noValues (f left)
  | missingBound left => missingBound (f left)
  | openGroup => openGroup
  | openLogical op => openLogical op
  | openSet left => openSet (f left)

/-- Replacements that the check does not see. -/
structure Unseen (f : Operand → Operand) : Prop where
  mentionsVariable : ∀ o, (f o).mentionsVariable = o.mentionsVariable
  isVariable : ∀ o, (f o).isVariable = o.isVariable

theorem comparisonDefect?_map (hf : Unseen f) (left : Operand) (op : Option Comparator)
    (right : Option Operand) :
    comparisonDefect? (f left) op (right.map f) =
      (comparisonDefect? left op right).map (Defect.mapOperands f) := by
  unfold comparisonDefect?
  cases op with
  | none => rfl
  | some op =>
    rw [hf.mentionsVariable]
    cases left.mentionsVariable with
    | false => rfl
    | true => cases op <;> cases right <;> rfl

theorem setDefect?_map (hf : Unseen f) (left : Operand) (op : SetOperator) (values : List Operand) :
    setDefect? (f left) op (values.map f) =
      (setDefect? left op values).map (Defect.mapOperands f) := by
  unfold setDefect?
  rw [hf.isVariable, List.isEmpty_map, List.length_map]
  split
  · rfl
  · split
    · rfl
    · split <;> rfl

theorem defect?_mapOperands (hf : Unseen f) (c : Condition) :
    (c.mapOperands f).defect? = c.defect?.map (Defect.mapOperands f) := by
  cases c with
  | group children closed => cases children <;> rfl
  | logical op left right closed => cases left <;> cases right <;> rfl
  | comparison left op right => exact comparisonDefect?_map hf left op right
  | set left op values closed => exact setDefect?_map hf left op values

mutual

/-- What the check finds it finds in the same place, and shows the operands there. -/
theorem treeDefect?_mapOperands (hf : Unseen f) : ∀ c : Condition,
    (c.mapOperands f).treeDefect? = c.treeDefect?.map (Defect.mapOperands f)
  | group children closed => by
    have hnode := defect?_mapOperands hf (group children closed)
    rw [mapOperands] at hnode ⊢
    rw [treeDefect?, treeDefect?, hnode, Option.map_or, childrenDefect?_mapAll hf children]
    cases closed <;> rfl
  | logical op left right closed => by
    have hnode := defect?_mapOperands hf (logical op left right closed)
    rw [mapOperands] at hnode ⊢
    rw [treeDefect?, treeDefect?, hnode, Option.map_or, sideDefect?_mapSide hf left,
      sideDefect?_mapSide hf right, ← Option.map_or]
    cases closed <;> rfl
  | comparison left op right => defect?_mapOperands hf (comparison left op right)
  | set left op values closed => by
    have hnode := defect?_mapOperands hf (set left op values closed)
    rw [mapOperands] at hnode ⊢
    rw [treeDefect?, treeDefect?, hnode, Option.map_or]
    cases closed <;> rfl

theorem childrenDefect?_mapAll (hf : Unseen f) : ∀ l : List Condition,
    childrenDefect? (mapAll f l) = (childrenDefect? l).map (Defect.mapOperands f)
  | [] => rfl
  | c :: rest => by
    rw [mapAll, childrenDefect?, childrenDefect?, Option.map_or, treeDefect?_mapOperands hf c,
      childrenDefect?_mapAll hf rest]

theorem sideDefect?_mapSide (hf : Unseen f) : ∀ o : Option Condition,
    sideDefect? (mapSide f o) = (sideDefect? o).map (Defect.mapOperands f)
  | none => rfl
  | some c => treeDefect?_mapOperands hf c

end

/-! ## Folding -/

theorem unseen_fold : Unseen Operand.fold :=
  ⟨Operand.mentionsVariable_fold, Operand.isVariable_fold⟩

/-- A folded condition has the same defect, shown with folded operands. -/
theorem treeDefect?_fold (c : Condition) :
    c.fold.treeDefect? = c.treeDefect?.map (Defect.mapOperands Operand.fold) := by
  rw [fold_eq, treeDefect?_mapOperands unseen_fold]

theorem reduced_fold (c : Condition) : ∀ o ∈ c.fold.parts, ¬ o.Reducible := by
  rw [parts, fold_eq, operands_mapOperands, List.forall_mem_flatMap, List.forall_mem_map]
  exact fun o _ => Operand.reduced_fold o

theorem fold_fold (c : Condition) : c.fold.fold = c.fold := by
  have hfold : (fun o : Operand => o.fold.fold) = Operand.fold := funext Operand.fold_fold
  rw [fold_eq, fold_eq, mapOperands_mapOperands, hfold]

theorem variableNames_fold (c : Condition) : c.fold.variableNames = c.variableNames := by
  rw [variableNames_eq_flatMap, variableNames_eq_flatMap, fold_eq, operands_mapOperands,
    List.flatMap_map]
  exact congrArg (c.operands.flatMap ·) (funext Operand.variableNames_fold)

theorem outline_fold (c : Condition) : c.fold.outline = c.outline := by
  rw [outline, fold_eq, mapOperands_mapOperands, outline]

/-- **Folding.** A folded condition has nothing in it that can be computed, so that folding it again
changes nothing. It has the variables of the condition, in order, is the same condition but for its
operands, and passes the check just if the condition does. -/
theorem fold_spec (c : Condition) :
    (∀ o ∈ c.fold.parts, ¬ o.Reducible) ∧ c.fold.fold = c.fold ∧
    c.fold.variableNames = c.variableNames ∧
      c.fold.outline = c.outline ∧ (c.fold.treeDefect? = none ↔ c.treeDefect? = none) := by
  refine ⟨reduced_fold c, fold_fold c, variableNames_fold c, outline_fold c, ?_⟩
  rw [treeDefect?_fold, Option.map_eq_none_iff]

end GuardedFlow.Condition
