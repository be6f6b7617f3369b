import GuardedFlow.Proofs.Condition.Normal

/-!
# What a tree says from left to right

The items of a tree are its operands, the names of its calls and the operators between them, in the
order in which they are written down. A test for the absent value is written with an operand on its
right, the absent value itself.

A sign in front of a number is part of the number in the tree, so trees are compared with
`Item.unsigned`. Everything that is done to an operand while it is read keeps the order:
`Operand.items_extend` and `Pending.items_combine`.
-/

namespace GuardedFlow

namespace BinaryOp

/-- The operator that is written between the two sides. -/
def operator : BinaryOp → Operator
  | add => .add
  | sub => .sub
  | mul => .mul
  | div => .div
  | mod => .mod
  | bitAnd => .bitAnd
  | bitOr => .bitOr
  | bitXor => .bitXor
  | shl => .shl
  | shr => .shr

theorem operator_of_ofOperator? {op : Operator} {binary : BinaryOp}
    (h : ofOperator? op = some binary) :
    binary.operator = op := by
  cases op <;> cases h <;> rfl

end BinaryOp

namespace Connective

def operator : Connective → Operator
  | and => .and
  | or => .or

theorem isLogical_operator (op : Connective) : op.operator.isLogical = true := by
  cases op <;> rfl

def ofOperator? : Operator → Option Connective
  | .and => some and
  | .or => some or
  | _ => none

end Connective

/-- What is read in one piece. -/
inductive Item where
  /-- A variable, a literal or the absent value. -/
  | operand (o : Operand)
  /-- The name of a call. -/
  | name (name : String)
  /-- An operator between two operands or two conditions. -/
  | operator (op : Operator)

namespace Item

/-- The item without the sign of a number. -/
def unsigned : Item → Item
  | operand (.literal (.number x)) => operand (.literal (.number x.abs))
  | item => item

def varName? : Item → Option String
  | operand (.var text) => some text
  | _ => none

def connective? : Item → Option Connective
  | operator op => Connective.ofOperator? op
  | _ => none

theorem varName?_unsigned (item : Item) : item.unsigned.varName? = item.varName? := by
  unfold unsigned
  split <;> rfl

theorem connective?_unsigned (item : Item) : item.unsigned.connective? = item.connective? := by
  unfold unsigned
  split <;> rfl

variable {xs ys : List Item}

theorem filterMap_varName?_congr (h : xs.map unsigned = ys.map unsigned) :
    xs.filterMap varName? = ys.filterMap varName? := by
  have hfilter := congrArg (List.filterMap varName?) h
  simpa only [List.filterMap_map, Function.comp_def, varName?_unsigned] using hfilter

theorem filterMap_connective?_congr (h : xs.map unsigned = ys.map unsigned) :
    xs.filterMap connective? = ys.filterMap connective? := by
  have hfilter := congrArg (List.filterMap connective?) h
  simpa only [List.filterMap_map, Function.comp_def, connective?_unsigned] using hfilter

end Item

theorem Number.abs_neg (x : Number) : x.neg.abs = x.abs := by
  cases x <;> rfl

namespace Operand

mutual

/-- The items of an operand. -/
def items : Operand → List Item
  | var name => [.operand (var name)]
  | literal value => [.operand (literal value)]
  | null => [.operand null]
  | binary left op right => left.items ++ .operator op.operator :: right.items
  | unary _ operand => operand.items
  | call name args => .name name :: allItems args
  | list os => allItems os
termination_by structural o => o

def allItems : List Operand → List Item
  | [] => []
  | o :: rest => o.items ++ allItems rest
termination_by structural l => l

end

theorem allItems_append (os os' : List Operand) :
    allItems (os ++ os') = allItems os ++ allItems os' := by
  induction os with
  | nil => rfl
  | cons o os ih => rw [List.cons_append, allItems, allItems, ih, List.append_assoc]

theorem allItems_singleton (o : Operand) : allItems [o] = o.items := by
  rw [allItems, allItems, List.append_nil]

theorem mem_allItems {os : List Operand} {o : Operand} (ho : o ∈ os) :
    ∀ i ∈ o.items, i ∈ allItems os := by
  obtain ⟨before, after, rfl⟩ := List.append_of_mem ho
  intro i hi
  rw [allItems_append, allItems]
  exact List.mem_append_right _ (List.mem_append_left _ hi)

/-- The items of an operand that may be missing. -/
def sideItems : Option Operand → List Item
  | none => []
  | some o => o.items

theorem items_ofWord (text : String) : (ofWord text).items = [.operand (ofWord text)] := by
  rcases ofWord_cases text with ho | ⟨b, ho⟩ | ⟨x, ho⟩ | ho
  all_goals
    rw [ho]
    rfl

mutual

theorem variableNames_eq : (o : Operand) → o.variableNames = o.items.filterMap Item.varName?
  | var _ | null => rfl
  | literal _ => rfl
  | binary left op right => by
    have hop : Item.varName? (.operator op.operator) = none := rfl
    rw [variableNames, items, List.filterMap_append,
      List.filterMap_cons_none hop, ← variableNames_eq left, ← variableNames_eq right]
  | unary _ operand => by rw [variableNames, items, variableNames_eq operand]
  | call name args => by
    have hname : Item.varName? (.name name) = none := rfl
    rw [variableNames, items, List.filterMap_cons_none hname, allVariableNames_eq args]
  | list os => by rw [variableNames, items, allVariableNames_eq os]

theorem allVariableNames_eq :
    (os : List Operand) → allVariableNames os = (allItems os).filterMap Item.varName?
  | [] => rfl
  | o :: rest => by
    rw [allVariableNames, allItems, List.filterMap_append, variableNames_eq o,
      allVariableNames_eq rest]

end

/-- Appending an operator to an operand puts it behind everything, wherever it goes in the tree. -/
theorem items_extend (o : Operand) (op : BinaryOp) (o' : Operand) :
    (o.extend op o').items = o.items ++ .operator op.operator :: o'.items := by
  fun_induction extend o op o' with
  | case1 left existing right op operand hlt ih =>
    rw [items, ih, items, List.append_assoc, List.cons_append]
  | case2 left existing right op operand hlt => rw [items]
  | case3 left op operand hbinary => rw [items]

theorem items_signed (o : Operand) (sign : UnaryOp) :
    (o.signed sign).items.map Item.unsigned = o.items.map Item.unsigned := by
  cases sign with
  | bitNot => rfl
  | neg =>
    rw [signed]
    unfold negate
    split
    · next x => simp [items, Item.unsigned, Number.abs_neg]
    · rfl

end Operand

namespace Pending

/-- The binary operator that waits. -/
def items (p : Pending) : List Item := p.binary.toList.map fun op => .operator op.operator

theorem items_applySigns (p : Pending) (o : Operand) :
    (p.applySigns o).items.map Item.unsigned = o.items.map Item.unsigned := by
  unfold applySigns
  induction p.signs generalizing o with
  | nil => rfl
  | cons sign signs ih => exact (ih (o.signed sign)).trans (o.items_signed sign)

/-- An operand that is joined to the one that is being read comes after it, and after the operator
that waits. -/
theorem items_combine {p : Pending} {current : Option Operand} {o x : Operand}
    (h : p.combine current o = .ok x) :
    x.items.map Item.unsigned =
      (Operand.sideItems current ++ p.items ++ o.items).map Item.unsigned := by
  have happly := p.items_applySigns o
  unfold combine at h
  split at h
  · next hbinary =>
    cases h
    rw [items, hbinary]
    exact happly
  · next left op hbinary =>
    cases h
    rw [Operand.items_extend, items, hbinary]
    simp [Operand.sideItems, happly]
  · cases h
  · cases h

end Pending

namespace Condition

mutual

/-- The items of a condition. -/
def items : Condition → List Item
  | group children _ => allItems children
  | logical op left right _ => sideItems left ++ .operator op.operator :: sideItems right
  | comparison left op right =>
    left.items ++
      match right with
      | some r => r.items
      | none => if op.any Comparator.isUnary then [.operand .null] else []
  | set left _ values _ => left.items ++ Operand.allItems values
termination_by structural c => c

def allItems : List Condition → List Item
  | [] => []
  | c :: rest => c.items ++ allItems rest
termination_by structural l => l

def sideItems : Option Condition → List Item
  | none => []
  | some c => c.items
termination_by structural o => o

end

theorem allItems_append (cs cs' : List Condition) :
    allItems (cs ++ cs') = allItems cs ++ allItems cs' := by
  induction cs with
  | nil => rfl
  | cons c cs ih => rw [List.cons_append, allItems, allItems, ih, List.append_assoc]

theorem allItems_singleton (c : Condition) : allItems [c] = c.items := by
  rw [allItems, allItems, List.append_nil]

mutual

theorem variableNames_eq : (c : Condition) → c.variableNames = c.items.filterMap Item.varName?
  | group children _ => by rw [variableNames, items, allVariableNames_eq children]
  | logical op left right _ => by
    have hop : Item.varName? (.operator op.operator) = none := rfl
    rw [variableNames, items, List.filterMap_append, List.filterMap_cons_none hop,
      sideVariableNames_eq left, sideVariableNames_eq right]
  | comparison left op right => by
    cases right with
    | some r => simp [variableNames, items, Operand.variableNames_eq]
    | none =>
      cases hunary : op.any Comparator.isUnary with
      | false => simp [variableNames, items, Operand.variableNames_eq, hunary]
      | true => simp [variableNames, items, Operand.variableNames_eq, hunary, Item.varName?]
  | set left _ values _ => by
    rw [variableNames, items, List.filterMap_append, ← Operand.variableNames_eq left,
      ← Operand.allVariableNames_eq values]

theorem allVariableNames_eq :
    (cs : List Condition) → allVariableNames cs = (allItems cs).filterMap Item.varName?
  | [] => rfl
  | c :: rest => by
    rw [allVariableNames, allItems, List.filterMap_append, variableNames_eq c,
      allVariableNames_eq rest]

theorem sideVariableNames_eq :
    (side : Option Condition) → sideVariableNames side = (sideItems side).filterMap Item.varName?
  | none => rfl
  | some c => by rw [sideVariableNames, sideItems, variableNames_eq c]

end

end Condition

end GuardedFlow
