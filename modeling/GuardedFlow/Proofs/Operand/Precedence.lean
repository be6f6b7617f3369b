import GuardedFlow.Operand.Basic

/-!
# Arithmetic by precedence

`Operand.Grouped first rest o` says that a tree `o` reads, from left to right, as an operand and
then pairs of an operator and an operand, and that it groups them by precedence: at each node, what
hangs on the left binds at least as tightly as the node and what hangs on the right more tightly.
Appending the pairs one by one with `Operand.extend` gives such a tree (`Operand.grouped_chain`),
and no other tree is one (`Operand.chain_of_grouped`).
-/

namespace GuardedFlow

namespace BinaryOp

theorem precedence_lt (op : BinaryOp) : op.precedence < 6 := by cases op <;> decide

end BinaryOp

namespace Operand

/-- How tightly an operand holds together: as its outermost operator, or more than any if it is no
arithmetic. -/
def tightness : Operand → Nat
  | binary _ op _ => op.precedence
  | _ => 6

/-- Whether an operand joins two others. -/
def isBinary : Operand → Bool
  | binary .. => true
  | _ => false

/-- A tree that reads as an operand followed by operators with their operands, grouped by precedence
and to the left. -/
inductive Grouped : Operand → List (BinaryOp × Operand) → Operand → Prop where
  | leaf {o : Operand} (ho : o.isBinary = false) : Grouped o [] o
  | node {first second left right : Operand} {before after : List (BinaryOp × Operand)}
      {op : BinaryOp} (hleft : Grouped first before left) (hright : Grouped second after right)
      (hleftTight : op.precedence ≤ left.tightness)
      (hrightTight : op.precedence < right.tightness) :
      Grouped first (before ++ (op, second) :: after) (binary left op right)

/-- The operand that appending operators with their operands one by one builds. -/
def chain (first : Operand) (rest : List (BinaryOp × Operand)) : Operand :=
  rest.foldl (fun o p => o.extend p.1 p.2) first

@[simp] theorem chain_nil (first : Operand) : chain first [] = first := rfl

@[simp] theorem chain_cons (first : Operand) (p : BinaryOp × Operand)
    (rest : List (BinaryOp × Operand)) :
    chain first (p :: rest) = chain (first.extend p.1 p.2) rest := rfl

theorem chain_append (first : Operand) (rest rest' : List (BinaryOp × Operand)) :
    chain first (rest ++ rest') = chain (chain first rest) rest' := List.foldl_append

theorem tightness_of_not_isBinary {o : Operand} (h : o.isBinary = false) : o.tightness = 6 := by
  cases o with
  | binary => exact absurd h.symm Bool.false_ne_true
  | _ => rfl

theorem extend_binary_of_lt {left right o : Operand} {op op' : BinaryOp}
    (h : op.precedence < op'.precedence) :
    (binary left op right).extend op' o = binary left op (right.extend op' o) := by
  rw [extend, if_pos h]

/-- An operator that binds no tighter than the operand before it takes all of it. -/
theorem extend_of_le {left o : Operand} {op : BinaryOp} (h : op.precedence ≤ left.tightness) :
    left.extend op o = binary left op o := by
  cases left with
  | binary l existing r =>
    have hle : op.precedence ≤ existing.precedence := h
    rw [extend, if_neg (Nat.not_lt.2 hle)]
  | _ => rfl

/-! ## Appending gives a grouping -/

/-- Appending loosens an operand at most to the operator that is appended. -/
theorem lt_tightness_extend {o o' : Operand} {op : BinaryOp} {n : Nat} (ho : n < o.tightness)
    (hop : n < op.precedence) : n < (o.extend op o').tightness := by
  cases o with
  | binary left existing right =>
    unfold extend
    split
    · exact ho
    · exact hop
  | _ => exact hop

theorem Grouped.extend {first o o' : Operand} {rest : List (BinaryOp × Operand)} {op : BinaryOp}
    (h : Grouped first rest o) (ho' : o'.isBinary = false) :
    Grouped first (rest ++ [(op, o')]) (o.extend op o') := by
  have hop : op.precedence < o'.tightness := by
    rw [tightness_of_not_isBinary ho']
    exact op.precedence_lt
  induction h with
  | @leaf o ho =>
    have htight : op.precedence ≤ o.tightness := by
      rw [tightness_of_not_isBinary ho]
      exact Nat.le_of_lt op.precedence_lt
    rw [extend_of_le htight]
    exact .node (.leaf ho) (.leaf ho') htight hop
  | @node first second left right before after existing hleft hright hleftTight hrightTight _ ih =>
    -- a tighter operator goes down the right side, any other takes the whole node
    by_cases hlt : existing.precedence < op.precedence
    · rw [extend_binary_of_lt hlt, List.append_assoc, List.cons_append]
      exact .node hleft ih hleftTight (lt_tightness_extend hrightTight hlt)
    · have hle : op.precedence ≤ (binary left existing right).tightness := Nat.not_lt.1 hlt
      rw [extend_of_le hle]
      exact .node (.node hleft hright hleftTight hrightTight) (.leaf ho') hle hop

/-- **Existence.** Appending operands that are no arithmetic themselves groups them by
precedence. -/
theorem grouped_chain {first : Operand} {rest : List (BinaryOp × Operand)}
    (hfirst : first.isBinary = false) (hrest : ∀ p ∈ rest, p.2.isBinary = false) :
    Grouped first rest (chain first rest) := by
  -- the tree so far is a grouping of the pairs so far
  have key : ∀ (before : List (BinaryOp × Operand)) (o : Operand), Grouped first before o →
      Grouped first (before ++ rest) (chain o rest) := by
    intro before o h
    induction rest generalizing before o with
    | nil =>
      rw [List.append_nil]
      exact h
    | cons p rest ih =>
      obtain ⟨hp, hrest⟩ := List.forall_mem_cons.1 hrest
      have hextend : Grouped first (before ++ [(p.1, p.2)]) (o.extend p.1 p.2) := h.extend hp
      have happend := ih hrest _ _ hextend
      rwa [List.append_assoc, List.singleton_append] at happend
  exact key [] first (.leaf hfirst)

/-! ## A grouping is what appending gives -/

/-- No operator of a grouping is looser than the outermost one. -/
theorem Grouped.tightness_le {first o : Operand} {rest : List (BinaryOp × Operand)}
    (h : Grouped first rest o) :
    ∀ p ∈ rest, o.tightness ≤ p.1.precedence := by
  induction h with
  | leaf => exact nofun
  | node _ _ hleftTight hrightTight ihleft ihright =>
    intro p hp
    rcases List.mem_append.1 hp with hp | hp
    · exact Nat.le_trans hleftTight (ihleft p hp)
    · rcases List.mem_cons.1 hp with rfl | hp
      · exact Nat.le_refl _
      · exact Nat.le_trans (Nat.le_of_lt hrightTight) (ihright p hp)

/-- Tighter operators all go to the right side. -/
theorem chain_binary {left right : Operand} {op : BinaryOp} {rest : List (BinaryOp × Operand)}
    (h : ∀ p ∈ rest, op.precedence < p.1.precedence) :
    chain (binary left op right) rest = binary left op (chain right rest) := by
  induction rest generalizing right with
  | nil => rfl
  | cons p rest ih =>
    obtain ⟨hp, hrest⟩ := List.forall_mem_cons.1 h
    rw [chain_cons, extend_binary_of_lt hp, ih hrest, chain_cons]

/-- **Uniqueness.** A grouping is the operand that appending builds. -/
theorem chain_of_grouped {first o : Operand} {rest : List (BinaryOp × Operand)}
    (h : Grouped first rest o) :
    chain first rest = o := by
  induction h with
  | leaf => rfl
  | @node first second left right before after op hleft hright hleftTight hrightTight
    ihleft ihright =>
    have hafter : ∀ p ∈ after, op.precedence < p.1.precedence := fun p hp =>
      Nat.lt_of_lt_of_le hrightTight (hright.tightness_le p hp)
    calc chain first (before ++ (op, second) :: after)
        = chain (chain first before) ((op, second) :: after) := chain_append _ _ _
      _ = chain (left.extend op second) after := by rw [ihleft, chain_cons]
      _ = chain (binary left op second) after := by rw [extend_of_le hleftTight]
      _ = binary left op right := by rw [chain_binary hafter, ihright]

end Operand

end GuardedFlow
