import GuardedFlow.Proofs.Operand.Precedence

/-!
# Precedence climbing

What appending operators one by one builds is told by two things that do not mention how it is
built: what the tree reads as from left to right (`Operand.reading`), and that at each of its nodes
an operator on the left binds at least as tightly as the node, and one on the right more tightly
(`Operand.Layered`). Appending builds such a tree, and there is no other one with that reading
(`Operand.eq_chain_iff`).

`Operand.Grouped` follows both along the tree; `Operand.grouped_iff` takes them apart.
-/

namespace GuardedFlow.Operand

/-- What a tree of binary operators reads as from left to right: an operand, and then each operator
with the operand after it. Nothing but binary operators is opened. -/
def reading : Operand → Operand × List (BinaryOp × Operand)
  | binary left op right =>
    (left.reading.1, left.reading.2 ++ (op, right.reading.1) :: right.reading.2)
  | o => (o, [])

/-- The binary operator on top of an operand. -/
def top? : Operand → Option BinaryOp
  | binary _ op _ => some op
  | _ => none

/-- A tree in which looser binary operators are above tighter ones, and those of one strength lean
to the left. -/
def Layered : Operand → Prop
  | binary left op right => left.Layered ∧ right.Layered ∧
      (∀ op', left.top? = some op' → op.precedence ≤ op'.precedence) ∧
      ∀ op', right.top? = some op' → op.precedence < op'.precedence
  | _ => True

variable {first o : Operand} {rest : List (BinaryOp × Operand)} {op : BinaryOp}

theorem reading_of_not_isBinary (h : o.isBinary = false) : o.reading = (o, []) := by
  cases o with
  | binary => cases h
  | _ => rfl

theorem layered_of_not_isBinary (h : o.isBinary = false) : o.Layered := by
  cases o with
  | binary => cases h
  | _ => trivial

/-! ## Groupings -/

theorem le_tightness_iff :
    op.precedence ≤ o.tightness ↔ ∀ op', o.top? = some op' → op.precedence ≤ op'.precedence := by
  cases o with
  | binary left existing right =>
    exact ⟨fun h _ hop' => Option.some.inj hop' ▸ h, fun h => h existing rfl⟩
  | _ => exact ⟨fun _ => nofun, fun _ => Nat.le_of_lt op.precedence_lt⟩

theorem lt_tightness_iff :
    op.precedence < o.tightness ↔ ∀ op', o.top? = some op' → op.precedence < op'.precedence := by
  cases o with
  | binary left existing right =>
    exact ⟨fun h _ hop' => Option.some.inj hop' ▸ h, fun h => h existing rfl⟩
  | _ => exact ⟨fun _ => nofun, fun _ => op.precedence_lt⟩

theorem Grouped.reading_eq (h : Grouped first rest o) : o.reading = (first, rest) := by
  induction h with
  | leaf ho => exact reading_of_not_isBinary ho
  | node _ _ _ _ ihleft ihright => rw [reading, ihleft, ihright]

theorem Grouped.layered (h : Grouped first rest o) : o.Layered := by
  induction h with
  | leaf ho => exact layered_of_not_isBinary ho
  | node _ _ hleftTight hrightTight ihleft ihright =>
    exact ⟨ihleft, ihright, le_tightness_iff.1 hleftTight, lt_tightness_iff.1 hrightTight⟩

theorem Layered.grouped (h : o.Layered) : Grouped o.reading.1 o.reading.2 o := by
  induction o using reading.induct with
  | case1 left op right ihleft ihright =>
    obtain ⟨hleft, hright, hleftTight, hrightTight⟩ := h
    exact .node (ihleft hleft) (ihright hright) (le_tightness_iff.2 hleftTight)
      (lt_tightness_iff.2 hrightTight)
  | case2 o hne =>
    have ho : o.isBinary = false := by
      cases o with
      | binary left op right => exact absurd rfl (hne left op right)
      | _ => rfl
    rw [reading_of_not_isBinary ho]
    exact .leaf ho

/-- Nothing that a grouping joins is a binary operator itself. -/
theorem Grouped.not_isBinary (h : Grouped first rest o) :
    first.isBinary = false ∧ ∀ p ∈ rest, p.2.isBinary = false := by
  induction h with
  | leaf ho => exact ⟨ho, nofun⟩
  | node _ _ _ _ ihleft ihright =>
    obtain ⟨hfirst, hbefore⟩ := ihleft
    obtain ⟨hsecond, hafter⟩ := ihright
    exact ⟨hfirst, List.forall_mem_append.2 ⟨hbefore, List.forall_mem_cons.2 ⟨hsecond, hafter⟩⟩⟩

/-- A grouping is a layered tree with the given reading. -/
theorem grouped_iff : Grouped first rest o ↔ o.reading = (first, rest) ∧ o.Layered := by
  constructor
  · exact fun h => ⟨h.reading_eq, h.layered⟩
  · rintro ⟨hreading, hlayered⟩
    have hgrouped := hlayered.grouped
    rwa [hreading] at hgrouped

/-! ## Appending -/

/-- A layered tree is continued by what is appended to it. -/
theorem eq_chain_iff_of_layered (hfirst : first.Layered)
    (hrest : ∀ p ∈ rest, p.2.isBinary = false) :
    o = chain first rest ↔ o.reading = (first.reading.1, first.reading.2 ++ rest) ∧ o.Layered := by
  obtain ⟨hhead, htail⟩ := hfirst.grouped.not_isBinary
  have hall : ∀ p ∈ first.reading.2 ++ rest, p.2.isBinary = false :=
    List.forall_mem_append.2 ⟨htail, hrest⟩
  have hchain : chain first rest = chain first.reading.1 (first.reading.2 ++ rest) := by
    rw [chain_append, chain_of_grouped hfirst.grouped]
  rw [← grouped_iff, hchain]
  constructor
  · rintro rfl
    exact grouped_chain hhead hall
  · exact fun h => (chain_of_grouped h).symm

/-- **Precedence climbing.** Appending operators with operands that are no arithmetic themselves,
one by one, builds the layered tree that reads as they come, and that is the only one. -/
theorem eq_chain_iff (hfirst : first.isBinary = false) (hrest : ∀ p ∈ rest, p.2.isBinary = false) :
    o = chain first rest ↔ o.reading = (first, rest) ∧ o.Layered := by
  have hiff := eq_chain_iff_of_layered (o := o) (layered_of_not_isBinary hfirst) hrest
  rwa [reading_of_not_isBinary hfirst] at hiff

/-- What follows `a` in `a | b - c * -(x + y) - d << e`, where a sign keeps the arithmetic behind it
together. -/
def slopes : List (BinaryOp × Operand) :=
  [(.bitOr, var "b"), (.sub, var "c"), (.mul, unary .neg (binary (var "x") .add (var "y"))),
    (.sub, var "d"), (.shl, var "e")]

theorem eq_chain_iff_slopes :
    binary (var "a") .bitOr (binary (binary (binary (var "b") .sub
      (binary (var "c") .mul (unary .neg (binary (var "x") .add (var "y"))))) .sub (var "d"))
      .shl (var "e")) = chain (var "a") slopes ∧
    (chain (var "a") slopes).reading = (var "a", slopes) ∧ (chain (var "a") slopes).Layered :=
  ⟨rfl, (eq_chain_iff rfl (by decide)).1 rfl⟩

end GuardedFlow.Operand
