import GuardedFlow.Proofs.Operand.Printed

/-!
# Printed conditions

The text of a condition in normal form writes tokens that derive an equal condition
(`Condition.writes_text`). Connectives are printed without parentheses; that chains of them read
back as they are is due to the normal form, in which `&&` has no connective on its right and none
but `&&` on its left, and `||` none but `&&` on its right.
-/

namespace GuardedFlow

open Token Grammar

namespace Comparator

/-- The operator that is written for a comparison. -/
def operator : Comparator → Operator
  | eq | isNull => .eq
  | ne | notNull => .ne
  | gt => .gt
  | ge => .ge
  | lt => .lt
  | le => .le

theorem symbol_of_isUnary {op : Comparator} (h : op.isUnary = true) :
    op.symbol = op.operator.symbol ++ " null" := by
  cases op <;> first | rfl | cases h

theorem symbol_of_not_isUnary {op : Comparator} (h : op.isUnary = false) :
    op.symbol = op.operator.symbol ∧ ofOperator? op.operator = some op := by
  cases op <;> first | exact ⟨rfl, rfl⟩ | cases h

theorem operator_ne {op : Comparator} (hunary : op.isUnary = false) (h : op ≠ .eq ∧ op ≠ .ne) :
    op.operator ≠ .eq ∧ op.operator ≠ .ne := by
  cases op with
  | eq => exact absurd rfl h.1
  | ne => exact absurd rfl h.2
  | isNull | notNull => cases hunary
  | _ => exact ⟨nofun, nofun⟩

end Comparator

namespace Condition

/-- The text writes tokens of an equal condition, which is a chain of `&&` unless it is joined by
`||`, and stands alone unless it is joined at all. -/
def WritesSelf (c : Condition) : Prop :=
  Writes c.text.toList fun ts => ∃ c', c.equals c' = true ∧ Disjunction ts c' ∧
    (c.connective? ≠ some .or → Conjunction ts c') ∧ (c.connective? = none → Atom ts c')

theorem writesSelf_of_atom {c : Condition}
    (h : Writes c.text.toList fun ts => ∃ c', c.equals c' = true ∧ Atom ts c') : WritesSelf c := by
  refine h.imp fun ts => ?_
  rintro ⟨c', hequals, hatom⟩
  exact ⟨c', hequals, .conjunction (.atom hatom), fun _ => .atom hatom, fun _ => hatom⟩

/-! ## Comparisons -/

variable {left : Operand} {op : Comparator} {right : Option Operand}

theorem writes_comparison {r : Operand} (hleft : left.Normal) (hr : r.Normal)
    (hp : Printable (comparison left (some op) (some r)).items)
    (hvariable : left.mentionsVariable = true) (hunary : op.isUnary = false)
    (hnull : r = .null → op ≠ .eq ∧ op ≠ .ne) :
    Writes (comparison left (some op) (some r)).text.toList fun ts =>
      ∃ c', (comparison left (some op) (some r)).equals c' = true ∧ Atom ts c' := by
  obtain ⟨hsymbol, hoperator⟩ := Comparator.symbol_of_not_isUnary hunary
  have hpleft : Printable left.items := hp.mono fun i hi => by
    rw [items]
    exact List.mem_append_left _ hi
  have hpr : Printable r.items := hp.mono fun i hi => by
    rw [items]
    exact List.mem_append_right _ hi
  have htext : (comparison left (some op) (some r)).text.toList =
      left.text.toList ++ (' ' :: (op.operator.symbol.toList ++ [' ']) ++ r.text.toList) := by
    simp [text, hsymbol]
  rw [htext]
  refine ((Operand.writes_text hleft hpleft).between (Operand.writes_text hr hpr) op.operator).imp
    fun ts => ?_
  rintro ⟨us, t, us', rfl, ⟨left', hleft', hus⟩, ht, r', hr', hus'⟩
  refine ⟨comparison left' (some op) (some r'), ?_, ?_⟩
  · simp [equals, Operand.sidesEqual, hleft', hr']
  · refine .comparison (Operand.arithmetic_of_unary hus) ht hoperator
      (Operand.arithmetic_of_unary hus') ?_ ?_
    · rw [Operand.mentionsVariable_of_equals hleft', hvariable]
    · rintro rfl
      exact Comparator.operator_ne hunary (hnull (Operand.eq_null_of_equals hr'))

theorem writes_nullTest (hleft : left.Normal)
    (hp : Printable (comparison left (some op) none).items)
    (hvariable : left.mentionsVariable = true) (hunary : op.isUnary = true) :
    Writes (comparison left (some op) none).text.toList fun ts =>
      ∃ c', (comparison left (some op) none).equals c' = true ∧ Atom ts c' := by
  have hpleft : Printable left.items := hp.mono fun i hi => by
    rw [items]
    exact List.mem_append_left _ hi
  have hnull : Writes "null".toList fun ts => Unary ts .null :=
    Operand.writes_word_unary ⟨by decide, by decide⟩
  have htext : (comparison left (some op) none).text.toList =
      left.text.toList ++ (' ' :: (op.operator.symbol.toList ++ [' ']) ++ "null".toList) := by
    simp [text, Comparator.symbol_of_isUnary hunary]
  rw [htext]
  refine ((Operand.writes_text hleft hpleft).between hnull op.operator).imp fun ts => ?_
  rintro ⟨us, t, us', rfl, ⟨left', hleft', hus⟩, ht, hus'⟩
  refine ⟨comparison left' (some op) none, by simp [equals, Operand.sidesEqual, hleft'], ?_⟩
  have hvariable' : left'.mentionsVariable = true := by
    rw [Operand.mentionsVariable_of_equals hleft', hvariable]
  have hus := Operand.arithmetic_of_unary hus
  have hus' := Operand.arithmetic_of_unary hus'
  cases op with
  | isNull => exact .isNull hus ht hus' hvariable'
  | notNull => exact .notNull hus ht hus' hvariable'
  | _ => cases hunary

/-! ## Set tests -/

/-- The operator that is written for a set test. -/
def setSign (op : SetOperator) : Operator := if op.isNegated then .ne else .eq

theorem atom_set {word t opening closing : Token} {ts : List Token} {op : SetOperator}
    {values : List Operand} (hword : Builder.isHeld word = true)
    (ht : t.kind = .operator (setSign op)) (hopening : opening.kind = .delimiter op.delimiters.1)
    (h : Items ts values) (hrange : op.isRange = true → 2 ≤ values.length)
    (hclosing : closing.kind = .delimiter op.delimiters.2) :
    Atom (word :: t :: opening :: (ts ++ [closing])) (.set (.var word.text) op values true) := by
  cases op with
  | member => exact @Atom.member _ _ _ _ _ _ false hword ht hopening h hclosing
  | notMember => exact @Atom.member _ _ _ _ _ _ true hword ht hopening h hclosing
  | inRange => exact @Atom.range _ _ _ _ _ _ false hword ht hopening h (hrange rfl) hclosing
  | notInRange => exact @Atom.range _ _ _ _ _ _ true hword ht hopening h (hrange rfl) hclosing

theorem writes_set {name : String} {op : SetOperator} {values : List Operand}
    (hname : Operand.ofWord name = .var name) (hvalues : ∀ v ∈ values, v.Normal) (hne : values ≠ [])
    (hrange : op.isRange = true → 2 ≤ values.length)
    (hp : Printable (set (.var name) op values true).items) :
    Writes (set (.var name) op values true).text.toList fun ts =>
      ∃ c', (set (.var name) op values true).equals c' = true ∧ Atom ts c' := by
  have hword : Word name.toList :=
    hp.word name (.inl (by rw [items]; exact List.mem_append_left _ List.mem_cons_self))
  have hitems : ∀ v ∈ values, Writes v.text.toList fun ts => ∃ v', v.equals v' = true ∧
      Arithmetic ts v' := by
    intro v hv
    have hpv : Printable v.items := hp.mono fun i hi => by
      rw [items]
      exact List.mem_append_right _ (Operand.mem_allItems hv i hi)
    exact (Operand.writes_text (hvalues v hv) hpv).imp fun ts ⟨v', hv', hts⟩ =>
      ⟨v', hv', Operand.arithmetic_of_unary hts⟩
  have htext : (set (.var name) op values true).text.toList =
      name.toList ++ (' ' :: ((setSign op).symbol.toList ++ [' ']) ++
      (op.delimiters.1.char :: ((Operand.commaText values).toList ++ [op.delimiters.2.char]))) := by
    cases op <;> simp [text, Operand.text, setSign, SetOperator.isNegated, Operator.symbol]
  have hvalues := (Operand.writes_commaText hne hitems).enclosed op.delimiters.1 op.delimiters.2
  rw [htext]
  refine ((writes_word hword).between hvalues (setSign op)).imp fun ts => ?_
  rintro ⟨_, t, _, rfl, ⟨offset, rfl⟩, ht, opening, us, closing, rfl, hopening,
    ⟨values', hequals, hus⟩, hclosing⟩
  rw [String.ofList_toList]
  refine ⟨set (.var name) op values' true, by simp [equals, Operand.equals, hequals], ?_⟩
  have hrange' : op.isRange = true → 2 ≤ values'.length := by
    rw [Operand.length_eq_of_allEqual hequals]
    exact hrange
  exact atom_set (Operand.isHeld_word hname) ht hopening hus hrange' hclosing

/-! ## Connectives -/

theorem toList_text_logical (op : Connective) (left right : Condition) (closed : Bool) :
    (logical op (some left) (some right) closed).text.toList =
      left.text.toList ++ (' ' :: (op.operator.symbol.toList ++ [' ']) ++ right.text.toList) := by
  cases op <;> simp [text, sideText, Connective.symbol, Connective.operator, Operator.symbol]

theorem printable_sides {op : Connective} {left right : Condition} {closed : Bool}
    (hp : Printable (logical op (some left) (some right) closed).items) :
    Printable left.items ∧ Printable right.items := by
  rw [items, sideItems, sideItems] at hp
  exact ⟨hp.mono fun i hi => List.mem_append_left _ hi,
    hp.mono fun i hi => List.mem_append_right _ (List.mem_cons_of_mem _ hi)⟩

/-- The text of a condition in normal form writes tokens of an equal condition. -/
theorem writes_text {c : Condition} (h : c.Normal) (hp : Printable c.items) : WritesSelf c := by
  induction h with
  | @group c hc ih =>
    rw [items, allItems_singleton] at hp
    have htext : (group [c] true).text.toList = '(' :: (c.text.toList ++ [')']) := by
      simp [text, childrenText]
    refine writesSelf_of_atom ?_
    rw [htext]
    refine ((ih hp).enclosed .openParen .closeParen).imp fun ts => ?_
    rintro ⟨t, us, t', rfl, ht, ⟨c', hequals, hus, -, -⟩, ht'⟩
    exact ⟨group [c'] true, by simp [equals, allEqual, hequals], .group ht hus ht'⟩
  | @and left right _ _ hleftOr hrightJoined ihleft ihright =>
    obtain ⟨hpleft, hpright⟩ := printable_sides hp
    unfold WritesSelf
    rw [toList_text_logical]
    refine ((ihleft hpleft).between (ihright hpright) .and).imp fun ts => ?_
    rintro ⟨us, t, us', rfl, ⟨left', hleft', -, hus, -⟩, ht, right', hright', -, -, hus'⟩
    have hconjunction := Conjunction.and (hus hleftOr) ht (hus' hrightJoined)
    exact ⟨logical .and (some left') (some right') true,
      by simp [equals, sidesEqual, hleft', hright'], .conjunction hconjunction,
      fun _ => hconjunction, nofun⟩
  | @or left right _ _ hrightOr ihleft ihright =>
    obtain ⟨hpleft, hpright⟩ := printable_sides hp
    unfold WritesSelf
    rw [toList_text_logical]
    refine ((ihleft hpleft).between (ihright hpright) .or).imp fun ts => ?_
    rintro ⟨us, t, us', rfl, ⟨left', hleft', hus, -, -⟩, ht, right', hright', -, hus', -⟩
    exact ⟨logical .or (some left') (some right') true,
      by simp [equals, sidesEqual, hleft', hright'], .or hus ht (hus' hrightOr),
      fun h => absurd rfl h, nofun⟩
  | @comparison left op right hleft hright hvariable hunary hnull =>
    cases right with
    | none => exact writesSelf_of_atom (writes_nullTest hleft hp hvariable (hunary.1 rfl))
    | some r =>
      have hunary' : op.isUnary = false := Bool.eq_false_iff.2 fun hop => by cases hunary.2 hop
      refine writesSelf_of_atom (writes_comparison hleft (hright r rfl) hp hvariable hunary' ?_)
      rintro rfl
      exact hnull rfl
  | set hname hvalues hne hrange =>
    exact writesSelf_of_atom (writes_set hname hvalues hne hrange hp)

end Condition

end GuardedFlow
