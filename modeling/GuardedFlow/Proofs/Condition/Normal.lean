import GuardedFlow.Condition.Builder.Pending
import GuardedFlow.Proofs.Condition.Defect
import GuardedFlow.Proofs.Operand.Precedence

/-!
# Normal forms

`Operand.Normal` and `Condition.Normal` say which trees stand for something that can be written
down, and for one thing only: arithmetic is grouped by precedence and to the left, signs stand
before single operands, `&&` binds tighter than `||`, chains of one connective lean to the left, and
nothing is left open. What is in normal form has no defects
(`Condition.Normal.treeDefect?_eq_none`).

Normal operands are kept when an operator is appended (`Operand.Normal.extend`) and when signs are
put in front (`Operand.Single.signed`); this is all that is done to operands while they are read.
-/

namespace GuardedFlow

namespace Operand

/-- An operand in normal form. Names are words that are read as variables. -/
inductive Normal : Operand → Prop where
  | var {name : String} (h : ofWord name = .var name) : Normal (.var name)
  | bool (b : Bool) : Normal (.literal (.bool b))
  | number (x : Number) : Normal (.literal (.number x))
  | string (s : String) : Normal (.literal (.string s))
  | null : Normal .null
  | binary {left right : Operand} {op : BinaryOp} (hleft : Normal left) (hright : Normal right)
      (hleftTight : op.precedence ≤ left.tightness)
      (hrightTight : op.precedence < right.tightness) :
      Normal (.binary left op right)
  | unary {op : UnaryOp} {o : Operand} (h : Normal o) (hsingle : o.isBinary = false)
      (hnumber : op = .neg → ∀ x, o ≠ .literal (.number x)) : Normal (.unary op o)
  | call {name : String} {args : List Operand} (hname : ofWord name = .var name)
      (hargs : ∀ a ∈ args, Normal a) : Normal (.call name args)

/-- An operand in normal form that is no arithmetic. -/
structure Single (o : Operand) : Prop where
  normal : o.Normal
  single : o.isBinary = false

/-- What a word can stand for. -/
theorem ofWord_cases (text : String) :
    ofWord text = .null ∨ (∃ b, ofWord text = .literal (.bool b)) ∨
    (∃ x, ofWord text = .literal (.number x)) ∨ ofWord text = .var text := by
  unfold ofWord
  by_cases hnull : text = "null"
  · exact .inl (if_pos hnull)
  · rw [if_neg hnull]
    by_cases htrue : text = "true"
    · exact .inr (.inl ⟨true, if_pos htrue⟩)
    · rw [if_neg htrue]
      by_cases hfalse : text = "false"
      · exact .inr (.inl ⟨false, if_pos hfalse⟩)
      · rw [if_neg hfalse]
        cases Number.parse? text with
        | none => exact .inr (.inr (.inr rfl))
        | some x =>
          cases text.toList.head?.any Char.isAlpha with
          | true => exact .inr (.inr (.inr (if_pos rfl)))
          | false => exact .inr (.inr (.inl ⟨x, if_neg Bool.false_ne_true⟩))

theorem ofWord_eq_var {text : String} (h : (ofWord text).isVariable = true) :
    ofWord text = .var text := by
  rcases ofWord_cases text with ho | ⟨b, ho⟩ | ⟨x, ho⟩ | ho
  · rw [ho] at h
    exact absurd h Bool.false_ne_true
  · rw [ho] at h
    exact absurd h Bool.false_ne_true
  · rw [ho] at h
    exact absurd h Bool.false_ne_true
  · exact ho

theorem single_ofWord (text : String) : Single (ofWord text) := by
  rcases ofWord_cases text with ho | ⟨b, ho⟩ | ⟨x, ho⟩ | ho
  · rw [ho]
    exact ⟨.null, rfl⟩
  · rw [ho]
    exact ⟨.bool b, rfl⟩
  · rw [ho]
    exact ⟨.number x, rfl⟩
  · have hvar : Single (.var text) := ⟨.var ho, rfl⟩
    rwa [ho]

theorem single_quoted (text : String) : Single (quoted text) := ⟨.string text, rfl⟩

theorem single_call {name : String} {args : List Operand} (hname : ofWord name = .var name)
    (hargs : ∀ a ∈ args, a.Normal) : Single (.call name args) := ⟨.call hname hargs, rfl⟩

variable {o o' : Operand}

theorem Single.unary {op : UnaryOp} (h : Single o)
    (hnumber : op = .neg → ∀ x, o ≠ .literal (.number x)) :
    Single (.unary op o) := ⟨.unary h.normal h.single hnumber, rfl⟩

theorem Single.signed (h : Single o) (sign : UnaryOp) : Single (o.signed sign) := by
  cases sign with
  | bitNot => exact h.unary nofun
  | neg =>
    by_cases hnumber : ∃ x, o = .literal (.number x)
    · obtain ⟨x, rfl⟩ := hnumber
      exact ⟨.number x.neg, rfl⟩
    · have hne : ∀ x, o ≠ .literal (.number x) := fun x hx => hnumber ⟨x, hx⟩
      rw [Operand.signed, negate]
      · exact h.unary fun _ => hne
      · exact hne

theorem Single.applySigns {p : Pending} (h : Single o) : Single (p.applySigns o) := by
  unfold Pending.applySigns
  induction p.signs generalizing o with
  | nil => exact h
  | cons sign signs ih => exact ih (h.signed sign)

/-- Appending an operator to an operand keeps the normal form: the operator goes where it
belongs. -/
theorem Normal.extend (h : o.Normal) {op : BinaryOp} (h' : Single o') :
    (o.extend op o').Normal := by
  have hop : op.precedence < o'.tightness := by
    rw [tightness_of_not_isBinary h'.single]
    exact op.precedence_lt
  have htakes : ∀ {o : Operand}, o.Normal → op.precedence ≤ o.tightness →
      (o.extend op o').Normal := by
    intro o ho hle
    rw [extend_of_le hle]
    exact .binary ho h'.normal hle hop
  have hself := h
  induction h with
  | @binary left right existing hleft hright hleftTight hrightTight _ ih =>
    by_cases hlt : existing.precedence < op.precedence
    · rw [extend_binary_of_lt hlt]
      exact .binary hleft (ih hright) hleftTight (lt_tightness_extend hrightTight hlt)
    · exact htakes hself (Nat.not_lt.1 hlt)
  | _ => exact htakes hself (Nat.le_of_lt op.precedence_lt)

end Operand

/-- Joining an operand to the one that is being read gives an operand in normal form. -/
theorem Pending.normal_combine {p : Pending} {current : Option Operand} {o x : Operand}
    (hcurrent : ∀ left, current = some left → left.Normal) (ho : o.Single)
    (h : p.combine current o = .ok x) :
    x.Normal := by
  unfold combine at h
  split at h
  · cases h
    exact ho.applySigns.normal
  · cases h
    exact (hcurrent _ rfl).extend ho.applySigns
  · cases h
  · cases h

namespace Condition

/-- The connective that joins the two sides of a condition, if it has sides. -/
def connective? : Condition → Option Connective
  | logical op .. => some op
  | _ => none

/-- A condition in normal form. -/
inductive Normal : Condition → Prop where
  | group {c : Condition} (h : Normal c) : Normal (.group [c] true)
  | and {left right : Condition} (hleft : Normal left) (hright : Normal right)
      (hleftOr : left.connective? ≠ some .or) (hrightJoined : right.connective? = none) :
      Normal (.logical .and (some left) (some right) true)
  | or {left right : Condition} (hleft : Normal left) (hright : Normal right)
      (hrightOr : right.connective? ≠ some .or) :
      Normal (.logical .or (some left) (some right) true)
  | comparison {left : Operand} {op : Comparator} {right : Option Operand} (hleft : left.Normal)
      (hright : ∀ r, right = some r → r.Normal) (hvariable : left.mentionsVariable = true)
      (hunary : right = none ↔ op.isUnary = true)
      (hnull : right = some .null → op ≠ .eq ∧ op ≠ .ne) :
      Normal (.comparison left (some op) right)
  | set {name : String} {op : SetOperator} {values : List Operand}
      (hname : Operand.ofWord name = .var name) (hvalues : ∀ v ∈ values, v.Normal)
      (hne : values ≠ []) (hrange : op.isRange = true → 2 ≤ values.length) :
      Normal (.set (.var name) op values true)

/-- **No defects.** A tree in normal form is complete and closed throughout. -/
theorem Normal.treeDefect?_eq_none {c : Condition} (h : c.Normal) : c.treeDefect? = none := by
  induction h with
  | group _ ih => simp [treeDefect?, defect?, childrenDefect?, ih]
  | and _ _ _ _ ihleft ihright => simp [treeDefect?, defect?, sideDefect?, ihleft, ihright]
  | or _ _ _ ihleft ihright => simp [treeDefect?, defect?, sideDefect?, ihleft, ihright]
  | comparison _ _ hvariable hunary =>
    exact treeDefect?_comparison_eq_none_iff.2 ⟨hvariable, hunary⟩
  | set _ _ hne hrange =>
    exact treeDefect?_set_eq_none_iff.2 ⟨rfl, setDefect?_eq_none_iff.2 ⟨rfl, hne, hrange⟩⟩

end Condition

end GuardedFlow
