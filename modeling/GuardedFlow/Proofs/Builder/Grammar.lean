import GuardedFlow.Condition.Builder.Basic
import GuardedFlow.Proofs.Condition.Normal

/-!
# The grammar of conditions

Which tokens write which operand and which condition. The relations are left-recursive where things
are read from left to right: a chain of operators, the values of a list, and the connectives of one
kind, which lean to the left. How a chain of arithmetic operators groups is left to
`Operand.Grouped`.
-/

namespace GuardedFlow.Grammar

mutual

/-- A word, a quoted text, or a call of the name that a word stands for. -/
inductive Primary : List Token → Operand → Prop where
  | word {t : Token} (ht : t.kind = .word) : Primary [t] (.ofWord t.text)
  | quoted {t : Token} (ht : t.kind = .quoted) : Primary [t] (.quoted t.text)
  | call {name opening closing : Token} {ts : List Token} {args : List Operand}
      (hname : Builder.isHeld name = true) (hopening : opening.kind = .delimiter .openParen)
      (hargs : Arguments ts args) (hclosing : closing.kind = .delimiter .closeParen) :
      Primary (name :: opening :: (ts ++ [closing])) (.call name.text args)

/-- What stands between the parentheses of a call. -/
inductive Arguments : List Token → List Operand → Prop where
  | none : Arguments [] []
  | some {ts : List Token} {args : List Operand} (hargs : Items ts args) : Arguments ts args

/-- A primary with signs in front. A minus sign in front of a number makes that number negative. -/
inductive Unary : List Token → Operand → Prop where
  | primary {ts : List Token} {o : Operand} (h : Primary ts o) : Unary ts o
  | flip {t : Token} {ts : List Token} {x : Number} (ht : t.kind = .operator .sub)
      (h : Unary ts (.literal (.number x))) : Unary (t :: ts) (.literal (.number x.neg))
  | neg {t : Token} {ts : List Token} {o : Operand} (ht : t.kind = .operator .sub) (h : Unary ts o)
      (ho : ∀ x, o ≠ .literal (.number x)) : Unary (t :: ts) (.unary .neg o)
  | bitNot {t : Token} {ts : List Token} {o : Operand} (ht : t.kind = .operator .bitNot)
      (h : Unary ts o) :
      Unary (t :: ts) (.unary .bitNot o)

/-- Operands with operators between them. -/
inductive Chain : List Token → Operand → List (BinaryOp × Operand) → Prop where
  | one {ts : List Token} {o : Operand} (h : Unary ts o) : Chain ts o []
  | more {ts us : List Token} {t : Token} {op : Operator} {binary : BinaryOp} {first o : Operand}
      {rest : List (BinaryOp × Operand)} (h : Chain ts first rest) (ht : t.kind = .operator op)
      (hop : BinaryOp.ofOperator? op = some binary) (ho : Unary us o) :
      Chain (ts ++ t :: us) first (rest ++ [(binary, o)])

/-- An operand: a chain of operators, grouped by precedence. -/
inductive Arithmetic : List Token → Operand → Prop where
  | grouped {ts : List Token} {first o : Operand} {rest : List (BinaryOp × Operand)}
      (h : Chain ts first rest) (ho : Operand.Grouped first rest o) : Arithmetic ts o

/-- Operands with commas between them. -/
inductive Items : List Token → List Operand → Prop where
  | one {ts : List Token} {o : Operand} (h : Arithmetic ts o) : Items ts [o]
  | more {ts us : List Token} {t : Token} {os : List Operand} {o : Operand} (h : Items ts os)
      (ht : t.kind = .separator) (ho : Arithmetic us o) : Items (ts ++ t :: us) (os ++ [o])

end

mutual

/-- A condition without connectives outside of parentheses. -/
inductive Atom : List Token → Condition → Prop where
  | group {opening closing : Token} {ts : List Token} {c : Condition}
      (hopening : opening.kind = .delimiter .openParen) (h : Disjunction ts c)
      (hclosing : closing.kind = .delimiter .closeParen) :
      Atom (opening :: (ts ++ [closing])) (.group [c] true)
  | comparison {ts us : List Token} {t : Token} {op : Operator} {comparator : Comparator}
      {left right : Operand} (hleft : Arithmetic ts left) (ht : t.kind = .operator op)
      (hop : Comparator.ofOperator? op = some comparator) (hright : Arithmetic us right)
      (hvariable : left.mentionsVariable = true) (hnull : right = .null → op ≠ .eq ∧ op ≠ .ne) :
      Atom (ts ++ t :: us) (.comparison left (some comparator) (some right))
  | isNull {ts us : List Token} {t : Token} {left : Operand} (hleft : Arithmetic ts left)
      (ht : t.kind = .operator .eq) (hright : Arithmetic us .null)
      (hvariable : left.mentionsVariable = true) :
      Atom (ts ++ t :: us) (.comparison left (some .isNull) none)
  | notNull {ts us : List Token} {t : Token} {left : Operand} (hleft : Arithmetic ts left)
      (ht : t.kind = .operator .ne) (hright : Arithmetic us .null)
      (hvariable : left.mentionsVariable = true) :
      Atom (ts ++ t :: us) (.comparison left (some .notNull) none)
  | member {word t opening closing : Token} {ts : List Token} {values : List Operand}
      {negated : Bool} (hword : Builder.isHeld word = true)
      (ht : t.kind = .operator (if negated then .ne else .eq))
      (hopening : opening.kind = .delimiter .openBrace) (h : Items ts values)
      (hclosing : closing.kind = .delimiter .closeBrace) :
      Atom (word :: t :: opening :: (ts ++ [closing]))
        (.set (.var word.text) (if negated then .notMember else .member) values true)
  | range {word t opening closing : Token} {ts : List Token} {values : List Operand}
      {negated : Bool} (hword : Builder.isHeld word = true)
      (ht : t.kind = .operator (if negated then .ne else .eq))
      (hopening : opening.kind = .delimiter .openBracket) (h : Items ts values)
      (hlength : 2 ≤ values.length) (hclosing : closing.kind = .delimiter .closeBracket) :
      Atom (word :: t :: opening :: (ts ++ [closing]))
        (.set (.var word.text) (if negated then .notInRange else .inRange) values true)

/-- Conditions joined by `&&`. -/
inductive Conjunction : List Token → Condition → Prop where
  | atom {ts : List Token} {c : Condition} (h : Atom ts c) : Conjunction ts c
  | and {ts us : List Token} {t : Token} {left right : Condition} (hleft : Conjunction ts left)
      (ht : t.kind = .operator .and) (hright : Atom us right) :
      Conjunction (ts ++ t :: us) (.logical .and (some left) (some right) true)

/-- Conditions joined by `||`, which binds less tightly than `&&`. -/
inductive Disjunction : List Token → Condition → Prop where
  | conjunction {ts : List Token} {c : Condition} (h : Conjunction ts c) : Disjunction ts c
  | or {ts us : List Token} {t : Token} {left right : Condition} (hleft : Disjunction ts left)
      (ht : t.kind = .operator .or) (hright : Conjunction us right) :
      Disjunction (ts ++ t :: us) (.logical .or (some left) (some right) true)

end

/-! ## Every chain is an operand -/

theorem Unary.isBinary_eq_false {ts : List Token} {o : Operand} (h : Unary ts o) :
    o.isBinary = false := by
  cases h with
  | primary h =>
    cases h with
    | word => exact (Operand.single_ofWord _).single
    | _ => rfl
  | _ => rfl

/-- The operands of a chain are no arithmetic themselves. -/
theorem Chain.isBinary_eq_false {ts : List Token} {first : Operand}
    {rest : List (BinaryOp × Operand)} :
    Chain ts first rest → first.isBinary = false ∧ ∀ p ∈ rest, p.2.isBinary = false
  | .one h => ⟨h.isBinary_eq_false, nofun⟩
  | .more h _ _ ho => by
    obtain ⟨hfirst, hrest⟩ := h.isBinary_eq_false
    refine ⟨hfirst, ?_⟩
    intro p hp
    rcases List.mem_append.1 hp with hp | hp
    · exact hrest p hp
    · cases List.mem_singleton.1 hp
      exact ho.isBinary_eq_false

/-- A chain is the operand that appending its operators builds, and no other. -/
theorem Chain.arithmetic {ts : List Token} {first : Operand} {rest : List (BinaryOp × Operand)}
    (h : Chain ts first rest) : Arithmetic ts (Operand.chain first rest) := by
  obtain ⟨hfirst, hrest⟩ := h.isBinary_eq_false
  exact .grouped h (Operand.grouped_chain hfirst hrest)

end GuardedFlow.Grammar
