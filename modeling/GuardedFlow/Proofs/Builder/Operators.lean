import GuardedFlow.Proofs.Builder.Delimiters

/-!
# Operators and what follows them

In a list of tokens that is a condition, delimiters are nested and operators are followed by
something to apply to, with one exception: a sign that comes after a condition has been closed, by
`)`, `]` or `}`, is taken in although no operand can follow it (`Token.Dangling`).
`Condition.operators_of_ofTokens` says that there is no other exception, and that every such sign is
one.

After an operator the state asks for an operand (`Builder.Asks`); the exception is that an operator
can leave the state `Builder.Complete`, and only a sign in a complete state does.
-/

namespace GuardedFlow

/-- Whether an operator can stand in front of one operand. -/
def Operator.isSign (op : Operator) : Bool := op == .sub || op == .bitNot

theorem Operator.isSign_iff {op : Operator} : op.isSign = true ↔ op = .sub ∨ op = .bitNot := by
  rw [isSign, Bool.or_eq_true, beq_iff_eq, beq_iff_eq]

namespace Token

/-- Whether a token is `-` or `~`. -/
def isSign (t : Token) : Bool := t.operator?.any Operator.isSign

/-- Whether a token can start an operand. -/
def startsOperand (t : Token) : Bool := t.kind == .word || t.kind == .quoted || t.isSign

/-- Whether a token can stand directly after an operator: the start of an operand, and also a value
list after `=` and `!=`, and a group after a connective. -/
def follows (op : Operator) (t : Token) : Bool :=
  t.startsOperand ||
    ((op == .eq || op == .ne) &&
      (t.kind == .delimiter .openBrace || t.kind == .delimiter .openBracket)) ||
    (op.isLogical && t.kind == .delimiter .openParen)

/-- Tokens that end with the closing delimiter of a condition: of a value list, or of parentheses
that do not enclose the arguments of a call. -/
inductive EndsCondition : List Token → Prop where
  | intro {before inner : List Token} {opening closing : Token} {d : Delimiter}
      (hd : d.isOpen = true) (hopening : opening.kind = .delimiter d) (hinner : Nested inner)
      (hclosing : closing.kind = .delimiter d.closing)
      (hcall : d = .openParen → before.getLast?.filter Builder.isHeld = none) :
      EndsCondition (before ++ opening :: (inner ++ [closing]))

/-- Tokens that end a condition, and then nothing but signs. -/
def Dangling (ts : List Token) : Prop :=
  ∃ before signs, ts = before ++ signs ∧ EndsCondition before ∧ ∀ t ∈ signs, t.isSign = true

/-- Every operator is directly followed by something to apply to. -/
def OperatorsFollowed (ts : List Token) : Prop :=
  ∀ before t after op, ts = before ++ t :: after → t.kind = .operator op →
    after.head?.any (follows op) = true

/-- A sign stands directly after the closing delimiter of a condition. -/
def SignAfterCondition (ts : List Token) : Prop :=
  ∃ before t after, ts = before ++ t :: after ∧ t.isSign = true ∧ EndsCondition before

variable {t : Token} {op : Operator}

theorem isSign_of_kind (ht : t.kind = .operator op) : t.isSign = op.isSign := by
  rw [isSign, operator?, ht, Option.any_some]

theorem kind_of_isSign (ht : t.isSign = true) : ∃ op, t.kind = .operator op ∧ op.isSign = true := by
  unfold isSign operator? at ht
  split at ht
  · next op hkind => exact ⟨op, hkind, ht⟩
  · exact absurd ht (by simp)

theorem startsOperand_of_word (ht : t.kind = .word) : t.startsOperand = true := by
  rw [startsOperand, ht]
  rfl

theorem follows_of_startsOperand (ht : t.startsOperand = true) : t.follows op = true := by
  rw [follows, ht]
  rfl

theorem startsOperand_of_isSign (ht : t.isSign = true) : t.startsOperand = true := by
  rw [startsOperand, ht, Bool.or_true]

theorem role_of_startsOperand (ht : t.startsOperand = true) :
    (∃ o, Role.ofToken t = .operand o) ∨ (∃ op, Role.ofToken t = .math op) ∧ t.isSign = true := by
  rw [startsOperand, Bool.or_eq_true, Bool.or_eq_true, beq_iff_eq, beq_iff_eq] at ht
  rcases ht with (ht | ht) | ht
  · exact .inl ⟨.ofWord t.text, by rw [Role.ofToken, ht]⟩
  · exact .inl ⟨.quoted t.text, by rw [Role.ofToken, ht]⟩
  · obtain ⟨op, hop⟩ := kind_of_isSign ht
    refine .inr ⟨?_, ht⟩
    rcases Operator.isSign_iff.1 hop.2 with rfl | rfl
    · exact ⟨.sub, by rw [Role.ofToken, hop.1]⟩
    · exact ⟨.bitNot, by rw [Role.ofToken, hop.1]⟩

/-- After a sign, only the start of an operand can stand. -/
theorem startsOperand_of_follows (hop : op.isSign = true) (ht : t.follows op = true) :
    t.startsOperand = true := by
  rcases Operator.isSign_iff.1 hop with rfl | rfl
  all_goals simpa [follows, Operator.isLogical] using ht

end Token

namespace Pending

/-- Only a sign is taken in where an operand is to come. -/
theorem push_true_eq_ok {p p' : Pending} {op : Operator} (h : p.push true op = .ok p') :
    op.isSign = true ∧ p'.binary = p.binary ∧ p' ≠ .idle := by
  unfold push at h
  rw [if_pos rfl] at h
  split at h
  · cases h
    exact ⟨rfl, rfl, fun hidle => absurd (congrArg signs hidle) (List.cons_ne_nil _ _)⟩
  · cases h
    exact ⟨rfl, rfl, fun hidle => absurd (congrArg signs hidle) (List.cons_ne_nil _ _)⟩
  · cases h

theorem push_false_eq_ok {p p' : Pending} {op : Operator} (h : p.push false op = .ok p') :
    ∃ binary, p'.binary = some binary ∧ BinaryOp.ofOperator? op = some binary := by
  unfold push at h
  rw [if_neg Bool.false_ne_true] at h
  split at h
  · cases h
  · split at h
    · next binary hop =>
      cases h
      exact ⟨binary, rfl, hop⟩
    · cases h

end Pending

namespace Frame

variable {offset : Nat} {pending : Pending} {stack below : List Frame} {children : List Condition}

/-- A comparison is not closed while an operator waits. -/
theorem settle_of_waiting (hpending : pending ≠ .idle)
    (h : settle offset pending stack = .ok (group children :: below)) :
    stack = group children :: below := by
  rcases settle_cases h with hstack | ⟨_, _, _, _, _, hidle, _⟩
  · exact hstack.symm
  · exact absurd hidle hpending

/-- A comparison is not closed without its right side. -/
theorem settle_side {left : Operand} {c : Comparator} (hc : c.isUnary = false) :
    settle offset pending (comparison left (some c) none :: below) ≠ .ok stack := by
  intro h
  have hnull : nullTest (some c) none = (some c, none) := by cases c <;> rfl
  obtain ⟨-, op', right', hnull', hdefect, -⟩ := settle_comparison_eq_ok.1 h
  cases hnull.symm.trans hnull'
  have hunary := (Condition.comparisonDefect?_eq_none_iff.1 hdefect).2.1 rfl
  exact Bool.false_ne_true (hc.symm.trans hunary)

/-- A connective waits for its right side. -/
theorem joined_eq_cons (op : Connective) (last : Condition) :
    ∃ o left below, joined op last = logical o left :: below := by
  unfold joined
  split
  · exact ⟨_, _, _, rfl⟩
  · exact ⟨_, _, _, rfl⟩

end Frame

namespace Builder

/-! ## Comparisons without an operator -/

/-- A comparison has no right side before it has an operator. -/
def LeftFirst (stack : List Frame) : Prop :=
  ∀ left right below, stack = .comparison left none right :: below → right = none

section LeftFirst

variable {b b' : Builder} {t : Token}

theorem leftFirst_fill (hb : LeftFirst b.stack) (o : Operand) : LeftFirst (b.fill o).stack := by
  obtain ⟨stack, previous, held, calls, pending, expectsValue⟩ := b
  cases calls with
  | cons call outer => exact hb
  | nil =>
    intro left right below hstack
    induction stack using stack_cases with
    | comparison left' op right' below' =>
      cases op with
      | some op => exact absurd hstack (by simp [fill, fillFrame])
      | none =>
        cases hb left' right' below' rfl
        cases hstack
        rfl
    | set left' op values below' => exact absurd hstack (by simp [fill, fillFrame])
    | _ =>
      cases hstack
      rfl

theorem leftFirst_wait (hb : LeftFirst b.stack) (p : Pending) : LeftFirst (b.wait p).stack := by
  obtain ⟨stack, previous, held, calls, pending, expectsValue⟩ := b
  cases calls with
  | cons call outer => exact hb
  | nil =>
    induction stack using stack_cases with
    | nil => exact fun _ _ _ h => absurd h (by simp [wait, base])
    | _ => exact hb

theorem leftFirst_of_attach {offset : Nat} {c : Condition} {below stack : List Frame}
    (hattach : Frame.attach offset c below = .ok stack) : LeftFirst stack := by
  obtain ⟨-, children, last, below', rfl⟩ := Frame.attach_eq_ok hattach
  exact fun _ _ _ h => absurd h (by simp)

theorem leftFirst_of_move (hb : LeftFirst b.stack) (h : Move b t b') : LeftFirst b'.stack := by
  cases h with
  | hold | argument | value => exact hb
  | operand => exact leftFirst_fill hb _
  | closeCall =>
    refine leftFirst_fill ?_ _
    exact hb
  | math => exact leftFirst_wait hb _
  | compare | openGroup | openSet => exact fun _ _ _ h => absurd h (by simp)
  | connective =>
    intro _ _ _ h
    unfold Frame.joined at h
    dsimp only at h
    split at h <;> exact absurd h (by simp)
  | closeGroup _ _ _ _ _ hattach => exact leftFirst_of_attach hattach
  | closeSet _ _ _ _ _ _ hattach => exact leftFirst_of_attach hattach

theorem leftFirst_of_release (hb : LeftFirst b.stack) (h : b.release = .ok b') :
    LeftFirst b'.stack := by
  rcases release_eq_ok.1 h with ⟨-, rfl⟩ | ⟨word, x, -, -, -, rfl⟩
  · exact hb
  · refine leftFirst_fill ?_ x
    exact hb

theorem leftFirst_of_feedAll {ts : List Token} (h : empty.feedAll ts = .ok b) :
    LeftFirst b.stack := by
  refine feedAll_induction (motive := fun b _ => LeftFirst b.stack) (fun _ _ _ h => by cases h) ?_ h
  intro b b' _ t _ hfeed hb
  cases feed_iff.1 hfeed with
  | call => exact hb
  | move _ hrelease hmove =>
    have hmoved := leftFirst_of_move (leftFirst_of_release hb hrelease) hmove
    exact hmoved

end LeftFirst

/-! ## After an operator -/

/-- The state after an operator: an operand has to come, or the right side of a comparison or of a
connective. -/
inductive Asks (op : Operator) (b : Builder) : Prop where
  | operand (hwaiting : b.waiting ≠ .idle) (hexpects : b.expectsOperand = true)
      (hopen : ¬ b.Complete)
  | side {c : Comparator} {left : Operand} {below : List Frame} (hc : c.isUnary = false)
      (hcalls : b.calls = []) (hstack : b.stack = .comparison left (some c) none :: below)
      (hprevious : b.previous.bind Token.operator? = some op)
  | condition {o : Connective} {left : Condition} {below : List Frame} (hop : op.isLogical = true)
      (hcalls : b.calls = []) (hstack : b.stack = .logical o left :: below)

section Asks

variable {b b' : Builder} {t : Token} {op : Operator}

/-- A state is complete once something stands in its outermost open group. -/
theorem complete_of_base {children : List Condition} {below : List Frame} (hcalls : b.calls = [])
    (hchildren : children ≠ []) (hbase : b.base = .group children :: below) : b.Complete := by
  unfold base at hbase
  split at hbase
  · cases hbase
    exact absurd rfl hchildren
  · cases children with
    | nil => exact absurd rfl hchildren
    | cons c children => exact ⟨hcalls, c, children, below, hbase⟩

/-- An operator that is taken in waits for an operand. -/
theorem asks_of_push {p : Pending} (hp : b.waiting.push b.expectsOperand op = .ok p) :
    (b.wait p).waiting ≠ .idle ∧ (b.wait p).expectsOperand = true := by
  rw [waiting_wait]
  cases hexpects : b.expectsOperand with
  | true =>
    rw [hexpects] at hp
    obtain ⟨-, hbinary, hne⟩ := Pending.push_true_eq_ok hp
    exact ⟨hne, (expectsOperand_wait b p hbinary).trans hexpects⟩
  | false =>
    rw [hexpects] at hp
    obtain ⟨_, hp, -⟩ := Pending.push_false_eq_ok hp
    have hbinary := Option.isSome_of_eq_some hp
    exact ⟨fun hidle => absurd hbinary (by rw [hidle]; decide),
      expectsOperand_wait_binary b hbinary⟩

theorem asks_of_move (hb : LeftFirst b.stack) (hop : t.kind = .operator op) (h : Move b t b')
    (hopen : ¬ b'.Complete) : Asks op (b'.seen (some t)) := by
  have hkind := Role.kind_of_ofToken t
  cases h with
  | hold ht => simp [isHeld, hop] at ht
  | operand _ hrole => simp [hrole, hop] at hkind
  | math hrole hp =>
    simp only [hrole, hop, Token.Kind.operator.injEq] at hkind
    obtain ⟨rfl, -⟩ := hkind
    obtain ⟨hwaiting, hexpects⟩ := asks_of_push hp
    exact .operand hwaiting hexpects hopen
  | compare hrole hcalls hstack =>
    rw [hrole] at hkind
    -- before its operator a comparison has no right side
    cases hb _ _ _ hstack
    exact .side hkind.1 hcalls rfl (by simp [seen, Token.operator?, hop])
  | connective hrole hcalls =>
    simp only [hrole, hop, Token.Kind.operator.injEq] at hkind
    obtain ⟨_, rfl, hlogical⟩ := hkind
    obtain ⟨o, left, below, hjoined⟩ := Frame.joined_eq_cons _ _
    exact .condition hlogical hcalls (congrArg (· ++ _) hjoined)
  | argument hrole | closeCall hrole | openGroup hrole | closeGroup hrole | openSet hrole
  | value hrole
  | closeSet hrole => simp [hrole, hop] at hkind

theorem asks_of_feed (hb : LeftFirst b.stack) (hop : t.kind = .operator op) (h : b.feed t = .ok b')
    (hopen : ¬ b'.Complete) : Asks op b' := by
  cases feed_iff.1 h with
  | call _ hkind => exact absurd (hop.symm.trans hkind) (by simp)
  | @move b₁ b₂ _ hrelease hmove =>
    exact asks_of_move (leftFirst_of_release hb hrelease) hop hmove hopen

theorem Asks.expectsOperand (h : Asks op b) : b.expectsOperand = true := by
  cases h with
  | operand _ hexpects => exact hexpects
  | side _ hcalls hstack => simp [Builder.expectsOperand, hcalls, hstack]
  | condition _ hcalls hstack => simp [Builder.expectsOperand, hcalls, hstack]

/-- The call that an operator stands in cannot go on without an operand. -/
theorem Asks.pending_of_call {call : OpenCall} {outer : List OpenCall} (h : Asks op b)
    (hcalls : b.calls = call :: outer) : call.pending ≠ .idle := by
  cases h with
  | operand hwaiting =>
    rw [waiting, hcalls] at hwaiting
    exact hwaiting
  | side _ hnil => exact absurd (hcalls.symm.trans hnil) (List.cons_ne_nil _ _)
  | condition _ hnil => exact absurd (hcalls.symm.trans hnil) (List.cons_ne_nil _ _)

/-- Outside of calls, only the right side of a comparison or of a connective can come without an
operand. -/
theorem Asks.stack_of_idle (h : Asks op b) (hcalls : b.calls = []) (hidle : b.pending = .idle) :
    (∃ left c below, b.stack = .comparison left (some c) none :: below ∧
      b.previous.bind Token.operator? = some op) ∨
    ∃ o left below, b.stack = .logical o left :: below ∧ op.isLogical = true := by
  cases h with
  | operand hwaiting =>
    rw [waiting, hcalls] at hwaiting
    exact absurd hidle hwaiting
  | side _ _ hstack hprevious => exact .inl ⟨_, _, _, hstack, hprevious⟩
  | condition hop _ hstack => exact .inr ⟨_, _, _, hstack, hop⟩

/-- No container is left complete by an operator. -/
theorem Asks.settle_ne_ok {offset : Nat} {children : List Condition} {below : List Frame}
    (h : Asks op b) (hcalls : b.calls = []) (hchildren : children ≠ []) :
    Frame.settle offset b.pending b.base ≠ .ok (.group children :: below) := by
  intro hsettle
  cases h with
  | operand hwaiting _ hopen =>
    rw [waiting, hcalls] at hwaiting
    exact hopen (complete_of_base hcalls hchildren (Frame.settle_of_waiting hwaiting hsettle))
  | side hc _ hstack =>
    rw [base_of_stack hstack] at hsettle
    exact Frame.settle_side hc hsettle
  | condition _ _ hstack =>
    rw [base_of_stack hstack] at hsettle
    exact absurd (Except.ok.inj hsettle) (by simp)

/-- What a state after an operator takes next. -/
theorem follows_of_move (hb : Asks op b) (h : Move b t b') : t.follows op = true := by
  have hkind := Role.kind_of_ofToken t
  cases h with
  | hold ht =>
    apply Token.follows_of_startsOperand
    exact Token.startsOperand_of_word (eq_of_beq ((Bool.and_eq_true _ _).mp ht).1)
  | operand _ hrole =>
    rw [hrole] at hkind
    apply Token.follows_of_startsOperand
    rcases hkind with hkind | hkind <;> simp [Token.startsOperand, hkind]
  | math hrole hp =>
    rw [hrole] at hkind
    -- where an operand has to come, the only operators are signs
    rw [hb.expectsOperand] at hp
    apply Token.follows_of_startsOperand
    apply Token.startsOperand_of_isSign
    rw [Token.isSign_of_kind hkind.1]
    exact (Pending.push_true_eq_ok hp).1
  | argument _ hcalls hidle => exact absurd hidle (hb.pending_of_call hcalls)
  | closeCall _ hcalls hidle => exact absurd hidle (hb.pending_of_call hcalls)
  | compare _ hcalls hstack hidle =>
    rcases hb.stack_of_idle hcalls hidle with ⟨_, _, _, hstack', -⟩ | ⟨_, _, _, hstack', -⟩
    · exact absurd (hstack.symm.trans hstack') (by simp)
    · exact absurd (hstack.symm.trans hstack') (by simp)
  | connective _ hcalls hsettle => exact absurd hsettle (hb.settle_ne_ok hcalls (by simp))
  | openGroup hrole hcalls hbase hframe hidle =>
    rw [hrole] at hkind
    rcases hb.stack_of_idle hcalls hidle with ⟨_, _, _, hstack, -⟩ | ⟨_, _, _, -, hop⟩
    · rw [base_of_stack hstack] at hbase
      cases hbase
      exact absurd hframe Bool.false_ne_true
    · simp [Token.follows, hkind, hop]
  | closeGroup _ hcalls hsettle _ hchildren =>
    exact absurd hsettle (hb.settle_ne_ok hcalls hchildren)
  | @openSet range negated _ _ _ hrole hcalls hstack hidle hprevious =>
    rw [hrole] at hkind
    rcases hb.stack_of_idle hcalls hidle with ⟨_, _, _, -, hprevious'⟩ | ⟨_, _, _, hstack', -⟩
    · cases hprevious'.symm.trans hprevious
      cases range <;> cases negated <;> simp [Token.follows, hkind]
    · exact absurd (hstack.symm.trans hstack') (by simp)
  | value _ hcalls hstack _ hidle =>
    rcases hb.stack_of_idle hcalls hidle with ⟨_, _, _, hstack', -⟩ | ⟨_, _, _, hstack', -⟩
    · exact absurd (hstack.symm.trans hstack') (by simp)
    · exact absurd (hstack.symm.trans hstack') (by simp)
  | closeSet _ hcalls hstack hidle =>
    rcases hb.stack_of_idle hcalls hidle with ⟨_, _, _, hstack', -⟩ | ⟨_, _, _, hstack', -⟩
    · exact absurd (hstack.symm.trans hstack') (by simp)
    · exact absurd (hstack.symm.trans hstack') (by simp)

/-- The input does not end after an operator. -/
theorem Asks.finish_ne_ok {stop : Nat} {c : Condition} (hheld : b.held = none) (hb : Asks op b) :
    b.finish stop ≠ .ok c := by
  intro h
  obtain ⟨b₁, children, hrelease, hcalls, hsettle, hchildren, -⟩ := finish_eq_ok.1 h
  cases (release_of_held_none hheld).symm.trans hrelease
  exact hb.settle_ne_ok hcalls hchildren hsettle

end Asks

/-! ## Complete states -/

section Complete

variable {b b' : Builder} {t : Token} {ts : List Token}

/-- Of the delimiters that close, those that close a call leave an operand, and all others a
condition. -/
theorem complete_closing {before inner : List Token} {opening closing : Token} {d : Delimiter}
    (hd : d.isOpen = true) (hopening : opening.kind = .delimiter d) (hinner : Token.Nested inner)
    (hclosing : closing.kind = .delimiter d.closing)
    (h : empty.feedAll (before ++ opening :: (inner ++ [closing])) = .ok b) :
    b.held = none ∧ (b.Complete ↔ (d = .openParen → before.getLast?.filter isHeld = none)) := by
  obtain ⟨b₀, hbefore, h⟩ := feedAll_append.1 h
  obtain ⟨b₁, hfeed₁, h⟩ := feedAll_cons.1 h
  obtain ⟨b₂, hfeed₂, h⟩ := feedAll_append.1 h
  have hfeed₃ := feedAll_singleton.1 h
  obtain ⟨o, hopen, hcall⟩ := (shift_of_feed hfeed₁).opens hopening hd
  obtain ⟨o', -, hclose, -, hcomplete⟩ :=
    (shift_of_feed hfeed₃).closes hclosing (Delimiter.isOpen_closing _)
  have heq := hclose.symm.trans ((openers_of_nested hinner hfeed₂).trans hopen)
  obtain ⟨rfl, -⟩ := List.cons.inj heq
  refine ⟨?_, ?_⟩
  · rw [held_of_feed hfeed₃, isHeld, hclosing]
    rfl
  · rw [hcomplete, ne_eq, hcall, held_of_feedAll hbefore, not_and', Decidable.not_not]

theorem complete_of_endsCondition (hts : Token.EndsCondition ts) (h : empty.feedAll ts = .ok b) :
    b.Complete ∧ b.held = none := by
  cases hts with
  | intro hd hopening hinner hclosing hcall =>
    obtain ⟨hheld, hcomplete⟩ := complete_closing hd hopening hinner hclosing h
    exact ⟨hcomplete.2 hcall, hheld⟩

theorem endsCondition_of_complete {d : Delimiter} (hts : empty.feedAll ts = .ok b)
    (ht : t.kind = .delimiter d) (hd : d.isOpen = false) (hfeed : b.feed t = .ok b')
    (hb' : b'.Complete) :
    Token.EndsCondition (ts ++ [t]) := by
  obtain ⟨o, rfl, hclose, hgroup, -⟩ := (shift_of_feed hfeed).closes ht hd
  obtain ⟨openers, hopeners, hspells⟩ := spelled_of_feedAll hts
  have heq := hclose.symm.trans hopeners
  cases hspells with
  | nested =>
    obtain ⟨ho, hnil⟩ := List.cons.inj heq
    exact absurd hnil (hgroup ho)
  | opened _ hopening hinner =>
    obtain ⟨rfl, -⟩ := List.cons.inj heq
    have hall := feedAll_append.2 ⟨b, hts, feedAll_singleton.2 hfeed⟩
    rw [List.append_assoc, List.cons_append] at hall ⊢
    refine .intro o.isOpen_delimiter hopening hinner ht ?_
    exact (complete_closing o.isOpen_delimiter hopening hinner ht hall).2.1 hb'

/-- What leaves a condition complete. -/
theorem complete_of_move (h : Move b t b') (hb' : b'.Complete) (hheld : b'.held = none) :
    (∃ d, t.kind = .delimiter d ∧ d.isOpen = false) ∨ t.isSign = true ∧ b.Complete := by
  have hkind := Role.kind_of_ofToken t
  cases h with
  | hold => exact absurd hheld (Option.some_ne_none _)
  | operand | closeCall => exact absurd hb' (not_complete_fill _ _)
  | math hrole hp =>
    rw [hrole] at hkind
    have hb := (complete_wait _ _).1 hb'
    obtain ⟨hcalls, c, children, below, hstack⟩ := hb
    refine .inr ⟨?_, hcalls, c, children, below, hstack⟩
    rw [show b.expectsOperand = true by simp [expectsOperand, hcalls, hstack]] at hp
    rw [Token.isSign_of_kind hkind.1]
    exact (Pending.push_true_eq_ok hp).1
  | argument => exact absurd hb'.1 (List.cons_ne_nil _ _)
  | compare | openGroup | openSet =>
    obtain ⟨-, _, _, _, hstack⟩ := hb'
    exact absurd hstack (by simp)
  | connective =>
    obtain ⟨-, _, _, _, hstack⟩ := hb'
    obtain ⟨_, _, _, hjoined⟩ := Frame.joined_eq_cons _ _
    dsimp only at hstack
    rw [hjoined] at hstack
    exact absurd hstack (by simp)
  | value _ _ hset =>
    obtain ⟨-, _, _, _, hstack⟩ := hb'
    exact absurd (hset.symm.trans hstack) (by simp)
  | closeGroup hrole =>
    rw [hrole] at hkind
    exact .inl ⟨_, hkind, rfl⟩
  | @closeSet _ op _ _ _ hrole =>
    rw [hrole] at hkind
    exact .inl ⟨_, hkind, by cases op <;> rfl⟩

theorem complete_of_feed (h : b.feed t = .ok b') (hb' : b'.Complete) (hheld : b'.held = none) :
    (∃ d, t.kind = .delimiter d ∧ d.isOpen = false) ∨ t.isSign = true ∧ b.Complete ∧
    b.held = none := by
  cases feed_iff.1 h with
  | call => exact absurd hb'.1 (List.cons_ne_nil _ _)
  | move _ hrelease hmove =>
    rcases complete_of_move hmove hb' hheld with hclosing | ⟨hsign, hreleased⟩
    · exact .inl hclosing
    · rcases release_eq_ok.1 hrelease with ⟨hnone, rfl⟩ | ⟨word, x, -, -, -, rfl⟩
      · exact .inr ⟨hsign, hreleased, hnone⟩
      · exact absurd hreleased (not_complete_fill _ _)

/-- A state without a held word is complete only after a condition, or after signs that follow
one. -/
theorem dangling_of_complete (h : empty.feedAll ts = .ok b) (hb : b.Complete)
    (hheld : b.held = none) :
    Token.Dangling ts := by
  refine feedAll_induction (motive := fun b ts => b.Complete → b.held = none → Token.Dangling ts)
    ?_ ?_ h hb hheld
  · intro hb
    obtain ⟨-, _, _, _, hstack⟩ := hb
    cases hstack
  · intro b b' ts t hts hfeed ih hb' hheld'
    -- either the condition has just been closed, or a sign is one more of those after it
    rcases complete_of_feed hfeed hb' hheld' with ⟨d, ht, hd⟩ | ⟨ht, hb, hheld⟩
    · exact ⟨ts ++ [t], [], (List.append_nil _).symm,
        endsCondition_of_complete hts ht hd hfeed hb', by simp⟩
    · obtain ⟨before, signs, rfl, hbefore, hsigns⟩ := ih hb hheld
      refine ⟨before, signs ++ [t], List.append_assoc .., hbefore, ?_⟩
      intro u hu
      rcases List.mem_append.1 hu with hu | hu
      · exact hsigns u hu
      · exact List.mem_singleton.1 hu ▸ ht

/-- Of the tokens that can start an operand, a complete state takes in signs, and holds words that
never fit. -/
theorem startsOperand_of_complete (hb : b.Complete) (hheld : b.held = none)
    (ht : t.startsOperand = true) (h : b.feed t = .ok b') :
    b'.Complete ∧ (t.isSign = true ∧ b'.held = none ∨ isHeld t = true ∧ b'.held = some t) := by
  have hrole := Token.role_of_startsOperand ht
  obtain ⟨b₁, hmove, rfl⟩ := (feed_of_held_none hheld).1 h
  cases hmove with
  | hold ht => exact ⟨hb, .inr ⟨ht, rfl⟩⟩
  | operand _ _ hopen => exact absurd hb hopen
  | @math _ p hmath =>
    have hcomplete := (complete_wait b p).2 hb
    rcases hrole with ⟨_, hoperand⟩ | ⟨-, hsign⟩
    · exact absurd (hoperand.symm.trans hmath) (by simp)
    · exact ⟨hcomplete, .inl ⟨hsign, (held_wait b p).trans hheld⟩⟩
  | argument hother | closeCall hother | compare hother | connective hother | openGroup hother
  | closeGroup hother | openSet hother | value hother | closeSet hother =>
    rcases hrole with ⟨_, hoperand⟩ | ⟨⟨_, hmath⟩, -⟩
    · exact absurd (hoperand.symm.trans hother) (by simp)
    · exact absurd (hmath.symm.trans hother) (by simp)

/-- A word in a complete state is no operand and names no call, so that nothing can follow it. -/
theorem stuck_of_complete {word : Token} (hb : b.Complete) (hheld : b.held = some word) :
    (∀ t b', b.feed t ≠ .ok b') ∧ ∀ stop c, b.finish stop ≠ .ok c := by
  have hrelease : ∀ b₁, b.release ≠ .ok b₁ := by
    intro b₁ h
    rcases release_eq_ok.1 h with ⟨hnone, -⟩ | ⟨_, _, -, hopen, -⟩
    · exact absurd (hheld.symm.trans hnone) (Option.some_ne_none _)
    · exact hopen hb
  refine ⟨?_, ?_⟩
  · intro t b' h
    cases feed_iff.1 h with
    | call _ _ _ hopen => exact hopen hb
    | move _ hreleased => exact hrelease _ hreleased
  · intro stop c h
    obtain ⟨b₁, _, hreleased, -⟩ := finish_eq_ok.1 h
    exact hrelease b₁ hreleased

/-- A complete state takes in a sign and stays complete. -/
theorem complete_of_sign (hb : b.Complete) (hheld : b.held = none) (ht : t.isSign = true)
    (h : b.feed t = .ok b') : b'.Complete ∧ b'.held = none := by
  obtain ⟨op, hkind, -⟩ := Token.kind_of_isSign ht
  obtain ⟨hb', hcases⟩ := startsOperand_of_complete hb hheld (Token.startsOperand_of_isSign ht) h
  rcases hcases with ⟨-, hheld'⟩ | ⟨hword, -⟩
  · exact ⟨hb', hheld'⟩
  · simp [isHeld, hkind] at hword

/-- After a condition, the last of the signs has nothing to apply to. -/
theorem not_followed_of_complete {op : Operator} {after : List Token} {stop : Nat} {c : Condition}
    (ht : t.kind = .operator op) (hop : op.isSign = true) (hb : b.Complete) (hheld : b.held = none)
    (h : b.feedAll after = .ok b') (hfinish : b'.finish stop = .ok c) :
    ∃ before s rest op', t :: after = before ++ s :: rest ∧ s.kind = .operator op' ∧
      rest.head?.any (Token.follows op') = false := by
  -- by induction on what comes after the sign: another sign is such a sign again, and a word
  -- is stuck
  induction after generalizing b t op with
  | nil => exact ⟨[], t, [], op, rfl, ht, rfl⟩
  | cons u rest ih =>
    cases hu : u.follows op with
    | false => exact ⟨[], t, u :: rest, op, rfl, ht, hu⟩
    | true =>
      obtain ⟨b₁, hfeed, hrest⟩ := feedAll_cons.1 h
      obtain ⟨hb₁, hcases⟩ :=
        startsOperand_of_complete hb hheld (Token.startsOperand_of_follows hop hu) hfeed
      rcases hcases with ⟨hsign, hheld₁⟩ | ⟨-, hheld₁⟩
      · obtain ⟨op₁, hkind₁, hop₁⟩ := Token.kind_of_isSign hsign
        obtain ⟨before, s, rest', op', heq, hs⟩ := ih hkind₁ hop₁ hb₁ hheld₁ hrest
        exact ⟨t :: before, s, rest', op', congrArg (t :: ·) heq, hs⟩
      · obtain ⟨hfeed', hfinish'⟩ := stuck_of_complete hb₁ hheld₁
        cases rest with
        | nil =>
          cases hrest
          exact absurd hfinish (hfinish' stop c)
        | cons v rest =>
          obtain ⟨b₂, hfeed₂, -⟩ := feedAll_cons.1 hrest
          exact absurd hfeed₂ (hfeed' v b₂)

end Complete

/-! ## Conditions -/

section Conditions

variable {b : Builder} {ts : List Token} {stop : Nat} {c : Condition}

theorem nested_of_finish (h : empty.feedAll ts = .ok b) (hfinish : b.finish stop = .ok c) :
    Token.Nested ts := by
  obtain ⟨b₁, children, hrelease, hcalls, hsettle, -, -⟩ := finish_eq_ok.1 hfinish
  have hopeners : b.openers = [.group] := by
    rw [← openers_of_release hrelease, openers_of_calls hcalls, ← Frame.openers_settle hsettle]
    rfl
  obtain ⟨openers, hsplit, hspells⟩ := spelled_of_feedAll h
  have hnil : openers = [] := by
    rw [hopeners] at hsplit
    simpa using hsplit.symm
  rw [hnil] at hspells
  cases hspells with
  | nested hts => exact hts

/-- An operator is followed as it should be, unless it is a sign that comes after a condition. -/
theorem follows_of_finish {before after : List Token} {t : Token} {op : Operator}
    (h : empty.feedAll (before ++ t :: after) = .ok b) (hfinish : b.finish stop = .ok c)
    (ht : t.kind = .operator op) (hdangling : ¬ (op.isSign = true ∧ Token.Dangling before)) :
    after.head?.any (Token.follows op) = true := by
  obtain ⟨b₀, hbefore, h⟩ := feedAll_append.1 h
  obtain ⟨b₁, hfeed, hafter⟩ := feedAll_cons.1 h
  have hheld : b₁.held = none := by
    rw [held_of_feed hfeed, isHeld, ht]
    rfl
  have hopen : ¬ b₁.Complete := by
    intro hb₁
    rcases complete_of_feed hfeed hb₁ hheld with ⟨d, hd, -⟩ | ⟨hsign, hb₀, hheld₀⟩
    · rw [ht] at hd
      cases hd
    · exact hdangling ⟨(Token.isSign_of_kind ht).symm.trans hsign,
        dangling_of_complete hbefore hb₀ hheld₀⟩
  have hasks := asks_of_feed (leftFirst_of_feedAll hbefore) ht hfeed hopen
  cases after with
  | nil =>
    cases hafter
    exact absurd hfinish (hasks.finish_ne_ok hheld)
  | cons u rest =>
    obtain ⟨b₂, hfeed₂, -⟩ := feedAll_cons.1 hafter
    obtain ⟨b₃, hmove, -⟩ := (feed_of_held_none hheld).1 hfeed₂
    exact follows_of_move hasks hmove

/-- After a condition, a sign or one that follows it is not followed as it should be. -/
theorem not_followed_of_sign (h : empty.feedAll ts = .ok b) (hfinish : b.finish stop = .ok c)
    (hts : Token.SignAfterCondition ts) : ¬ Token.OperatorsFollowed ts := by
  obtain ⟨before, t, after, rfl, ht, hbefore⟩ := hts
  obtain ⟨b₀, hfeed₀, h⟩ := feedAll_append.1 h
  obtain ⟨b₁, hfeed, hafter⟩ := feedAll_cons.1 h
  obtain ⟨hb₀, hheld₀⟩ := complete_of_endsCondition hbefore hfeed₀
  obtain ⟨hb₁, hheld₁⟩ := complete_of_sign hb₀ hheld₀ ht hfeed
  obtain ⟨op, hkind, hop⟩ := Token.kind_of_isSign ht
  obtain ⟨before', s, rest, op', heq, hs, hnot⟩ :=
    not_followed_of_complete hkind hop hb₁ hheld₁ hafter hfinish
  intro hfollowed
  have hyes := hfollowed (before ++ before') s rest op' (by rw [heq, List.append_assoc]) hs
  exact absurd (hyes.symm.trans hnot) (by decide)

end Conditions

end Builder

/-- A sign among those that follow a condition makes the first of them one that directly follows
it. -/
theorem Token.signAfterCondition_of_dangling {before after : List Token} {t : Token}
    (ht : t.isSign = true) (hbefore : Dangling before) :
    SignAfterCondition (before ++ t :: after) := by
  obtain ⟨condition, signs, rfl, hcondition, hsigns⟩ := hbefore
  cases signs with
  | nil => exact ⟨condition, t, after, by rw [List.append_nil], ht, hcondition⟩
  | cons s signs =>
    refine ⟨condition, s, signs ++ t :: after, ?_, hsigns s (List.mem_cons_self), hcondition⟩
    rw [List.append_assoc, List.cons_append]

/-- **Operators and delimiters.** What is read as a condition has nested delimiters. Its operators
are directly followed by something to apply to, signs that come after a condition aside, and there
are no exceptions at all just if no sign stands directly after a condition. -/
theorem Condition.operators_of_ofTokens {ts : List Token} {c : Condition}
    (h : ofTokens ts = .ok c) :
    Token.Nested ts ∧
    (∀ before t after op, ts = before ++ t :: after → t.kind = .operator op →
      ¬ (op.isSign = true ∧ Token.Dangling before) → after.head?.any (Token.follows op) = true) ∧
    (Token.OperatorsFollowed ts ↔ ¬ Token.SignAfterCondition ts) := by
  obtain ⟨b, hfeed, hfinish⟩ := Builder.ofTokens_eq_ok.1 h
  refine ⟨Builder.nested_of_finish hfeed hfinish, ?_, ?_, ?_⟩
  · rintro before t after op rfl ht hdangling
    exact Builder.follows_of_finish hfeed hfinish ht hdangling
  · intro hfollowed hsign
    exact Builder.not_followed_of_sign hfeed hfinish hsign hfollowed
  · rintro hsign before t after op rfl ht
    refine Builder.follows_of_finish hfeed hfinish ht ?_
    rintro ⟨hop, hdangling⟩
    exact hsign
      (Token.signAfterCondition_of_dangling ((Token.isSign_of_kind ht).trans hop) hdangling)

/-- The tokens of `(a = 1) -`. -/
def Token.trailingSign : List Token :=
  [.delimiter .openParen 0, .word "a" 1, .operator .eq 3, .word "1" 5, .delimiter .closeParen 6,
    .operator .sub 8]

/-- A sign after the last condition is dropped. -/
theorem Condition.operators_of_trailingSign :
    ofTokens Token.trailingSign =
      .ok (.group [.group [.comparison (.var "a") (some .eq) (some (.ofWord "1"))] true] true) ∧
    Token.Nested Token.trailingSign ∧ ¬ Token.OperatorsFollowed Token.trailingSign := by
  have h : ofTokens Token.trailingSign =
      .ok (.group [.group [.comparison (.var "a") (some .eq) (some (.ofWord "1"))] true] true) :=
        rfl
  obtain ⟨hnested, -, hiff⟩ := operators_of_ofTokens h
  refine ⟨h, hnested, fun hfollowed => hiff.1 hfollowed ?_⟩
  have hinner : Token.Nested [.word "a" 1, .operator .eq 3, .word "1" 5] :=
    .plain (by simp [Token.word])
      (.plain (by simp [Token.operator]) (.plain (by simp [Token.word]) .nil))
  have hcondition : Token.EndsCondition
      ([] ++ .delimiter .openParen 0 :: ([.word "a" 1, .operator .eq 3, .word "1" 5] ++
        [.delimiter .closeParen 6])) :=
    .intro (d := .openParen) rfl rfl hinner rfl fun _ => rfl
  exact ⟨_, .operator .sub 8, [], rfl, rfl, hcondition⟩

end GuardedFlow
