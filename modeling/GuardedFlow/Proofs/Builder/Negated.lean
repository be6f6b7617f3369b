import GuardedFlow.Proofs.Builder.Completeness
import GuardedFlow.Proofs.Builder.Unplaced

/-!
# Reading an inequality for an equality

A list of tokens is read, and then with an inequality sign in the place of one equality sign. Both
readings go the same way, and what is read differs in one comparison or set test
(`Condition.Flips`): so `Condition.ofTokens_flips`.

While they are read, the two states differ in one container, or in the condition that has been made
of it (`Frame.FlipsIn`), and every move of one is a move of the other (`Builder.Move.flips`). What
the sign was is asked for a second time where a list of values opens, for the token before the list
has to be the sign. But then the sign is the operator of the comparison (`Builder.Told`), so that
this is asked of the two states with the right answers.
-/

namespace GuardedFlow

/-- Two conditions that differ in one equality, which is an inequality in the second one. -/
inductive Condition.Flips : Condition → Condition → Prop where
  | comparison (left right : Operand) :
      Flips (.comparison left (some .eq) (some right)) (.comparison left (some .ne) (some right))
  | nullTest (left : Operand) :
      Flips (.comparison left (some .isNull) none) (.comparison left (some .notNull) none)
  | set (left : Operand) (range : Bool) (values : List Operand) (closed : Bool) :
      Flips (.set left (.ofFlags false range) values closed)
      (.set left (.ofFlags true range) values closed)
  | group {c c' : Condition} (before after : List Condition) (closed : Bool) (h : Flips c c') :
      Flips (.group (before ++ c :: after) closed) (.group (before ++ c' :: after) closed)
  | left {c c' : Condition} (op : Connective) (right : Option Condition) (closed : Bool)
      (h : Flips c c') :
      Flips (.logical op (some c) right closed) (.logical op (some c') right closed)
  | right {c c' : Condition} (op : Connective) (left : Option Condition) (closed : Bool)
      (h : Flips c c') :
      Flips (.logical op left (some c) closed) (.logical op left (some c') closed)

namespace Frame

/-- Two open containers that differ in one equality. -/
inductive Flips : Frame → Frame → Prop where
  | comparison (left : Operand) (right : Option Operand) :
      Flips (.comparison left (some .eq) right) (.comparison left (some .ne) right)
  | set (left : Operand) (range : Bool) (values : List Operand) :
      Flips (.set left (.ofFlags false range) values) (.set left (.ofFlags true range) values)
  | group {c c' : Condition} (before after : List Condition) (h : c.Flips c') :
      Flips (.group (before ++ c :: after)) (.group (before ++ c' :: after))
  | logical {c c' : Condition} (op : Connective) (h : c.Flips c') :
      Flips (.logical op c) (.logical op c')

/-- Two stacks of containers that differ in one of them. -/
inductive FlipsIn : List Frame → List Frame → Prop where
  | here {frame frame' : Frame} (h : frame.Flips frame') (below : List Frame) :
      FlipsIn (frame :: below) (frame' :: below)
  | there (frame : Frame) {below below' : List Frame} (h : FlipsIn below below') :
      FlipsIn (frame :: below) (frame :: below')

variable {offset : Nat} {pending : Pending} {c c' : Condition} {stack stack' stack₁ : List Frame}

/-! ## Closing containers -/

theorem attach_flips (hc : c.Flips c') (h : attach offset c stack = .ok stack₁) :
    ∃ stack₁', attach offset c' stack = .ok stack₁' ∧ FlipsIn stack₁ stack₁' := by
  induction stack generalizing c c' with
  | nil => cases h
  | cons frame below ih =>
    cases frame with
    | group children =>
      cases h
      exact ⟨_, rfl, .here (.group children [] hc) below⟩
    | logical op left => exact ih (.right op (some left) true hc) h
    | comparison left op right => cases h
    | set left op values => cases h

theorem attach_flipsIn (hstack : FlipsIn stack stack') (h : attach offset c stack = .ok stack₁) :
    ∃ stack₁', attach offset c stack' = .ok stack₁' ∧ FlipsIn stack₁ stack₁' := by
  induction hstack generalizing c with
  | here hframe below =>
    cases hframe with
    | group before after hchild =>
      cases h
      refine ⟨_, rfl, ?_⟩
      rw [List.append_assoc, List.append_assoc]
      exact .here (.group before (after ++ [c]) hchild) below
    | @logical left left' op hleft =>
      have hattach : attach offset (.logical op (some left) (some c) true) below = .ok stack₁ := h
      obtain ⟨stack₁', hattach', hstack₁⟩ := attach_flips (.left op (some c) true hleft) hattach
      exact ⟨stack₁', hattach', hstack₁⟩
    | comparison left right => cases h
    | set left range values => cases h
  | there frame hbelow ih =>
    cases frame with
    | group children =>
      cases h
      exact ⟨_, rfl, .there _ hbelow⟩
    | logical op left => exact ih h
    | comparison left op right => cases h
    | set left op values => cases h

/-- An equality and an inequality are closed in the same way, as tests for the absent value if it is
on the right. -/
theorem nullTest_flips {left : Operand} {op' : Comparator} {right right' : Option Operand}
    (hnull : nullTest (some .eq) right = (some op', right'))
    (hdefect : Condition.comparisonDefect? left (some op') right' = none) :
    ∃ op'', nullTest (some .ne) right = (some op'', right') ∧
      Condition.comparisonDefect? left (some op'') right' = none ∧
      Condition.Flips (.comparison left (some op') right')
      (.comparison left (some op'') right') := by
  have hvariable := Condition.comparisonDefect?_eq_none_iff.1 hdefect
  unfold nullTest at hnull
  split at hnull
  · cases hnull
    exact ⟨.notNull, rfl, Condition.comparisonDefect?_eq_none_iff.2 hvariable, .nullTest left⟩
  · next hop => cases hop
  · next hne _ =>
    cases hnull
    cases right' with
    | none => exact absurd (hvariable.2.1 rfl) (by decide)
    | some right =>
      refine ⟨.ne, ?_, Condition.comparisonDefect?_eq_none_iff.2 hvariable, .comparison left right⟩
      cases right with
      | null => exact absurd rfl (hne rfl)
      | _ => rfl

theorem settle_flipsIn (hstack : FlipsIn stack stack')
    (h : settle offset pending stack = .ok stack₁) :
    ∃ stack₁', settle offset pending stack' = .ok stack₁' ∧ FlipsIn stack₁ stack₁' := by
  cases hstack with
  | here hframe below =>
    cases hframe with
    | comparison left right =>
      obtain ⟨hidle, op', right', hnull, hdefect, hattach⟩ := settle_comparison_eq_ok.1 h
      obtain ⟨op'', hnull', hdefect', hflips⟩ := nullTest_flips hnull hdefect
      obtain ⟨stack₁', hattach', hstack₁⟩ := attach_flips hflips hattach
      exact ⟨stack₁',
        settle_comparison_eq_ok.2 ⟨hidle, op'', right', hnull', hdefect', hattach'⟩, hstack₁⟩
    | set left range values =>
      cases h
      exact ⟨_, rfl, .here (.set left range values) below⟩
    | group before after hchild =>
      cases h
      exact ⟨_, rfl, .here (.group before after hchild) below⟩
    | logical op hleft =>
      cases h
      exact ⟨_, rfl, .here (.logical op hleft) below⟩
  | there frame hbelow =>
    cases frame with
    | comparison left op right =>
      obtain ⟨hidle, op', right', hnull, hdefect, hattach⟩ := settle_comparison_eq_ok.1 h
      obtain ⟨stack₁', hattach', hstack₁⟩ := attach_flipsIn hbelow hattach
      exact ⟨stack₁',
        settle_comparison_eq_ok.2 ⟨hidle, op', right', hnull, hdefect, hattach'⟩, hstack₁⟩
    | _ =>
      cases h
      exact ⟨_, rfl, .there _ hbelow⟩

/-- A group after which a connective comes differs in the condition before it, or elsewhere. -/
theorem joined_flipsIn {op : Connective} {children : List Condition} {last : Condition}
    {below : List Frame} (h : FlipsIn (group (children ++ [last]) :: below) stack') :
    ∃ children' last' below',
      stack' = group (children' ++ [last']) :: below' ∧
      FlipsIn (joined op last ++ group children :: below)
      (joined op last' ++ group children' :: below') := by
  have hprepend : ∀ (frames : List Frame) {s s' : List Frame}, FlipsIn s s' →
      FlipsIn (frames ++ s) (frames ++ s') := by
    intro frames s s' hs
    induction frames with
    | nil => exact hs
    | cons frame frames ih => exact .there frame ih
  generalize hframe : group (children ++ [last]) = frame at h
  cases h with
  | there _ hbelow =>
    subst hframe
    exact ⟨children, last, _, rfl, hprepend _ (.there _ hbelow)⟩
  | here hflips below =>
    cases hflips with
    | @group c c' before after hchild =>
      rcases List.eq_nil_or_concat after with rfl | ⟨init, last', rfl⟩
      · -- the last condition itself differs
        obtain ⟨rfl, hlast⟩ := List.append_inj' (Frame.group.inj hframe) rfl
        cases hlast
        refine ⟨children, c', below, rfl, ?_⟩
        unfold joined
        split
        · cases hchild with
          | left op right closed hleft => exact .there _ (.here (.logical .or hleft) _)
          | right op left closed hright => exact .here (.logical .and hright) _
        · next hne =>
          split
          · cases hchild with
            | left op right closed hleft => exact absurd rfl (hne _ _ _ rfl)
            | right op left closed hright => exact absurd rfl (hne _ _ _ rfl)
          · exact .here (.logical op hchild) _
      · rw [List.concat_eq_append, ← List.cons_append, ← List.append_assoc] at hframe
        obtain ⟨rfl, hlast⟩ := List.append_inj' (Frame.group.inj hframe) rfl
        cases hlast
        refine ⟨before ++ c' :: init, last,
          below, by simp, hprepend _ (.here (.group before init hchild) below)⟩
    | _ => cases hframe

theorem FlipsIn.ne_nil (h : FlipsIn stack stack') : stack ≠ [] ∧ stack' ≠ [] := by
  cases h <;> exact ⟨List.cons_ne_nil _ _, List.cons_ne_nil _ _⟩

end Frame

namespace Builder

/-- Two states that differ in one equality, the tokens before them aside. -/
inductive Flips : Builder → Builder → Prop where
  | mk {stack stack' : List Frame} (hstack : Frame.FlipsIn stack stack')
      (previous previous' held : Option Token) (calls : List OpenCall) (pending : Pending)
      (expectsValue : Bool) :
      Flips ⟨stack, previous, held, calls, pending, expectsValue⟩
        ⟨stack', previous', held, calls, pending, expectsValue⟩

variable {b b' b₁ : Builder} {t : Token}

/-! ## What two states have in common -/

namespace Flips

theorem stack (h : b.Flips b') : Frame.FlipsIn b.stack b'.stack := by
  cases h
  assumption

theorem held (h : b.Flips b') : b'.held = b.held := by
  cases h
  rfl

theorem calls (h : b.Flips b') : b'.calls = b.calls := by
  cases h
  rfl

theorem base (h : b.Flips b') : b.base = b.stack ∧ b'.base = b'.stack :=
  ⟨base_of_ne_nil h.stack.ne_nil.1, base_of_ne_nil h.stack.ne_nil.2⟩

theorem waiting (h : b.Flips b') : b'.waiting = b.waiting := by
  cases h
  rfl

theorem current (h : b.Flips b') : b'.current = b.current := by
  obtain ⟨hstack, previous, previous', held, calls, pending, expectsValue⟩ := h
  cases calls with
  | cons call outer => rfl
  | nil =>
    cases hstack with
    | here hframe below => cases hframe <;> rfl
    | there frame hbelow =>
      cases frame with
      | comparison left op right => cases op <;> rfl
      | _ => rfl

theorem expectsOperand (h : b.Flips b') : b'.expectsOperand = b.expectsOperand := by
  obtain ⟨hstack, previous, previous', held, calls, pending, expectsValue⟩ := h
  cases calls with
  | cons call outer => rfl
  | nil =>
    cases hstack with
    | here hframe below => cases hframe <;> rfl
    | there frame hbelow => cases frame <;> rfl

theorem not_complete (h : b.Flips b') (hopen : ¬ b.Complete) : ¬ b'.Complete := by
  obtain ⟨hstack, previous, previous', held, calls, pending, expectsValue⟩ := h
  rintro ⟨rfl, c, children, below, rfl⟩
  generalize hframe' : Frame.group (c :: children) = frame' at hstack
  cases hstack with
  | there frame hbelow =>
    subst hframe'
    exact hopen ⟨rfl, c, children, _, rfl⟩
  | here hframe below =>
    cases hframe with
    | group before after hchild =>
      cases before with
      | nil => exact hopen ⟨rfl, _, _, _, rfl⟩
      | cons first before => exact hopen ⟨rfl, _, _, _, rfl⟩
    | _ => cases hframe'

/-! ## What happens to both -/

theorem fill (h : b.Flips b') (o : Operand) : (b.fill o).Flips (b'.fill o) := by
  obtain ⟨hstack, previous, previous', held, calls, pending, expectsValue⟩ := h
  cases calls with
  | cons call outer => exact .mk hstack ..
  | nil =>
    cases hstack with
    | here hframe below =>
      cases hframe with
      | comparison left right => exact .mk (.here (.comparison left _) below) ..
      | set left range values => exact .mk (.here (.set left range _) below) ..
      | group before after hchild =>
        exact .mk (.there _ (.here (.group before after hchild) below)) ..
      | logical op hleft => exact .mk (.there _ (.here (.logical op hleft) below)) ..
    | there frame hbelow =>
      cases frame with
      | comparison left op right => cases op <;> exact .mk (.there _ hbelow) ..
      | set left op values => exact .mk (.there _ hbelow) ..
      | group children => exact .mk (.there _ (.there _ hbelow)) ..
      | logical op left => exact .mk (.there _ (.there _ hbelow)) ..

theorem wait (h : b.Flips b') (p : Pending) : (b.wait p).Flips (b'.wait p) := by
  have hbase := h.base
  obtain ⟨hstack, previous, previous', held, calls, pending, expectsValue⟩ := h
  cases calls with
  | cons call outer => exact .mk hstack ..
  | nil =>
    rw [Builder.wait, Builder.wait]
    dsimp only at hbase ⊢
    rw [hbase.1, hbase.2]
    exact .mk hstack ..

end Flips

/-! ## The operator before a list of values -/

/-- The operator that the token before is. -/
def heard (b : Builder) : Option Operator := b.previous.bind Token.operator?

/-- A sign that has just been read is the operator of the innermost comparison. -/
def Told (b : Builder) : Prop :=
  ∀ op c, b.heard = some op → Comparator.ofOperator? op = some c →
    ∃ left right below, b.stack = .comparison left (some c) right :: below

theorem told_fill (h : b.Told) (o : Operand) : (b.fill o).Told := by
  obtain ⟨stack, previous, held, calls, pending, expectsValue⟩ := b
  intro op c hheard hc
  cases calls with
  | cons call outer => exact h op c hheard hc
  | nil =>
    have hprevious : (Builder.mk stack previous held [] pending expectsValue).heard = some op := by
      induction stack using stack_cases with
      | comparison left op' right below => cases op' <;> exact hheard
      | _ => exact hheard
    obtain ⟨left, right, below, hstack⟩ := h op c hprevious hc
    dsimp only at hstack
    subst hstack
    exact ⟨left, some o, below, rfl⟩

theorem told_of_release (h : b.Told) (hrelease : b.release = .ok b₁) : b₁.Told := by
  rcases release_eq_ok.1 hrelease with ⟨-, rfl⟩ | ⟨word, x, -, -, -, rfl⟩
  · exact h
  · exact told_fill (b := b.forgetHeld) h x

/-- A sign makes a comparison of the operand before it. -/
theorem Move.of_compare {c : Comparator} (hrole : Role.ofToken t = .compare c) (h : Move b t b₁) :
    b.calls = [] ∧
    b.pending = .idle ∧ ∃ left right below, b.stack = .comparison left none right :: below ∧
      b₁ = { b with stack := .comparison left (some c) right :: below } := by
  cases h with
  | compare hr hcalls hstack hidle =>
    cases hrole.symm.trans hr
    exact ⟨hcalls, hidle, _, _, _, hstack, rfl⟩
  | hold hheld =>
    cases hheld.symm.trans (isHeld_of_not_operand fun o hr => nomatch hrole.symm.trans hr)
  | operand _ hr | math hr | argument hr | closeCall hr | connective hr | openGroup hr
  | closeGroup hr | openSet hr
  | value hr | closeSet hr => cases hrole.symm.trans hr

theorem told_of_feed (h : b.feed t = .ok b') : b'.Told := by
  intro op c hheard hc
  cases feed_iff.1 h with
  | call _ hkind =>
    have hnone : t.operator? = none := by rw [Token.operator?, hkind]
    exact absurd (hnone.symm.trans hheard) (by simp)
  | move _ _ hmove =>
    have hkind : t.kind = .operator op := by
      have hoperator : t.operator? = some op := hheard
      rw [Token.operator?] at hoperator
      split at hoperator
      · next hkind => rw [hkind, Option.some.inj hoperator]
      · cases hoperator
    obtain ⟨-, -, left, right, below, -, rfl⟩ :=
      hmove.of_compare (Role.ofToken_of_comparator hkind hc).2
    exact ⟨left, right, below, rfl⟩

/-! ## Every move is a move of both -/

/-- What the tokens before say of the sign in which two states differ. -/
structure Agreed (b b' : Builder) : Prop where
  flips : b.Flips b'
  heard : b'.heard = b.heard ∨ b.heard = some .eq ∧ b'.heard = some .ne
  told : b.Told
  told' : b'.Told

theorem Told.op_eq (h : b.Told) {left : Operand} {op : Option Comparator} {right : Option Operand}
    {below : List Frame} (hstack : b.stack = .comparison left op right :: below) {sign : Operator}
    {c : Comparator} (hheard : b.heard = some sign) (hc : Comparator.ofOperator? sign = some c) :
    op = some c := by
  obtain ⟨_, _, _, htold⟩ := h sign c hheard hc
  cases hstack.symm.trans htold
  rfl

/-- Where a list opens, the sign before it is the one of the comparison. -/
theorem Agreed.openSet {left : Operand} {op : Option Comparator} {below : List Frame}
    {negated : Bool} (h : b.Agreed b') (hstack : b.stack = .comparison left op none :: below)
    (hprevious : b.heard = some (if negated then .ne else .eq)) (range : Bool) :
    ∃ op' negated' below', b'.stack = .comparison left op' none :: below' ∧
      b'.heard = some (if negated' then .ne else .eq) ∧
      Frame.FlipsIn (.set left (.ofFlags negated range) [] :: below)
      (.set left (.ofFlags negated' range) [] :: below') := by
  have hflips := h.flips.stack
  rw [hstack] at hflips
  generalize hstack' : b'.stack = stack' at hflips
  cases hflips with
  | here hframe below =>
    cases hframe with
    | comparison left right =>
      cases negated with
      | true => cases h.told.op_eq hstack hprevious rfl
      | false =>
        rcases h.heard with hheard | ⟨-, hheard⟩
        · cases h.told'.op_eq hstack' (hheard.trans hprevious) rfl
        · exact ⟨some .ne, true, below, rfl, hheard, .here (.set left range []) below⟩
  | there frame hbelow =>
    rcases h.heard with hheard | ⟨hheard, hheard'⟩
    · exact ⟨op, negated, _, rfl, hheard.trans hprevious, .there _ hbelow⟩
    · cases (h.told.op_eq hstack hheard rfl).symm.trans (h.told'.op_eq hstack' hheard' rfl)

/-- **One move.** What one state does with a token, the other one does, and they go on to differ in
the one equality. -/
theorem Move.flips (hmove : Move b t b₁) (h : b.Agreed b') :
    ∃ b₁', Move b' t b₁' ∧ b₁.Flips b₁' := by
  have hflips := h.flips
  have hstack := hflips.stack
  cases hmove with
  | hold hheld =>
    cases hflips with
    | mk hstack => exact ⟨_, .hold hheld, .mk hstack ..⟩
  | operand hheld hrole hopen hx =>
    rw [← hflips.waiting, ← hflips.current] at hx
    exact ⟨_, .operand hheld hrole (hflips.not_complete hopen) hx, hflips.fill _⟩
  | math hrole hp =>
    rw [← hflips.waiting, ← hflips.expectsOperand] at hp
    exact ⟨_, .math hrole hp, hflips.wait _⟩
  | argument hrole hcalls hidle harg =>
    cases hflips with
    | mk hstack => exact ⟨_, .argument hrole hcalls hidle harg, .mk hstack ..⟩
  | @closeCall call outer args x hrole hcalls hidle hargs hopen hx =>
    have hcalls' : b'.calls = call :: outer := hflips.calls.trans hcalls
    have hclosed : Flips { b with calls := outer } { b' with calls := outer } := by
      cases hflips with
      | mk hstack => exact .mk hstack ..
    rw [← hclosed.waiting, ← hclosed.current] at hx
    exact ⟨_, .closeCall hrole hcalls' hidle hargs (hclosed.not_complete hopen) hx, hclosed.fill x⟩
  | compare hrole hcalls hopen hidle =>
    obtain ⟨hstack, previous, previous', held, calls, pending, expectsValue⟩ := hflips
    dsimp only at hopen
    subst hopen
    cases hstack with
    | here hframe below => cases hframe
    | there frame hbelow => exact ⟨_, .compare hrole hcalls rfl hidle, .mk (.there _ hbelow) ..⟩
  | connective hrole hcalls hsettle =>
    rw [hflips.base.1] at hsettle
    obtain ⟨stack₁', hsettle', hstack₁⟩ := Frame.settle_flipsIn hstack hsettle
    obtain ⟨children', last', below', rfl, hjoined⟩ := Frame.joined_flipsIn hstack₁
    rw [← hflips.base.2] at hsettle'
    obtain ⟨_, previous, previous', held, calls, pending, expectsValue⟩ := hflips
    exact ⟨_, .connective hrole hcalls hsettle', .mk hjoined ..⟩
  | @openGroup frame below hrole hcalls hbase hframe hidle =>
    have hawaits : ∃ frame' below', b'.base = frame' :: below' ∧ frame'.awaits = true := by
      rw [hflips.base.1] at hbase
      rw [hbase] at hstack
      rw [hflips.base.2]
      generalize b'.stack = stack' at hstack
      cases hstack with
      | there _ hbelow => exact ⟨frame, _, rfl, hframe⟩
      | here hchanged below =>
        cases hchanged with
        | logical op hleft => exact ⟨_, below, rfl, rfl⟩
        | group before after hchild => cases before <;> cases hframe
        | comparison left right => cases hframe
        | set left range values => cases hframe
    obtain ⟨frame', below', hbase', hframe'⟩ := hawaits
    have hopened : Frame.FlipsIn (.group [] :: b.base) (.group [] :: b'.base) := by
      rw [hflips.base.1, hflips.base.2]
      exact .there _ hstack
    obtain ⟨_, previous, previous', held, calls, pending, expectsValue⟩ := hflips
    exact ⟨_, .openGroup hrole hcalls hbase' hframe' hidle, .mk hopened ..⟩
  | closeGroup hrole hcalls hsettle hbelow hchildren hattach =>
    rw [hflips.base.1] at hsettle
    obtain ⟨stack₁', hsettle', hstack₁⟩ := Frame.settle_flipsIn hstack hsettle
    rw [← hflips.base.2] at hsettle'
    obtain ⟨_, previous, previous', held, calls, pending, expectsValue⟩ := hflips
    cases hstack₁ with
    | here hframe below =>
      cases hframe with
      | group before after hchild =>
        obtain ⟨stack₂', hattach', hstack₂⟩ :=
          Frame.attach_flips (.group before after true hchild) hattach
        exact ⟨_, .closeGroup hrole hcalls hsettle' hbelow (by simp) hattach', .mk hstack₂ ..⟩
    | there frame hbelow' =>
      obtain ⟨stack₂', hattach', hstack₂⟩ := Frame.attach_flipsIn hbelow' hattach
      exact ⟨_, .closeGroup hrole hcalls hsettle' hbelow'.ne_nil.2 hchildren hattach',
        .mk hstack₂ ..⟩
  | openSet hrole hcalls hopen hidle hprevious =>
    obtain ⟨op', negated', below', hopen', hprevious', hopened⟩ := h.openSet hopen hprevious _
    obtain ⟨_, previous, previous', held, calls, pending, expectsValue⟩ := hflips
    exact ⟨_, .openSet hrole hcalls hopen' hidle hprevious', .mk hopened ..⟩
  | @value left op values below hrole hcalls hopen hexpects hidle =>
    obtain ⟨hstack, previous, previous', held, calls, pending, expectsValue⟩ := hflips
    dsimp only at hopen
    subst hopen
    cases hstack with
    | here hframe below =>
      cases hframe with
      | set left range values =>
        exact ⟨_, .value hrole hcalls rfl hexpects hidle,
          .mk (.here (.set left range values) below) ..⟩
    | there frame hbelow =>
      exact ⟨_, .value hrole hcalls rfl hexpects hidle, .mk (.there _ hbelow) ..⟩
  | @closeSet left op values below stack₁ hrole hcalls hopen hidle hexpects hdefect hattach =>
    obtain ⟨hstack, previous, previous', held, calls, pending, expectsValue⟩ := hflips
    dsimp only at hopen
    subst hopen
    cases hstack with
    | here hframe below =>
      cases hframe with
      | set left range values =>
        rw [SetOperator.delimiters_ofFlags, ← SetOperator.delimiters_ofFlags true] at hrole
        rw [← Condition.setDefect?_ofFlags true] at hdefect
        obtain ⟨stack₁', hattach', hstack₁⟩ :=
          Frame.attach_flips (.set left range values true) hattach
        exact ⟨_, .closeSet hrole hcalls rfl hidle hexpects hdefect hattach', .mk hstack₁ ..⟩
    | there frame hbelow =>
      obtain ⟨stack₁', hattach', hstack₁⟩ := Frame.attach_flipsIn hbelow hattach
      exact ⟨_, .closeSet hrole hcalls rfl hidle hexpects hdefect hattach', .mk hstack₁ ..⟩

/-! ## All tokens after the sign -/

theorem Flips.seen (h : b.Flips b') (u u' : Option Token) : (b.seen u).Flips (b'.seen u') := by
  cases h with
  | mk hstack => exact .mk hstack ..

theorem heard_fill (b : Builder) (o : Operand) : (b.fill o).heard = b.heard := by
  obtain ⟨stack, previous, held, calls, pending, expectsValue⟩ := b
  cases calls with
  | cons call outer => rfl
  | nil =>
    induction stack using stack_cases with
    | comparison left op right below => cases op <;> rfl
    | _ => rfl

theorem Agreed.release (h : b.Agreed b') (hrelease : b.release = .ok b₁) :
    ∃ b₁', b'.release = .ok b₁' ∧ b₁.Agreed b₁' := by
  have htold := told_of_release h.told hrelease
  rcases release_eq_ok.1 hrelease with ⟨hheld, rfl⟩ | ⟨word, x, hheld, hopen, hx, rfl⟩
  · exact ⟨b', release_of_held_none (h.flips.held.trans hheld), h⟩
  · have hheld' : b'.held = some word := h.flips.held.trans hheld
    have hforget : b.forgetHeld.Flips b'.forgetHeld := by
      cases h.flips with
      | mk hstack => exact .mk hstack ..
    rw [← h.flips.waiting, ← h.flips.current] at hx
    have hrelease' : b'.release = .ok (b'.forgetHeld.fill x) :=
      release_eq_ok.2 (.inr ⟨word, x, hheld', h.flips.not_complete hopen, hx, rfl⟩)
    refine ⟨_, hrelease', hforget.fill x, ?_, htold, told_of_release h.told' hrelease'⟩
    rw [heard_fill, heard_fill]
    exact h.heard

/-- **One token.** What one state takes, the other one takes. -/
theorem Agreed.feed (h : b.Agreed b') (hfeed : b.feed t = .ok b₁) :
    ∃ b₁', b'.feed t = .ok b₁' ∧ b₁.Agreed b₁' := by
  cases feed_iff.1 hfeed with
  | @call name hheld hkind hexpects hopen =>
    have hheld' : b'.held = some name := h.flips.held.trans hheld
    have hexpects' : b'.expectsOperand = true := h.flips.expectsOperand.trans hexpects
    have hfeed' := feed_iff.2 (.call hheld' hkind hexpects' (h.flips.not_complete hopen))
    refine ⟨_, hfeed', ?_, .inl rfl, told_of_feed hfeed, told_of_feed hfeed'⟩
    cases h.flips with
    | mk hstack => exact .mk hstack ..
  | move hplain hrelease hmove =>
    obtain ⟨b₂', hrelease', hagreed⟩ := h.release hrelease
    obtain ⟨b₃', hmove', hflips⟩ := hmove.flips hagreed
    have hplain' : b'.held = none ∨ t.kind ≠ .delimiter .openParen := h.flips.held ▸ hplain
    have hfeed' := feed_iff.2 (.move hplain' hrelease' hmove')
    exact ⟨_, hfeed', hflips.seen _ _, .inl rfl, told_of_feed hfeed, told_of_feed hfeed'⟩

/-- **The sign.** Where an equality sign is taken, an inequality sign is. -/
theorem agreed_of_sign {t' : Token} (ht : t.kind = .operator .eq) (ht' : t'.kind = .operator .ne)
    (hfeed : b.feed t = .ok b₁) :
    ∃ b₁', b.feed t' = .ok b₁' ∧ b₁.Agreed b₁' := by
  cases feed_iff.1 hfeed with
  | call _ hkind => cases ht.symm.trans hkind
  | move _ hrelease hmove =>
    have hrole : Role.ofToken t = .compare .eq := by rw [Role.ofToken, ht]
    have hrole' : Role.ofToken t' = .compare .ne := by rw [Role.ofToken, ht']
    obtain ⟨hcalls, hidle, left, right, below, hstack, rfl⟩ := hmove.of_compare hrole
    have hplain' : t'.kind ≠ .delimiter .openParen := fun hkind => by cases ht'.symm.trans hkind
    have hfeed' := feed_iff.2 (.move (.inr hplain') hrelease (.compare hrole' hcalls hstack hidle))
    have hheard : t.operator? = some .eq := by rw [Token.operator?, ht]
    have hheard' : t'.operator? = some .ne := by rw [Token.operator?, ht']
    exact ⟨_, hfeed', .mk (.here (.comparison left right) below) .., .inr ⟨hheard, hheard'⟩,
      told_of_feed hfeed, told_of_feed hfeed'⟩

theorem Agreed.feedAll {ts : List Token} (h : b.Agreed b') (hts : b.feedAll ts = .ok b₁) :
    ∃ b₁', b'.feedAll ts = .ok b₁' ∧ b₁.Agreed b₁' := by
  induction ts generalizing b b' with
  | nil =>
    cases hts
    exact ⟨b', rfl, h⟩
  | cons t ts ih =>
    obtain ⟨b₂, hfeed, hrest⟩ := feedAll_cons.1 hts
    obtain ⟨b₂', hfeed', hagreed⟩ := h.feed hfeed
    obtain ⟨b₁', hrest', hagreed₁⟩ := ih hagreed hrest
    exact ⟨b₁', feedAll_cons.2 ⟨b₂', hfeed', hrest'⟩, hagreed₁⟩

theorem Agreed.finish {stop : Nat} {c : Condition} (h : b.Agreed b')
    (hfinish : b.finish stop = .ok c) :
    ∃ c', b'.finish stop = .ok c' ∧ c.Flips c' := by
  obtain ⟨b₁, children, hrelease, hcalls, hsettle, hchildren, rfl⟩ := finish_eq_ok.1 hfinish
  obtain ⟨b₁', hrelease', hagreed⟩ := h.release hrelease
  have hflips := hagreed.flips
  rw [hflips.base.1] at hsettle
  obtain ⟨stack', hsettle', hstack⟩ := Frame.settle_flipsIn hflips.stack hsettle
  rw [← hflips.base.2] at hsettle'
  obtain ⟨_, previous, previous', held, calls, pending, expectsValue⟩ := hflips
  cases hstack with
  | there _ hbelow => cases hbelow
  | here hframe =>
    cases hframe with
    | @group c c' before after hchild =>
      exact ⟨_,
        finish_eq_ok.2 ⟨_, before ++ c' :: after, hrelease', hcalls, hsettle', by simp, rfl⟩,
        .group before after true hchild⟩

end Builder

namespace Condition

theorem eq_ok_of_forget {x : Except SyntaxError Condition} {c : Condition}
    (h : SyntaxError.forget id x = .ok c) : x = .ok c := by
  cases x with
  | ok c' => exact h
  | error e => cases h

/-- **An inequality for an equality.** Tokens with an inequality sign in the place of an equality
sign are read as the condition that has the inequality in the place of the equality. -/
theorem ofTokens_flips {earlier later later' : List Token} {t t' : Token} {c : Condition}
    (ht : t.kind = .operator .eq) (ht' : t'.kind = .operator .ne)
    (hlater : later'.map Token.unplaced = later.map Token.unplaced)
    (h : ofTokens (earlier ++ t :: later) = .ok c) :
    ∃ c', ofTokens (earlier ++ t' :: later') = .ok c' ∧ c.Flips c' := by
  -- the places after the sign are different ones, so both lists are read without places
  have hread := forget_ofTokens_eq (earlier ++ t :: later)
  rw [h, List.map_append, List.map_cons] at hread
  obtain ⟨b, hfeed, hfinish⟩ := bind_eq_ok.1 hread.symm
  obtain ⟨b₁, hearlier, hrest⟩ := Builder.feedAll_append.1 hfeed
  obtain ⟨b₂, hsign, hafter⟩ := Builder.feedAll_cons.1 hrest
  have hkind : t.unplaced.kind = .operator .eq := ht
  have hkind' : t'.unplaced.kind = .operator .ne := ht'
  obtain ⟨b₂', hsign', hagreed⟩ := Builder.agreed_of_sign hkind hkind' hsign
  obtain ⟨b', hafter', hagreed'⟩ := hagreed.feedAll hafter
  obtain ⟨c', hfinish', hflips⟩ := hagreed'.finish hfinish
  refine ⟨c', eq_ok_of_forget ?_, hflips⟩
  rw [forget_ofTokens_eq, List.map_append, List.map_cons, hlater]
  refine bind_eq_ok.2 ⟨b', ?_, hfinish'⟩
  exact Builder.feedAll_append.2 ⟨b₁, hearlier, Builder.feedAll_cons.2 ⟨b₂', hsign', hafter'⟩⟩

end Condition

end GuardedFlow
