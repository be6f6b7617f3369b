import GuardedFlow.Proofs.Builder.Discipline

/-!
# Problems that no tokens lead to

Some problems are of the builder and not of the tokens (`Problem.isInternal`): each says that a
container or an operand is not where it has to be. While the containers are in normal form and the
operands in order, no transition has such a problem (`SyntaxError.Spared`, one lemma for each
transition), and both are kept by every token. So neither the next token nor the end of the input
ever meets one (`Builder.discipline`).
-/

namespace GuardedFlow

/-- Whether a problem is that a container or an operand is not where it has to be. -/
def Problem.isInternal : Problem → Bool
  | noContainer | noComparison | noValueList | noGroup | strayClose | misplacedCondition _
  | dangling _ | pendingWithoutLeft
  | danglingSign => true
  | _ => false

/-- Whether an error is of the builder and not of the tokens. -/
def SyntaxError.isInternal : SyntaxError → Bool
  | structural problem _ => problem.isInternal
  | _ => false

/-- A computation whose error, if it ends in one, is of the tokens. -/
structure SyntaxError.Spared {α : Type} (x : Except SyntaxError α) : Prop where
  not_internal : ∀ e, x = .error e → e.isInternal = false

open SyntaxError (Spared)

section Results

variable {α β : Type} {offset : Nat} {problem : Problem}

theorem spared_ok (a : α) : Spared (.ok a) := ⟨nofun⟩

theorem spared_error {e : SyntaxError} (h : e.isInternal = false) :
    Spared (.error e : Except SyntaxError α) := by
  refine ⟨fun _ he => ?_⟩
  cases he
  exact h

theorem spared_fail (h : problem.isInternal = false) :
    Spared (Builder.fail offset problem : Except SyntaxError α) :=
  spared_error h

theorem spared_bind {x : Except SyntaxError α} {f : α → Except SyntaxError β} (hx : Spared x)
    (hf : ∀ a, x = .ok a → Spared (f a)) : Spared (x >>= f) := by
  refine ⟨fun e h => ?_⟩
  rcases bind_eq_error.1 h with h | ⟨a, ha, h⟩
  · exact hx.not_internal e h
  · exact (hf a ha).not_internal e h

theorem isInternal_of_missing? {p : Pending} (h : p.missing? = some problem) :
    problem.isInternal = false := by
  unfold Pending.missing? at h
  split at h <;> cases h <;> rfl

theorem spared_requireIdle (pending : Pending) (offset : Nat) :
    Spared (Builder.requireIdle pending offset) := by
  unfold Builder.requireIdle
  split
  · next hmissing => exact spared_fail (isInternal_of_missing? hmissing)
  · exact spared_ok _

/-- An operand is joined without trouble if a binary operator waits only after another. -/
theorem spared_combine {p : Pending} {current : Option Operand} (o : Operand)
    (h : p.binary.isSome = true → current.isSome = true) :
    Spared (Builder.locate offset (p.combine current o)) := by
  unfold Pending.combine
  split
  · exact spared_ok _
  · exact spared_ok _
  · exact spared_fail rfl
  · next hbinary =>
    rw [hbinary] at h
    exact absurd (h rfl) Bool.false_ne_true

theorem spared_reword {p : Pending} {current : Option Operand} (o : Operand)
    (hproblem : problem.isInternal = false) (h : p.binary.isSome = true → current.isSome = true) :
    Spared (Builder.locate offset (Builder.rewordMeeting problem (p.combine current o))) := by
  have hcombine : Spared (Builder.locate offset (p.combine current o)) := spared_combine o h
  unfold Builder.rewordMeeting
  split
  · exact spared_fail hproblem
  · exact hcombine

/-- An operator is taken in without trouble if signs wait only for an operand. -/
theorem spared_push {p : Pending} {expectsOperand : Bool} (op : Operator)
    (h : p.signs ≠ [] → expectsOperand = true) :
    Spared (Builder.locate offset (p.push expectsOperand op)) := by
  unfold Pending.push
  split
  · split
    · exact spared_ok _
    · exact spared_ok _
    · split <;> exact spared_fail rfl
  · next hexpects =>
    split
    · next hsigns => exact absurd (h hsigns) hexpects
    · split
      · exact spared_ok _
      · exact spared_fail rfl

end Results

namespace Frame

variable {stack : List Frame} {offset : Nat}

theorem Unfilled.spared_attach (h : Unfilled stack) (c : Condition) :
    Spared (Frame.attach offset c stack) := by
  induction h generalizing c with
  | root | group => exact spared_ok _
  | or => exact spared_ok _
  | and _ _ _ _ ih => exact ih _

theorem Formed.spared_settle (h : Formed stack) (pending : Pending) :
    Spared (Frame.settle offset pending stack) := by
  unfold Frame.settle
  split
  · have hbelow := h.of_comparison.2.2
    split
    · next hmissing => exact spared_error (isInternal_of_missing? hmissing)
    · split
      · exact spared_error rfl
      · split
        · exact spared_error rfl
        · split
          · exact spared_error rfl
          · exact hbelow.spared_attach _
  · exact spared_ok _

end Frame

namespace Builder

variable {b b' : Builder} {role : Role} {text : String} {offset : Nat}

/-! ## Tokens in the innermost container -/

theorem spared_openComparison (o : Operand) (h : b.pending.binary = none) :
    Spared (b.openComparison offset o) :=
  spared_bind (spared_combine o fun hsome => absurd hsome (by simp [h])) fun _ _ => spared_ok _

theorem spared_openGroup : Spared (b.openGroup offset) := by
  unfold openGroup
  split
  · exact spared_ok _
  · exact spared_fail rfl

theorem spared_pushMath {expectsOperand : Bool} (op : Operator)
    (h : b.pending.signs ≠ [] → expectsOperand = true) :
    Spared (b.pushMath offset expectsOperand op) :=
  spared_bind (spared_push op h) fun _ _ => spared_ok _

theorem spared_joinWith {children : List Condition} {below : List Frame} (op : Connective) :
    Spared (b.joinWith offset children below op) := by
  unfold joinWith
  split
  · exact spared_fail rfl
  · split <;> exact spared_ok _

theorem Steady.waits (h : b.Steady) (hcalls : b.calls = []) :
    (b.pending.binary.isSome = true → b.frameCurrent.isSome = true) ∧
    (b.pending.signs ≠ [] → b.expectsOperand = true) := by
  obtain ⟨hbinary, hsigns, -⟩ := h
  rw [waiting, Builder.current, hcalls] at hbinary
  rw [waiting, hcalls] at hsigns
  exact ⟨hbinary, hsigns⟩

/-- Nothing is being read where the innermost container holds no operand, so that no binary operator
waits. -/
theorem Steady.binary_eq_none (h : b.Steady) (hcalls : b.calls = [])
    (hcurrent : b.frameCurrent = none) :
    b.pending.binary = none := by
  refine Option.not_isSome_iff_eq_none.1 fun hsome => ?_
  have hcurrent' := (h.waits hcalls).1 hsome
  rw [hcurrent] at hcurrent'
  exact absurd hcurrent' Bool.false_ne_true

theorem spared_placeInGroup {children : List Condition} {below : List Frame} (h : b.Steady)
    (hcalls : b.calls = []) (hstack : b.stack = .group children :: below)
    (hformed : Frame.Formed b.stack) :
    Spared (b.placeInGroup role text offset children below) := by
  unfold placeInGroup
  cases role with
  | operand o =>
    dsimp only
    split
    · exact spared_openComparison o (h.binary_eq_none hcalls (by rw [frameCurrent, hstack]))
    · exact spared_fail rfl
  | openGroup =>
    dsimp only
    split
    · exact spared_openGroup
    · exact spared_fail rfl
  | math op => exact spared_pushMath op fun _ => rfl
  | logical op =>
    dsimp only
    rw [takeConnective, hstack]
    exact spared_joinWith op
  | closeGroup =>
    dsimp only
    split
    · exact spared_fail rfl
    · next hbelow =>
      split
      · exact spared_error rfl
      · rw [hstack] at hformed
        have hunfilled := hformed.tail fun hnil => hbelow (by simp [hnil])
        exact spared_bind (hunfilled.spared_attach _) fun _ _ => spared_ok _
  | compare | openSet | closeSet | separator => exact spared_fail rfl

theorem spared_placeInLogical {op : Connective} {left : Condition} {below : List Frame}
    (h : b.Steady) (hcalls : b.calls = []) (hstack : b.stack = .logical op left :: below) :
    Spared (b.placeInLogical role text offset (.logical op left)) := by
  unfold placeInLogical
  cases role with
  | operand o =>
    exact spared_openComparison o (h.binary_eq_none hcalls (by rw [frameCurrent, hstack]))
  | openGroup => exact spared_openGroup
  | math op => exact spared_pushMath op fun _ => rfl
  | _ => exact spared_fail rfl

theorem spared_placeInComparison {left : Operand} {op : Option Comparator} {right : Option Operand}
    {below : List Frame} (h : b.Steady) (hcalls : b.calls = [])
    (hstack : b.stack = .comparison left op right :: below) :
    Spared (b.placeInComparison role text offset left op right below) := by
  obtain ⟨hbinary, hsigns⟩ := h.waits hcalls
  unfold placeInComparison
  cases role with
  | operand o =>
    dsimp only
    rw [takeOperand, hstack]
    refine spared_bind (spared_reword o rfl fun hsome => ?_) fun _ _ => spared_ok _
    have hcurrent := hbinary hsome
    rw [frameCurrent, hstack] at hcurrent
    cases op <;> exact hcurrent
  | compare comparator =>
    refine spared_bind (spared_requireIdle _ _) fun _ _ => ?_
    rw [hstack]
    dsimp only
    split
    · exact spared_fail rfl
    · exact spared_ok _
  | math o =>
    rw [expectsOperand, hcalls, hstack] at hsigns
    exact spared_pushMath o hsigns
  | openSet range =>
    dsimp only
    unfold openSet
    dsimp only
    split
    · exact spared_fail rfl
    · refine spared_bind (spared_requireIdle _ _) fun _ _ => ?_
      split
      · exact spared_fail rfl
      · exact spared_ok _
  | _ => exact spared_fail rfl

theorem spared_placeInSet {left : Operand} {op : SetOperator} {values : List Operand}
    {below : List Frame} (h : b.Steady) (hcalls : b.calls = [])
    (hstack : b.stack = .set left op values :: below) (hformed : Frame.Formed b.stack) :
    Spared (b.placeInSet role text offset left op values) := by
  obtain ⟨hbinary, hsigns⟩ := h.waits hcalls
  unfold placeInSet
  cases role with
  | operand o =>
    dsimp only
    rw [takeValue, hstack]
    refine spared_bind (spared_reword o rfl fun hsome => ?_) fun _ _ => spared_ok _
    have hcurrent := hbinary hsome
    rwa [frameCurrent, hstack] at hcurrent
  | math o =>
    rw [expectsOperand, hcalls, hstack] at hsigns
    exact spared_pushMath o hsigns
  | separator =>
    dsimp only
    split
    · exact spared_fail rfl
    · exact spared_bind (spared_requireIdle _ _) fun _ _ => spared_ok _
  | closeSet d =>
    dsimp only
    rw [takeClosing, hstack]
    refine spared_bind (spared_requireIdle _ _) fun _ _ => ?_
    dsimp only
    split
    · exact spared_fail rfl
    · split
      · exact spared_fail rfl
      · split
        · exact spared_error rfl
        · rw [hstack] at hformed
          exact spared_bind (hformed.of_set.2.2.spared_attach _) fun _ _ => spared_ok _
  | _ => exact spared_fail rfl

theorem spared_placeInnermost (h : b.Steady) (hcalls : b.calls = [])
    (hformed : Frame.Formed b.stack) :
    Spared (b.placeInnermost role text offset) := by
  unfold placeInnermost
  split
  · next hstack => exact absurd hstack hformed.ne_nil
  · next hstack => exact spared_placeInGroup h hcalls hstack hformed
  · next hstack => exact spared_placeInLogical h hcalls hstack
  · next hstack => exact spared_placeInComparison h hcalls hstack
  · next hstack => exact spared_placeInSet h hcalls hstack hformed

/-- The outermost group that the first token opens changes nothing about what is being read. -/
theorem Steady.based (h : b.Steady) : ({ b with stack := b.base } : Builder).Steady := by
  obtain ⟨stack, previous, held, calls, pending, expectsValue⟩ := b
  cases stack with
  | nil => cases calls <;> exact ⟨h.binary, h.signs, h.current⟩
  | cons frame below => exact h

/-- A closed comparison leaves nothing that is being read. -/
theorem Steady.settled {stack : List Frame} (h : b.Steady) (hcalls : b.calls = [])
    (hsettle : Frame.settle offset b.pending b.base = .ok stack) :
    ({ b with stack := stack } : Builder).Steady := by
  rcases Frame.settle_cases hsettle with rfl | ⟨_, _, _, _, -, hidle, _, _, -, -, hattach⟩
  · exact h.based
  · obtain ⟨-, _, _, _, rfl⟩ := Frame.attach_eq_ok hattach
    refine steady_of_expects ?_ ?_
    · simp [waiting, hcalls, hidle, Pending.idle]
    · simp [expectsOperand, hcalls]

theorem spared_place (h : b.Steady) (hcalls : b.calls = []) (hformed : Frame.Formed b.base) :
    Spared (b.place role text offset) := by
  unfold place
  cases role.endsComparison with
  | false => exact spared_placeInnermost h.based hcalls hformed
  | true =>
    refine spared_bind (hformed.spared_settle _) fun stack hsettle => ?_
    exact spared_placeInnermost (h.settled hcalls hsettle) hcalls (hformed.settle hsettle)

/-! ## Calls -/

/-- What keeps a builder from problems of its own. -/
structure Guarded (b : Builder) : Prop where
  formed : b.Formed
  inOrder : b.InOrder

theorem guarded_of_feedAll {ts : List Token} (h : empty.feedAll ts = .ok b) : b.Guarded :=
  ⟨formed_of_feedAll h, inOrder_of_feedAll h⟩

theorem Guarded.released (h : b.Guarded) (hrelease : b.release = .ok b') : b'.Guarded :=
  ⟨formed_of_release h.formed hrelease, inOrder_of_release h.inOrder hrelease⟩

theorem Guarded.outer {call : OpenCall} {calls : List OpenCall} (h : b.Guarded)
    (hcalls : b.calls = call :: calls) :
    ({ b with calls := calls } : Builder).Guarded :=
  ⟨(h.formed.outer hcalls).2, h.inOrder.outer hcalls⟩

theorem Guarded.spared_deliver (h : b.Guarded) (o : Operand) : Spared (b.deliver offset o) := by
  have hbinary := h.inOrder.steady.binary
  unfold deliver
  split
  · next call outer hcalls =>
    rw [waiting, Builder.current, hcalls] at hbinary
    exact spared_bind (spared_combine o hbinary) fun _ _ => spared_ok _
  · next hcalls => exact spared_place h.inOrder.steady hcalls h.formed.base

theorem spared_openCall (name : Token) : Spared (b.openCall name) := by
  unfold openCall
  split
  · exact spared_fail rfl
  · dsimp only
    split
    · exact spared_fail rfl
    · exact spared_ok _

theorem Guarded.spared_placeInCall {call : OpenCall} {outer : List OpenCall} (h : b.Guarded)
    (hcalls : b.calls = call :: outer) (t : Token) : Spared (b.placeInCall call outer t) := by
  unfold placeInCall
  cases Role.ofToken t with
  | operand o => exact h.spared_deliver o
  | math op =>
    have hsigns := h.inOrder.steady.signs
    rw [waiting, expectsOperand, hcalls] at hsigns
    exact spared_bind (spared_push op hsigns) fun _ _ => spared_ok _
  | separator =>
    refine spared_bind (spared_requireIdle _ _) fun _ _ => ?_
    split
    · exact spared_ok _
    · exact spared_fail rfl
  | closeGroup =>
    refine spared_bind (spared_requireIdle _ _) fun _ _ => ?_
    dsimp only
    split
    · exact (h.outer hcalls).spared_deliver _
    · exact (h.outer hcalls).spared_deliver _
    · exact spared_fail rfl
  | _ => exact spared_fail rfl

/-! ## The whole input -/

theorem Guarded.spared_feedPlain (h : b.Guarded) (t : Token) : Spared (b.feedPlain t) := by
  unfold feedPlain
  split
  · exact spared_ok _
  · split
    · next hcalls => exact h.spared_placeInCall hcalls t
    · next hcalls => exact spared_place h.inOrder.steady hcalls h.formed.base

theorem Guarded.spared_release (h : b.Guarded) : Spared b.release := by
  have hforget : b.forgetHeld.Guarded := ⟨⟨h.formed.base, h.formed.calls⟩, h.inOrder.forgetHeld⟩
  unfold release
  split
  · exact hforget.spared_deliver _
  · exact spared_ok _

theorem Guarded.spared_feed (h : b.Guarded) (t : Token) : Spared (b.feed t) := by
  refine spared_bind ?_ fun _ _ => spared_ok _
  unfold consume
  split
  · exact spared_openCall _
  · exact spared_bind h.spared_release fun _ hrelease => (h.released hrelease).spared_feedPlain t

theorem spared_unclosed (frame : Frame) (stop : Nat) :
    Spared (fail stop frame.unclosed : Except SyntaxError Condition) := by
  cases frame <;> exact spared_fail rfl

theorem Guarded.spared_finish (h : b.Guarded) (stop : Nat) : Spared (b.finish stop) := by
  refine spared_bind h.spared_release fun b hrelease => ?_
  have hformed := (h.released hrelease).formed.base
  split
  · exact spared_fail rfl
  · cases hstack : b.stack with
    | nil => exact spared_fail rfl
    | cons frame below =>
      rw [base_of_stack hstack] at hformed
      refine spared_bind (hformed.spared_settle _) fun stack hsettle => ?_
      have hsettled := hformed.settle hsettle
      split
      · split
        · exact spared_error rfl
        · exact spared_ok _
      · next frame hgroup =>
        -- a single container is the outermost one, and so a group
        obtain ⟨children, rfl⟩ := hsettled.eq_group
        exact absurd rfl (hgroup children)
      · exact spared_unclosed _ stop
      · exact spared_fail rfl

/-- **Discipline.** Between two tokens, the open containers lie in each other as they should, each
connective with its left side and without a right one, and a binary operator waits only after an
operand, in each open call and outside of them. Neither the next token nor the end of the input
meets a problem that is not of the tokens. -/
theorem discipline {ts : List Token} (h : empty.feedAll ts = .ok b) :
    Frame.Disciplined b.stack ∧
    (∀ call ∈ b.calls, call.pending.binary.isSome = true → call.current.isSome = true) ∧
    (b.pending.binary.isSome = true → b.frameCurrent.isSome = true) ∧
    (∀ t e, b.feed t = .error e → e.isInternal = false) ∧
    ∀ stop e, b.finish stop = .error e → e.isInternal = false := by
  have hguarded := guarded_of_feedAll h
  refine ⟨?_, fun call hcall => ?_, ?_, fun t => (hguarded.spared_feed t).not_internal,
    fun stop => (hguarded.spared_finish stop).not_internal⟩
  · by_cases hstack : b.stack = []
    · rw [hstack]
      exact Frame.disciplined_nil
    · rw [← base_of_ne_nil hstack]
      exact hguarded.formed.base.disciplined
  · obtain ⟨inner, outer, hcalls⟩ := List.append_of_mem hcall
    exact (hguarded.inOrder (call :: outer) ⟨inner, hcalls.symm⟩).binary
  · exact (hguarded.inOrder [] (List.nil_suffix)).binary

end Builder

/-- The tokens of `a = 1 || (b - f(c +`, which stop in the middle. -/
def Token.midway : List Token :=
  [.word "a" 0, .operator .eq 2, .word "1" 4, .operator .or 6, .delimiter .openParen 9,
    .word "b" 10, .operator .sub 12, .word "f" 14, .delimiter .openParen 15, .word "c" 16,
    .operator .add 18]

theorem Builder.discipline_midway : ∃ b, empty.feedAll Token.midway = .ok b ∧
    b.stack = [.comparison (.var "b") none none, .group [],
      .logical .or (.comparison (.var "a") (some .eq) (some (.ofWord "1"))), .group []] ∧
    Frame.Disciplined b.stack ∧
    (∀ call ∈ b.calls, call.pending.binary.isSome = true → call.current.isSome = true) ∧
    b.pending.binary = some .sub ∧ b.frameCurrent.isSome = true ∧
    (∀ t e, b.feed t = .error e → e.isInternal = false) ∧
    ∀ stop e, b.finish stop = .error e → e.isInternal = false := by
  have h : empty.feedAll Token.midway = .ok _ := rfl
  obtain ⟨hstack, hcalls, hcurrent, hfeed, hfinish⟩ := discipline h
  exact ⟨_, h, rfl, hstack, hcalls, rfl, hcurrent rfl, hfeed, hfinish⟩

end GuardedFlow
