import GuardedFlow.Condition.Parse
import GuardedFlow.Proofs.Result

/-!
# Places are only carried along

What a builder does with a token does not depend on the places of tokens: they are kept for the
errors alone. So a list of tokens is read in the same way without the places
(`Condition.forget_ofTokens`). Each transition is followed by itself, with the place 0 in place of
every other one.
-/

namespace GuardedFlow

/-- A token without its place. -/
def Token.unplaced (t : Token) : Token := { t with offset := 0, length := 0 }

/-- An error without its place. -/
def SyntaxError.unplaced : SyntaxError → SyntaxError
  | tokens e => tokens ⟨e.quote, 0⟩
  | structural problem _ => structural problem 0
  | defect d => defect d

/-- A result without places, with `f` for what it holds. -/
def SyntaxError.forget {α β : Type} (f : α → β) : Except SyntaxError α → Except SyntaxError β
  | .ok a => .ok (f a)
  | .error e => .error e.unplaced

open SyntaxError (forget)

section Results

variable {α β γ δ : Type} {f : α → β}

theorem forget_bind {g : γ → δ} {x : Except SyntaxError α} {x' : Except SyntaxError β}
    {k : α → Except SyntaxError γ} {k' : β → Except SyntaxError δ} (hx : forget f x = x')
    (hk : ∀ a, forget g (k a) = k' (f a)) :
    forget g (x >>= k) = x' >>= k' := by
  subst hx
  cases x with
  | error e => rfl
  | ok a => exact hk a

theorem forget_locate (offset : Nat) (x : Except Problem α) :
    forget id (Builder.locate offset x) = Builder.locate 0 x := by
  cases x <;> rfl

theorem forget_requireIdle (pending : Pending) (offset : Nat) :
    forget id (Builder.requireIdle pending offset) = Builder.requireIdle pending 0 := by
  unfold Builder.requireIdle
  cases pending.missing? <;> rfl

end Results

namespace Frame

theorem forget_attach (offset : Nat) (c : Condition) (stack : List Frame) :
    forget id (attach offset c stack) = attach 0 c stack := by
  induction stack generalizing c with
  | nil => rfl
  | cons frame below ih =>
    cases frame with
    | logical op left => exact ih _
    | _ => rfl

theorem forget_settle (offset : Nat) (pending : Pending) (stack : List Frame) :
    forget id (settle offset pending stack) = settle 0 pending stack := by
  match stack with
  | [] | .group _ :: _ | .logical .. :: _ | .set .. :: _ => rfl
  | .comparison left op right :: below =>
    rw [settle, settle]
    cases pending.missing? with
    | some problem => rfl
    | none =>
      rcases nullTest op right with ⟨_ | op, right⟩
      · rfl
      · dsimp only
        cases right.isNone && !op.isUnary with
        | true => rfl
        | false =>
          cases Condition.comparisonDefect? left (some op) right with
          | some d => rfl
          | none => exact forget_attach ..

end Frame

namespace Builder

/-- A builder that has forgotten the places of the tokens it keeps. -/
def unplaced (b : Builder) : Builder :=
  { b with previous := b.previous.map Token.unplaced, held := b.held.map Token.unplaced }

theorem stack_unplaced (b : Builder) : b.unplaced.stack = b.stack := rfl

theorem calls_unplaced (b : Builder) : b.unplaced.calls = b.calls := rfl

variable (b : Builder) (role : Role) (text : String) (offset : Nat) (below : List Frame)

/-! ## Tokens in the innermost container -/

theorem forget_openComparison (o : Operand) :
    forget unplaced (b.openComparison offset o) = b.unplaced.openComparison 0 o := by
  unfold openComparison
  exact forget_bind (forget_locate ..) fun _ => rfl

theorem forget_openGroup : forget unplaced (b.openGroup offset) = b.unplaced.openGroup 0 := by
  unfold openGroup
  change _ = if b.pending.isIdle then _ else _
  split <;> rfl

theorem forget_pushMath (expectsOperand : Bool) (op : Operator) :
    forget unplaced (b.pushMath offset expectsOperand op) =
      b.unplaced.pushMath 0 expectsOperand op := by
  unfold pushMath
  exact forget_bind (forget_locate ..) fun _ => rfl

theorem forget_joinWith (children : List Condition) (op : Connective) :
    forget unplaced (b.joinWith offset children below op) =
      b.unplaced.joinWith 0 children below op := by
  unfold joinWith
  split
  · rfl
  · split <;> rfl

theorem forget_takeConnective (op : Connective) :
    forget unplaced (b.takeConnective offset op) = b.unplaced.takeConnective 0 op := by
  unfold takeConnective
  rw [stack_unplaced]
  split
  · exact forget_joinWith ..
  · rfl

theorem forget_placeInGroup (children : List Condition) :
    forget unplaced (b.placeInGroup role text offset children below) =
      b.unplaced.placeInGroup role text 0 children below := by
  unfold placeInGroup
  cases role with
  | operand o =>
    simp only
    split
    · exact forget_openComparison ..
    · rfl
  | openGroup =>
    simp only
    split
    · exact forget_openGroup ..
    · rfl
  | math op => exact forget_pushMath ..
  | logical op => exact forget_takeConnective ..
  | closeGroup =>
    simp only
    split
    · rfl
    · split
      · rfl
      · exact forget_bind (Frame.forget_attach ..) fun _ => rfl
  | _ => rfl

theorem forget_placeInLogical (frame : Frame) :
    forget unplaced (b.placeInLogical role text offset frame) =
      b.unplaced.placeInLogical role text 0 frame := by
  unfold placeInLogical
  cases role with
  | operand o => exact forget_openComparison ..
  | openGroup => exact forget_openGroup ..
  | math op => exact forget_pushMath ..
  | _ => rfl

variable (left : Operand)

theorem forget_extendComparison (op : Option Comparator) (right : Option Operand) (o : Operand) :
    forget unplaced (b.extendComparison offset left op right below o) =
      b.unplaced.extendComparison 0 left op right below o := by
  unfold extendComparison
  dsimp only
  exact forget_bind (forget_locate ..) fun _ => rfl

theorem forget_takeOperand (o : Operand) :
    forget unplaced (b.takeOperand offset o) = b.unplaced.takeOperand 0 o := by
  unfold takeOperand
  rw [stack_unplaced]
  split
  · exact forget_extendComparison ..
  · rfl

theorem forget_takeComparator (comparator : Comparator) :
    forget unplaced (b.takeComparator offset comparator) =
      b.unplaced.takeComparator 0 comparator := by
  unfold takeComparator
  refine forget_bind (forget_requireIdle ..) fun _ => ?_
  rw [stack_unplaced]
  split
  · split <;> rfl
  · rfl

theorem previous_unplaced :
    b.unplaced.previous.bind Token.operator? = b.previous.bind Token.operator? := by
  cases b with
  | mk stack previous =>
    cases previous <;> rfl

theorem forget_openSet (right : Option Operand) (range : Bool) :
    forget unplaced (b.openSet offset left right below range) =
      b.unplaced.openSet 0 left right below range := by
  unfold openSet
  rw [previous_unplaced]
  dsimp only
  split
  · rfl
  · refine forget_bind (forget_requireIdle ..) fun _ => ?_
    cases right <;> rfl

theorem forget_placeInComparison (op : Option Comparator) (right : Option Operand) :
    forget unplaced (b.placeInComparison role text offset left op right below) =
      b.unplaced.placeInComparison role text 0 left op right below := by
  unfold placeInComparison
  cases role with
  | operand o => exact forget_takeOperand ..
  | compare comparator => exact forget_takeComparator ..
  | math op => exact forget_pushMath ..
  | openSet range => exact forget_openSet ..
  | _ => rfl

variable (setOp : SetOperator) (values : List Operand)

theorem forget_addValue (o : Operand) :
    forget unplaced (b.addValue offset left setOp values below o) =
      b.unplaced.addValue 0 left setOp values below o := by
  unfold addValue
  dsimp only
  exact forget_bind (forget_locate ..) fun _ => rfl

theorem forget_takeValue (o : Operand) :
    forget unplaced (b.takeValue offset o) = b.unplaced.takeValue 0 o := by
  unfold takeValue
  rw [stack_unplaced]
  split
  · exact forget_addValue ..
  · rfl

theorem forget_closeSet (d : Delimiter) :
    forget unplaced (b.closeSet offset left setOp values below d) =
      b.unplaced.closeSet 0 left setOp values below d := by
  unfold closeSet
  refine forget_bind (forget_requireIdle ..) fun _ => ?_
  simp only
  split
  · rfl
  · change _ = if b.expectsValue && !values.isEmpty then _ else _
    split
    · rfl
    · split
      · rfl
      · exact forget_bind (Frame.forget_attach ..) fun _ => rfl

theorem forget_takeClosing (d : Delimiter) :
    forget unplaced (b.takeClosing offset d) = b.unplaced.takeClosing 0 d := by
  unfold takeClosing
  rw [stack_unplaced]
  split
  · exact forget_closeSet ..
  · exact forget_bind (forget_requireIdle ..) fun _ => rfl

theorem forget_placeInSet :
    forget unplaced (b.placeInSet role text offset left setOp values) =
      b.unplaced.placeInSet role text 0 left setOp values := by
  unfold placeInSet
  cases role with
  | operand o => exact forget_takeValue ..
  | math op => exact forget_pushMath ..
  | separator =>
    change _ = if b.expectsValue then _ else _
    simp only
    split
    · rfl
    · exact forget_bind (forget_requireIdle ..) fun _ => rfl
  | closeSet d => exact forget_takeClosing ..
  | _ => rfl

theorem forget_placeInnermost :
    forget unplaced (b.placeInnermost role text offset) =
      b.unplaced.placeInnermost role text 0 := by
  unfold placeInnermost
  rw [stack_unplaced]
  cases b.stack with
  | nil => rfl
  | cons frame below =>
    cases frame with
    | group children => exact forget_placeInGroup ..
    | logical op left => exact forget_placeInLogical ..
    | comparison left op right => exact forget_placeInComparison ..
    | set left op values => exact forget_placeInSet ..

theorem forget_place :
    forget unplaced (b.place role text offset) = b.unplaced.place role text 0 := by
  unfold place
  cases role.endsComparison with
  | false => exact forget_placeInnermost { b with stack := b.base } role text offset
  | true =>
    dsimp only
    rw [if_pos rfl, if_pos rfl]
    exact forget_bind (Frame.forget_settle ..) fun stack =>
      forget_placeInnermost { b with stack := stack } role text offset

/-! ## Calls -/

theorem forget_deliver (o : Operand) :
    forget unplaced (b.deliver offset o) = b.unplaced.deliver 0 o := by
  unfold deliver
  rw [calls_unplaced]
  cases b.calls with
  | nil => exact forget_place ..
  | cons call outer =>
    dsimp only
    exact forget_bind (forget_locate ..) fun _ => rfl

theorem forget_openCall (name : Token) :
    forget unplaced (b.openCall name) = b.unplaced.openCall name.unplaced := by
  unfold openCall
  rw [calls_unplaced, stack_unplaced]
  change _ = if !b.expectsOperand then _ else _
  cases b.expectsOperand with
  | false => rfl
  | true =>
    dsimp only
    rw [if_neg (by decide), if_neg (by decide)]
    split <;> rfl

theorem forget_placeInCall (call : OpenCall) (outer : List OpenCall) (t : Token) :
    forget unplaced (b.placeInCall call outer t) =
      b.unplaced.placeInCall call outer t.unplaced := by
  have hrole : Role.ofToken t.unplaced = Role.ofToken t := rfl
  unfold placeInCall
  rw [hrole]
  cases Role.ofToken t with
  | operand o => exact forget_deliver ..
  | math op =>
    dsimp only
    exact forget_bind (forget_locate ..) fun _ => rfl
  | separator =>
    dsimp only
    refine forget_bind (forget_requireIdle ..) fun _ => ?_
    cases call.current <;> rfl
  | closeGroup =>
    dsimp only
    refine forget_bind (forget_requireIdle ..) fun _ => ?_
    obtain ⟨name, args, current, pending⟩ := call
    cases current with
    | some arg => exact forget_deliver { b with calls := outer } t.offset _
    | none =>
      cases args with
      | nil => exact forget_deliver { b with calls := outer } t.offset _
      | cons arg args => rfl
  | _ => rfl

/-! ## The whole input -/

theorem forget_release : forget unplaced b.release = b.unplaced.release := by
  obtain ⟨stack, previous, held, calls, pending, expectsValue⟩ := b
  cases held with
  | none => rfl
  | some word => exact forget_deliver ..

theorem forget_feedPlain (t : Token) :
    forget unplaced (b.feedPlain t) = b.unplaced.feedPlain t.unplaced := by
  have hheld : isHeld t.unplaced = isHeld t := rfl
  unfold feedPlain
  rw [hheld, calls_unplaced]
  cases isHeld t with
  | true => rfl
  | false =>
    cases b.calls with
    | nil => exact forget_place ..
    | cons call outer => exact forget_placeInCall ..

theorem forget_consume (t : Token) :
    forget unplaced (b.consume t) = b.unplaced.consume t.unplaced := by
  have hplain : forget unplaced (b.release >>= fun released => released.feedPlain t) =
      b.unplaced.release >>= fun released => released.feedPlain t.unplaced :=
    forget_bind (forget_release b) fun released => forget_feedPlain released t
  obtain ⟨stack, previous, held, calls, pending, expectsValue⟩ := b
  obtain ⟨kind, text, offset, length⟩ := t
  cases held with
  | none => exact hplain
  | some name =>
    match kind with
    | .delimiter .openParen => exact forget_openCall ..
    | .delimiter .closeParen | .delimiter .openBracket | .delimiter .closeBracket
    | .delimiter .openBrace
    | .delimiter .closeBrace | .word | .quoted | .operator _ | .separator => exact hplain

/-- A token is taken in the same way whatever the places. -/
theorem forget_feed (t : Token) : forget unplaced (b.feed t) = b.unplaced.feed t.unplaced :=
  forget_bind (forget_consume b t) fun _ => rfl

theorem forget_finish (stop : Nat) : forget id (b.finish stop) = b.unplaced.finish 0 := by
  refine forget_bind (forget_release b) fun b => ?_
  rw [calls_unplaced, stack_unplaced]
  cases b.calls with
  | cons call outer => rfl
  | nil =>
    dsimp only
    cases b.stack.isEmpty with
    | true => rfl
    | false =>
      refine forget_bind (Frame.forget_settle ..) fun stack => ?_
      match stack with
      | [] => rfl
      | [.group children] => cases children <;> rfl
      | [.logical ..] | [.comparison ..] | [.set ..] => rfl
      | frame :: _ :: _ => cases frame <;> rfl

theorem forget_feedAll (ts : List Token) :
    forget unplaced (ts.foldlM feed b) = (ts.map Token.unplaced).foldlM feed b.unplaced := by
  induction ts generalizing b with
  | nil => rfl
  | cons t ts ih =>
    rw [List.foldlM_cons, List.map_cons, List.foldlM_cons]
    exact forget_bind (forget_feed b t) ih

end Builder

namespace Condition

theorem forget_ofTokens_eq (ts : List Token) :
    forget id (ofTokens ts) =
      (ts.map Token.unplaced).foldlM Builder.feed Builder.empty >>= (Builder.finish · 0) :=
  forget_bind (Builder.forget_feedAll Builder.empty ts) fun b =>
    Builder.forget_finish b (lastStop ts)

/-- **Places are not looked at.** Tokens that differ in their places only are read in the same way,
up to the place of an error. -/
theorem forget_ofTokens {ts us : List Token} (h : ts.map Token.unplaced = us.map Token.unplaced) :
    forget id (ofTokens ts) = forget id (ofTokens us) := by
  rw [forget_ofTokens_eq, forget_ofTokens_eq, h]

end Condition

end GuardedFlow
