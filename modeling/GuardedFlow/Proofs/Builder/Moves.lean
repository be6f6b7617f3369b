import GuardedFlow.Proofs.Builder.Slot
import GuardedFlow.Proofs.Condition.Defect

/-!
# What a token can do

`Builder.Move b t b'` lists the ways in which a builder without a held word takes a token: one
constructor for each, with everything that has to hold and the state that follows.
`Builder.feedPlain_iff_move` says that these are all, and `Builder.feed_iff` that a token is fed by
such a move after the held word, if there is one, has been delivered, or else opens a call. What
holds of all reachable states is proved by cases on moves.
-/

namespace GuardedFlow

/-- The arguments of a call that can be closed: a comma has to be followed by one. -/
def OpenCall.finished? (c : OpenCall) : Option (List Operand) :=
  match c.current, c.args with
  | some arg, args => some (args ++ [arg])
  | none, [] => some []
  | none, _ :: _ => none

namespace Frame

/-- Whether a container waits for a condition. -/
def awaits : Frame → Bool
  | group children => children.isEmpty
  | logical .. => true
  | _ => false

/-- The containers that a connective makes of the condition before it: `&&` takes over the right
side of a finished `||`. -/
def joined (op : Connective) (last : Condition) : List Frame :=
  match op, last with
  | .and, .logical .or (some left) (some right) _ => [logical .and right, logical .or left]
  | _, _ => [logical op last]

section Settle

variable {offset : Nat} {pending : Pending} {stack stack' below : List Frame} {left : Operand}
    {right right' : Option Operand}

/-- A comparison that has all it needs is delivered when it is closed. -/
theorem settle_comparison {op op' : Comparator}
    (hnull : nullTest (some op) right = (some op', right'))
    (hdefect : Condition.comparisonDefect? left (some op') right' = none) :
    settle offset .idle (comparison left (some op) right :: below) =
      attach offset (.comparison left (some op') right') below := by
  have hright : (right'.isNone && !op'.isUnary) = false := by
    have hunary := (Condition.comparisonDefect?_eq_none_iff.1 hdefect).2
    cases right' with
    | some r => rfl
    | none => rw [hunary.1 rfl]; rfl
  simp [settle, Pending.missing?, Pending.idle, hnull, hright, hdefect]

/-- A comparison is closed just if nothing waits and nothing is missing. -/
theorem settle_comparison_eq_ok {op : Option Comparator} :
    settle offset pending (comparison left op right :: below) = .ok stack ↔
      pending = .idle ∧ ∃ op' right', nullTest op right = (some op', right') ∧
        Condition.comparisonDefect? left (some op') right' = none ∧
        attach offset (.comparison left (some op') right') below = .ok stack := by
  constructor
  · intro h
    rw [settle] at h
    split at h
    · cases h
    · next hmissing =>
      split at h
      · cases h
      · next op' right' hnull =>
        split at h
        · cases h
        · split at h
          · cases h
          · next hdefect =>
              exact ⟨Builder.missing?_eq_none.1 hmissing, op', right', hnull, hdefect, h⟩
  · rintro ⟨rfl, op', right', hnull, hdefect, h⟩
    cases op with
    | none => cases hnull
    | some op => exact (settle_comparison hnull hdefect).trans h

/-- Closing changes nothing but a comparison. -/
theorem settle_cases (h : settle offset pending stack = .ok stack') : stack' = stack ∨
    ∃ left op right below, stack = comparison left op right :: below ∧ pending = .idle ∧
      ∃ op' right', nullTest op right = (some op', right') ∧
        Condition.comparisonDefect? left (some op') right' = none ∧
        attach offset (.comparison left (some op') right') below = .ok stack' := by
  match stack with
  | comparison left op right :: below =>
    exact .inr ⟨left, op, right, below, rfl, settle_comparison_eq_ok.1 h⟩
  | [] | group _ :: _ | logical .. :: _ | set .. :: _ => exact .inl (Except.ok.inj h).symm

end Settle

end Frame

namespace Role

/-- The tokens of each role. -/
theorem kind_of_ofToken (t : Token) :
    match ofToken t with
    | operand _ => t.kind = .word ∨ t.kind = .quoted
    | compare c =>
      c.isUnary = false ∧ ∃ op, t.kind = .operator op ∧ Comparator.ofOperator? op = some c
    | math op => t.kind = .operator op ∧ op.isMath = true
    | logical _ => ∃ op, t.kind = .operator op ∧ op.isLogical = true
    | openGroup => t.kind = .delimiter .openParen
    | closeGroup => t.kind = .delimiter .closeParen
    | openSet range => t.kind = .delimiter (if range then .openBracket else .openBrace)
    | closeSet d => t.kind = .delimiter d
    | separator => t.kind = .separator := by
  unfold ofToken
  cases hkind : t.kind with
  | operator op => cases op <;> simp [Comparator.ofOperator?, Comparator.isUnary, Operator.isMath,
      Operator.isLogical, Operator.isComparison]
  | delimiter d => cases d <;> simp
  | _ => simp

end Role

namespace Builder

/-- The ways in which a builder takes a token that neither follows a held word nor opens a call. -/
inductive Move (b : Builder) (t : Token) : Builder → Prop where
  | hold (hheld : isHeld t = true) : Move b t { b with held := some t }
  | operand {o x : Operand} (hheld : isHeld t = false) (hrole : Role.ofToken t = .operand o)
      (hopen : ¬ b.Complete) (hx : b.waiting.combine b.current o = .ok x) : Move b t (b.fill x)
  | math {op : Operator} {p : Pending} (hrole : Role.ofToken t = .math op)
      (hp : b.waiting.push b.expectsOperand op = .ok p) : Move b t (b.wait p)
  | argument {call : OpenCall} {outer : List OpenCall} {arg : Operand}
      (hrole : Role.ofToken t = .separator) (hcalls : b.calls = call :: outer)
      (hidle : call.pending = .idle) (harg : call.current = some arg) :
      Move b t
        { b with calls := { call with args := call.args ++ [arg], current := none } :: outer }
  | closeCall {call : OpenCall} {outer : List OpenCall} {args : List Operand} {x : Operand}
      (hrole : Role.ofToken t = .closeGroup) (hcalls : b.calls = call :: outer)
      (hidle : call.pending = .idle) (hargs : call.finished? = some args)
      (hopen : ¬ ({ b with calls := outer } : Builder).Complete)
      (hx : ({ b with calls := outer } : Builder).waiting.combine
        ({ b with calls := outer } : Builder).current (.call call.name args) = .ok x) :
      Move b t (({ b with calls := outer } : Builder).fill x)
  | compare {comparator : Comparator} {left : Operand} {right : Option Operand} {below : List Frame}
      (hrole : Role.ofToken t = .compare comparator) (hcalls : b.calls = [])
      (hstack : b.stack = .comparison left none right :: below) (hidle : b.pending = .idle) :
      Move b t { b with stack := .comparison left (some comparator) right :: below }
  | connective {op : Connective} {children : List Condition} {last : Condition} {below : List Frame}
      (hrole : Role.ofToken t = .logical op) (hcalls : b.calls = [])
      (hsettle : Frame.settle t.offset b.pending b.base =
        .ok (.group (children ++ [last]) :: below)) :
      Move b t { b with stack := Frame.joined op last ++ .group children :: below }
  | openGroup {frame : Frame} {below : List Frame} (hrole : Role.ofToken t = .openGroup)
      (hcalls : b.calls = []) (hbase : b.base = frame :: below) (hframe : frame.awaits = true)
      (hidle : b.pending = .idle) : Move b t { b with stack := .group [] :: b.base }
  | closeGroup {children : List Condition} {below stack : List Frame}
      (hrole : Role.ofToken t = .closeGroup) (hcalls : b.calls = [])
      (hsettle : Frame.settle t.offset b.pending b.base = .ok (.group children :: below))
      (hbelow : below ≠ []) (hchildren : children ≠ [])
      (hattach : Frame.attach t.offset (.group children true) below = .ok stack) :
      Move b t { b with stack := stack }
  | openSet {range negated : Bool} {left : Operand} {op : Option Comparator} {below : List Frame}
      (hrole : Role.ofToken t = .openSet range) (hcalls : b.calls = [])
      (hstack : b.stack = .comparison left op none :: below) (hidle : b.pending = .idle)
      (hprevious : b.previous.bind Token.operator? = some (if negated then .ne else .eq)) :
      Move b t { b with
        stack := .set left (.ofFlags negated range) [] :: below, expectsValue := true }
  | value {left : Operand} {op : SetOperator} {values : List Operand} {below : List Frame}
      (hrole : Role.ofToken t = .separator) (hcalls : b.calls = [])
      (hstack : b.stack = .set left op values :: below) (hexpects : b.expectsValue = false)
      (hidle : b.pending = .idle) : Move b t { b with expectsValue := true }
  | closeSet {left : Operand} {op : SetOperator} {values : List Operand} {below stack : List Frame}
      (hrole : Role.ofToken t = .closeSet op.delimiters.2) (hcalls : b.calls = [])
      (hstack : b.stack = .set left op values :: below) (hidle : b.pending = .idle)
      (hexpects : b.expectsValue = false) (hdefect : Condition.setDefect? left op values = none)
      (hattach : Frame.attach t.offset (.set left op values true) below = .ok stack) :
      Move b t { b with stack := stack, expectsValue := false }

/-! ## What the transitions need -/

section Transitions

variable {b b' : Builder} {offset : Nat}

theorem openGroup_eq_ok : b.openGroup offset = .ok b' ↔
    b.pending = .idle ∧ { b with stack := .group [] :: b.stack } = b' := by
  rw [openGroup, ← isIdle_iff]
  split
  · next h => simp [h]
  · next h => simp [h, fail]

theorem openSet_eq_ok {left : Operand} {right : Option Operand} {below : List Frame}
    {range : Bool} :
    b.openSet offset left right below range = .ok b' ↔
      ∃ negated, right = none ∧ b.pending = .idle ∧
        b.previous.bind Token.operator? = some (if negated then .ne else .eq) ∧
        { b with stack := .set left (.ofFlags negated range) [] :: below, expectsValue := true } =
          b' := by
  have key : ∀ negated : Bool, (do
      requireIdle b.pending offset
      if right.isSome then fail offset .strayList
      else return { b with
        stack := .set left (.ofFlags negated range) [] :: below, expectsValue := true }) = .ok b' ↔
      right = none ∧ b.pending = .idle ∧
        { b with stack := .set left (.ofFlags negated range) [] :: below, expectsValue := true } =
          b' := by
    intro negated
    rw [bind_eq_ok]
    cases right with
    | none => simp [requireIdle_eq_ok, pure_eq_ok]
    | some o => simp [fail]
  unfold openSet
  cases hprevious : b.previous.bind Token.operator? with
  | none => simp [fail]
  | some op =>
    cases op with
    | eq => simpa using key false
    | ne => simpa using key true
    | _ => simp [fail]

theorem closeSet_eq_ok {left : Operand} {op : SetOperator} {values : List Operand}
    {below : List Frame} {d : Delimiter} :
    b.closeSet offset left op values below d = .ok b' ↔
      d = op.delimiters.2 ∧ b.pending = .idle ∧ b.expectsValue = false ∧
      Condition.setDefect? left op values = none ∧
      ∃ stack, Frame.attach offset (.set left op values true) below = .ok stack ∧
        { b with stack := stack, expectsValue := false } = b' := by
  -- an empty list is asked for twice, here and as a defect
  have hvalues : Condition.setDefect? left op values = none → values.isEmpty = false := by
    intro h
    cases values with
    | nil => cases hleft : left.isVariable <;> simp [Condition.setDefect?, hleft] at h
    | cons v rest => rfl
  unfold closeSet
  rw [bind_eq_ok]
  simp only [requireIdle_eq_ok, exists_const]
  by_cases hd : d = op.delimiters.2
  · cases hdefect : Condition.setDefect? left op values with
    | some defect => cases b.expectsValue <;> cases values.isEmpty <;> simp [hd, fail]
    | none =>
      cases hexpects : b.expectsValue <;>
        simp [hd, hvalues hdefect, fail, map_eq_ok]
  · simp [hd, fail]

end Transitions

/-! ## Tokens in the innermost container -/

section Place

variable {b b' : Builder} {text : String} {offset : Nat}

theorem place_compare_iff {comparator : Comparator} :
    b.place (.compare comparator) text offset = .ok b' ↔
      ∃ left right below, b.stack = .comparison left none right :: below ∧ b.pending = .idle ∧
        { b with stack := .comparison left (some comparator) right :: below } = b' := by
  obtain ⟨stack, previous, held, calls, pending, expectsValue⟩ := b
  rw [place_of_continues rfl]
  induction stack using stack_cases with
  | comparison left op right below =>
    cases op with
    | some o => simp [placeInnermost, placeInComparison, takeComparator, base, fail, bind_eq_ok]
    | none =>
      have htake : ∀ c : Builder, c.stack = .comparison left none right :: below →
          (c.takeComparator offset comparator = .ok b' ↔ c.pending = .idle ∧
            { c with stack := .comparison left (some comparator) right :: below } = b') :=
              fun c hstack => by
        simp [takeComparator, hstack, map_eq_ok, requireIdle_eq_ok]
      refine (htake _ rfl).trans ⟨?_, ?_⟩
      · rintro ⟨hidle, rfl⟩
        exact ⟨left, right, below, rfl, hidle, rfl⟩
      · rintro ⟨_, _, _, hstack, hidle, rfl⟩
        cases hstack
        exact ⟨hidle, rfl⟩
  | _ => simp [placeInnermost, placeInGroup, placeInLogical, placeInSet, base, fail]

theorem place_openGroup_iff : b.place .openGroup text offset = .ok b' ↔
      ∃ frame below, b.base = frame :: below ∧ frame.awaits = true ∧ b.pending = .idle ∧
        { b with stack := .group [] :: b.base } = b' := by
  obtain ⟨stack, previous, held, calls, pending, expectsValue⟩ := b
  rw [place_of_continues rfl]
  induction stack using stack_cases with
  | nil => simp [placeInnermost, placeInGroup, openGroup_eq_ok, base, Frame.awaits]
  | group children below =>
    cases children <;> simp [placeInnermost, placeInGroup, openGroup_eq_ok, base, fail,
      Frame.awaits]
  | logical op left below =>
    simp [placeInnermost, placeInLogical, openGroup_eq_ok, base, Frame.awaits]
  | _ => simp [placeInnermost, placeInComparison, placeInSet, base, fail, Frame.awaits]

theorem place_openSet_iff {range : Bool} : b.place (.openSet range) text offset = .ok b' ↔
      ∃ negated left op below, b.stack = .comparison left op none :: below ∧ b.pending = .idle ∧
        b.previous.bind Token.operator? = some (if negated then .ne else .eq) ∧
        { b with stack := .set left (.ofFlags negated range) [] :: below, expectsValue := true } =
          b' := by
  obtain ⟨stack, previous, held, calls, pending, expectsValue⟩ := b
  rw [place_of_continues rfl]
  induction stack using stack_cases with
  | comparison left op right below =>
    refine openSet_eq_ok.trans ⟨?_, ?_⟩
    · rintro ⟨negated, rfl, hidle, hprevious, rfl⟩
      exact ⟨negated, left, op, below, rfl, hidle, hprevious, rfl⟩
    · rintro ⟨negated, _, _, _, hstack, hidle, hprevious, rfl⟩
      cases hstack
      exact ⟨negated, rfl, hidle, hprevious, rfl⟩
  | _ => simp [placeInnermost, placeInGroup, placeInLogical, placeInSet, base, fail]

theorem place_separator_iff : b.place .separator text offset = .ok b' ↔
      ∃ left op values below, b.stack = .set left op values :: below ∧ b.expectsValue = false ∧
        b.pending = .idle ∧ { b with expectsValue := true } = b' := by
  obtain ⟨stack, previous, held, calls, pending, expectsValue⟩ := b
  rw [place_of_continues rfl]
  induction stack using stack_cases with
  | set left op values below =>
    cases expectsValue <;>
      simp [placeInnermost, placeInSet, base, fail, map_eq_ok, requireIdle_eq_ok]
  | _ => simp [placeInnermost, placeInGroup, placeInLogical, placeInComparison, base, fail]

theorem place_closeSet_iff {d : Delimiter} : b.place (.closeSet d) text offset = .ok b' ↔
      ∃ left op values below stack, d = op.delimiters.2 ∧ b.stack = .set left op values :: below ∧
        b.pending = .idle ∧ b.expectsValue = false ∧
        Condition.setDefect? left op values = none ∧
        Frame.attach offset (.set left op values true) below = .ok stack ∧
        { b with stack := stack, expectsValue := false } = b' := by
  obtain ⟨stack, previous, held, calls, pending, expectsValue⟩ := b
  rw [place_of_continues rfl]
  induction stack using stack_cases with
  | set left op values below =>
    refine closeSet_eq_ok.trans ⟨?_, ?_⟩
    · rintro ⟨hd, hidle, hexpects, hdefect, stack, hattach, rfl⟩
      exact ⟨left, op, values, below, stack, hd, rfl, hidle, hexpects, hdefect, hattach, rfl⟩
    · rintro ⟨_, _, _, _, stack, hd, hstack, hidle, hexpects, hdefect, hattach, rfl⟩
      cases hstack
      exact ⟨hd, hidle, hexpects, hdefect, stack, hattach, rfl⟩
  | _ => simp [placeInnermost, placeInGroup, placeInLogical, placeInComparison, base, fail]

theorem joinWith_append (children : List Condition) (last : Condition) (below : List Frame)
    (op : Connective) : b.joinWith offset (children ++ [last]) below op =
      .ok { b with stack := Frame.joined op last ++ .group children :: below } := by
  unfold joinWith
  rw [List.getLast?_concat, List.dropLast_concat]
  unfold Frame.joined
  show (match op, last with
    | .and, .logical .or (some left) (some right) _ => _
    | _, _ => _) = _
  split <;> rfl

/-- A token that ends a comparison meets what is left after the comparison has been closed. -/
theorem place_of_ends {role : Role} (h : role.endsComparison = true) :
    b.place role text offset = .ok b' ↔ ∃ stack, Frame.settle offset b.pending b.base = .ok stack ∧
      { b with stack := stack }.placeInnermost role text offset = .ok b' := by
  rw [← bind_eq_ok, place, if_pos h]

theorem place_logical_iff {op : Connective} : b.place (.logical op) text offset = .ok b' ↔
      ∃ children last below,
        Frame.settle offset b.pending b.base = .ok (.group (children ++ [last]) :: below) ∧
        { b with stack := Frame.joined op last ++ .group children :: below } = b' := by
  rw [place_of_ends rfl]
  constructor
  · rintro ⟨stack, hsettle, hplace⟩
    induction stack using stack_cases with
    | group children below =>
      rcases List.eq_nil_or_concat children with rfl | ⟨init, last, rfl⟩
      · exact absurd hplace (by simp [placeInnermost, placeInGroup, takeConnective, joinWith, fail])
      · rw [List.concat_eq_append] at hsettle hplace
        refine ⟨init, last, below, hsettle, ?_⟩
        exact Except.ok.inj ((joinWith_append init last below op).symm.trans hplace)
    | _ =>
      exact absurd hplace
        (by simp [placeInnermost, placeInLogical, placeInComparison, placeInSet, fail])
  · rintro ⟨children, last, below, hsettle, rfl⟩
    exact ⟨_, hsettle, joinWith_append children last below op⟩

theorem place_closeGroup_iff : b.place .closeGroup text offset = .ok b' ↔
      ∃ children below stack,
        Frame.settle offset b.pending b.base = .ok (.group children :: below) ∧ below ≠ [] ∧
        children ≠ [] ∧ Frame.attach offset (.group children true) below = .ok stack ∧
        { b with stack := stack } = b' := by
  rw [place_of_ends rfl]
  constructor
  · rintro ⟨stack, hsettle, hplace⟩
    induction stack using stack_cases with
    | group children below =>
      refine ⟨children, below, ?_⟩
      cases below with
      | nil => exact absurd hplace (by simp [placeInnermost, placeInGroup, fail])
      | cons frame below =>
        cases children with
        | nil => exact absurd hplace (by simp [placeInnermost, placeInGroup])
        | cons c children =>
          obtain ⟨stack, hattach, hstack⟩ := map_eq_ok.1 hplace
          exact ⟨stack, hsettle, List.cons_ne_nil _ _, List.cons_ne_nil _ _, hattach, hstack⟩
    | _ =>
      exact absurd hplace
        (by simp [placeInnermost, placeInLogical, placeInComparison, placeInSet, fail])
  · rintro ⟨children, below, stack, hsettle, hbelow, hchildren, hattach, rfl⟩
    refine ⟨_, hsettle, ?_⟩
    cases below with
    | nil => exact absurd rfl hbelow
    | cons frame below =>
      cases children with
      | nil => exact absurd rfl hchildren
      | cons c children => exact map_eq_ok.2 ⟨stack, hattach, rfl⟩

end Place

/-! ## All tokens -/

section Feed

variable {b b' : Builder} {t : Token}

/-- Only words are held. -/
theorem isHeld_of_not_operand (h : ∀ o, Role.ofToken t ≠ .operand o) : isHeld t = false := by
  cases hkind : t.kind with
  | word => exact absurd (by simp [Role.ofToken, hkind]) (h (.ofWord t.text))
  | _ => simp [isHeld, hkind]

theorem closing_eq_ok {call : OpenCall} {outer : List OpenCall} {offset : Nat} :
    (match call.current, call.args with
      | some arg, args =>
        ({ b with calls := outer } : Builder).deliver offset (.call call.name (args ++ [arg]))
      | none, [] => ({ b with calls := outer } : Builder).deliver offset (.call call.name [])
      | none, _ :: _ => fail offset (.missingArgumentBefore ")" call.name)) = .ok b' ↔
      ∃ args, call.finished? = some args ∧
        ({ b with calls := outer } : Builder).deliver offset (.call call.name args) = .ok b' := by
  unfold OpenCall.finished?
  cases call.current with
  | some arg => simp
  | none => cases call.args <;> simp [fail]

/-- A token in a call, by its role. -/
theorem placeInCall_iff {call : OpenCall} {outer : List OpenCall} (hcalls : b.calls = call :: outer)
    (hheld : isHeld t = false) : b.placeInCall call outer t = .ok b' ↔ Move b t b' := by
  have hwaiting : b.waiting = call.pending := by rw [waiting, hcalls]
  have hexpects : b.expectsOperand = call.expectsOperand := by rw [expectsOperand, hcalls]
  have hwait : ∀ p, b.wait p = { b with calls := { call with pending := p } :: outer } :=
    fun p => by
    rw [wait, hcalls]
  unfold placeInCall
  constructor
  · intro h
    cases hrole : Role.ofToken t with
    | operand o =>
      rw [hrole] at h
      obtain ⟨hopen, x, hx, rfl⟩ := deliver_eq_ok_iff.1 h
      exact .operand hheld hrole hopen hx
    | math op =>
      rw [hrole] at h
      obtain ⟨p, hp, rfl⟩ := map_eq_ok.1 h
      rw [← hwait]
      exact .math hrole (by rw [hwaiting, hexpects]; exact locate_eq_ok.1 hp)
    | separator =>
      rw [hrole] at h
      obtain ⟨_, hidle, h⟩ := bind_eq_ok.1 h
      cases harg : call.current with
      | none => exact absurd h (by simp [harg, fail])
      | some arg =>
        rw [harg] at h
        obtain rfl := pure_eq_ok.1 h
        exact .argument hrole hcalls (requireIdle_eq_ok.1 hidle) harg
    | closeGroup =>
      rw [hrole] at h
      obtain ⟨_, hidle, h⟩ := bind_eq_ok.1 h
      obtain ⟨args, hargs, h⟩ := closing_eq_ok.1 h
      obtain ⟨hopen, x, hx, rfl⟩ := deliver_eq_ok_iff.1 h
      exact .closeCall hrole hcalls (requireIdle_eq_ok.1 hidle) hargs hopen hx
    | _ =>
      rw [hrole] at h
      exact absurd h fail_ne_ok
  · intro h
    cases h with
    | hold hheld' => exact absurd (hheld'.symm.trans hheld) (by decide)
    | operand hheld hrole hopen hx =>
      rw [hrole]
      exact deliver_eq_ok_iff.2 ⟨hopen, _, hx, rfl⟩
    | math hrole hp =>
      rw [hwaiting, hexpects] at hp
      rw [hrole, hwait]
      exact map_eq_ok.2 ⟨_, locate_eq_ok.2 hp, rfl⟩
    | argument hrole hcalls' hidle harg =>
      cases hcalls.symm.trans hcalls'
      rw [hrole]
      refine bind_eq_ok.2 ⟨(), requireIdle_eq_ok.2 hidle, ?_⟩
      rw [harg]
      rfl
    | closeCall hrole hcalls' hidle hargs hopen hx =>
      cases hcalls.symm.trans hcalls'
      rw [hrole]
      refine bind_eq_ok.2 ⟨(), requireIdle_eq_ok.2 hidle, closing_eq_ok.2 ⟨_, hargs, ?_⟩⟩
      exact deliver_eq_ok_iff.2 ⟨hopen, _, hx, rfl⟩
    | compare _ hcalls' => exact absurd (hcalls.symm.trans hcalls') (List.cons_ne_nil _ _)
    | connective _ hcalls' => exact absurd (hcalls.symm.trans hcalls') (List.cons_ne_nil _ _)
    | openGroup _ hcalls' => exact absurd (hcalls.symm.trans hcalls') (List.cons_ne_nil _ _)
    | closeGroup _ hcalls' => exact absurd (hcalls.symm.trans hcalls') (List.cons_ne_nil _ _)
    | openSet _ hcalls' => exact absurd (hcalls.symm.trans hcalls') (List.cons_ne_nil _ _)
    | value _ hcalls' => exact absurd (hcalls.symm.trans hcalls') (List.cons_ne_nil _ _)
    | closeSet _ hcalls' => exact absurd (hcalls.symm.trans hcalls') (List.cons_ne_nil _ _)

/-- A token outside of calls, by its role. -/
theorem place_iff (hcalls : b.calls = []) (hheld : isHeld t = false) :
    b.place (Role.ofToken t) t.text t.offset = .ok b' ↔ Move b t b' := by
  constructor
  · intro h
    cases hrole : Role.ofToken t with
    | operand o =>
      rw [hrole] at h
      obtain ⟨hopen, x, hx, rfl⟩ := (place_operand_iff hcalls).1 h
      exact .operand hheld hrole hopen hx
    | math op =>
      rw [hrole] at h
      obtain ⟨p, hp, rfl⟩ := (place_math_iff hcalls).1 h
      exact .math hrole hp
    | compare op =>
      rw [hrole] at h
      obtain ⟨left, right, below, hstack, hidle, rfl⟩ := place_compare_iff.1 h
      exact .compare hrole hcalls hstack hidle
    | logical op =>
      rw [hrole] at h
      obtain ⟨children, last, below, hsettle, rfl⟩ := place_logical_iff.1 h
      exact .connective hrole hcalls hsettle
    | openGroup =>
      rw [hrole] at h
      obtain ⟨frame, below, hbase, hframe, hidle, rfl⟩ := place_openGroup_iff.1 h
      exact .openGroup hrole hcalls hbase hframe hidle
    | closeGroup =>
      rw [hrole] at h
      obtain ⟨children, below, stack, hsettle, hbelow, hchildren, hattach, rfl⟩ :=
        place_closeGroup_iff.1 h
      exact .closeGroup hrole hcalls hsettle hbelow hchildren hattach
    | openSet range =>
      rw [hrole] at h
      obtain ⟨negated, left, op, below, hstack, hidle, hprevious, rfl⟩ := place_openSet_iff.1 h
      exact .openSet hrole hcalls hstack hidle hprevious
    | separator =>
      rw [hrole] at h
      obtain ⟨left, op, values, below, hstack, hexpects, hidle, rfl⟩ := place_separator_iff.1 h
      exact .value hrole hcalls hstack hexpects hidle
    | closeSet d =>
      rw [hrole] at h
      obtain ⟨left, op, values, below, stack, rfl, hstack, hidle, hexpects, hdefect,
          hattach, rfl⟩ :=
        place_closeSet_iff.1 h
      exact .closeSet hrole hcalls hstack hidle hexpects hdefect hattach
  · intro h
    cases h with
    | hold hheld' => exact absurd (hheld'.symm.trans hheld) (by decide)
    | operand _ hrole hopen hx =>
      rw [hrole]
      exact (place_operand_iff hcalls).2 ⟨hopen, _, hx, rfl⟩
    | math hrole hp =>
      rw [hrole]
      exact (place_math_iff hcalls).2 ⟨_, hp, rfl⟩
    | argument _ hcalls' => exact absurd (hcalls.symm.trans hcalls') (List.cons_ne_nil _ _).symm
    | closeCall _ hcalls' => exact absurd (hcalls.symm.trans hcalls') (List.cons_ne_nil _ _).symm
    | compare hrole _ hstack hidle =>
      rw [hrole]
      exact place_compare_iff.2 ⟨_, _, _, hstack, hidle, rfl⟩
    | connective hrole _ hsettle =>
      rw [hrole]
      exact place_logical_iff.2 ⟨_, _, _, hsettle, rfl⟩
    | openGroup hrole _ hbase hframe hidle =>
      rw [hrole]
      exact place_openGroup_iff.2 ⟨_, _, hbase, hframe, hidle, rfl⟩
    | closeGroup hrole _ hsettle hbelow hchildren hattach =>
      rw [hrole]
      exact place_closeGroup_iff.2 ⟨_, _, _, hsettle, hbelow, hchildren, hattach, rfl⟩
    | openSet hrole _ hstack hidle hprevious =>
      rw [hrole]
      exact place_openSet_iff.2 ⟨_, _, _, _, hstack, hidle, hprevious, rfl⟩
    | value hrole _ hstack hexpects hidle =>
      rw [hrole]
      exact place_separator_iff.2 ⟨_, _, _, _, hstack, hexpects, hidle, rfl⟩
    | closeSet hrole _ hstack hidle hexpects hdefect hattach =>
      rw [hrole]
      exact place_closeSet_iff.2 ⟨_, _, _, _, _, rfl, hstack, hidle, hexpects, hdefect,
        hattach, rfl⟩

/-- **Moves.** A token that neither follows a held word nor opens a call is taken by one of the
moves. -/
theorem feedPlain_iff_move : b.feedPlain t = .ok b' ↔ Move b t b' := by
  unfold feedPlain
  cases hheld : isHeld t with
  | true =>
    rw [if_pos rfl]
    constructor
    · intro h
      cases h
      exact .hold hheld
    · intro h
      obtain ⟨hkind, -⟩ := (Bool.and_eq_true _ _).mp hheld
      -- a word that is held has the role of an operand, so that no other move takes it
      have hword : Role.ofToken t = .operand (.ofWord t.text) := by
        rw [Role.ofToken, eq_of_beq hkind]
      cases h with
      | hold => rfl
      | operand hheld' => exact absurd (hheld.symm.trans hheld') (by decide)
      | math hrole | argument hrole | closeCall hrole | compare hrole | connective hrole
      | openGroup hrole | closeGroup hrole | openSet hrole | value hrole | closeSet hrole =>
        exact absurd (hword.symm.trans hrole) (by simp)
  | false =>
    rw [if_neg (by decide)]
    cases hcalls : b.calls with
    | cons call outer => exact placeInCall_iff hcalls hheld
    | nil => exact place_iff hcalls hheld

/-! ## Held words -/

@[simp] theorem complete_forgetHeld : b.forgetHeld.Complete ↔ b.Complete := Iff.rfl

/-- A held word is an operand like any other, once it is known that it names no call. -/
theorem release_eq_ok : b.release = .ok b' ↔
    (b.held = none ∧ b = b') ∨ ∃ word x, b.held = some word ∧ ¬ b.Complete ∧
      b.waiting.combine b.current (.ofWord word.text) = .ok x ∧ b.forgetHeld.fill x = b' := by
  unfold release
  cases hheld : b.held with
  | none => simp
  | some word =>
    refine deliver_eq_ok_iff.trans ⟨?_, ?_⟩
    · rintro ⟨hopen, x, hx, rfl⟩
      exact .inr ⟨word, x, rfl, hopen, hx, rfl⟩
    · rintro (⟨h, -⟩ | ⟨_, x, h, hopen, hx, rfl⟩)
      · exact absurd h (Option.some_ne_none word)
      · cases h
        exact ⟨hopen, x, hx, rfl⟩

theorem held_of_release (h : b.release = .ok b') : b'.held = none := by
  rcases release_eq_ok.1 h with ⟨hheld, rfl⟩ | ⟨word, x, -, -, -, rfl⟩
  · exact hheld
  · exact held_fill _ _

theorem openCall_eq_ok {name : Token} : b.openCall name = .ok b' ↔
    b.expectsOperand = true ∧ ¬ b.Complete ∧
      { b with calls := ⟨name.text, [], none, .idle⟩ :: b.calls } = b' := by
  unfold openCall
  cases b.expectsOperand with
  | false => simp [fail]
  | true =>
    obtain ⟨stack, previous, held, calls, pending, expectsValue⟩ := b
    cases calls with
    | cons call outer => simp [Complete]
    | nil =>
      induction stack using stack_cases with
      | group children below => cases children <;> simp [Complete, fail]
      | _ => simp [Complete]

/-! ## Tokens after a held word -/

/-- The ways in which a token is fed. -/
inductive Feeds (b : Builder) (t : Token) : Builder → Prop where
  | call {name : Token} (hheld : b.held = some name) (hkind : t.kind = .delimiter .openParen)
      (hexpects : b.expectsOperand = true) (hopen : ¬ b.Complete) :
      Feeds b t
        { b.forgetHeld with calls := ⟨name.text, [], none, .idle⟩ :: b.calls, previous := some t }
  | move {b₁ b₂ : Builder} (hplain : b.held = none ∨ t.kind ≠ .delimiter .openParen)
      (hrelease : b.release = .ok b₁) (hmove : Move b₁ t b₂) : Feeds b t (b₂.seen (some t))

theorem feed_eq_ok : b.feed t = .ok b' ↔ ∃ b₁, b.consume t = .ok b₁ ∧ b₁.seen (some t) = b' := by
  rw [feed]
  exact map_eq_ok

theorem consume_call {name : Token} (hheld : b.held = some name)
    (hkind : t.kind = .delimiter .openParen) : b.consume t = b.forgetHeld.openCall name := by
  rw [consume, hheld, hkind]

theorem consume_plain (hplain : b.held = none ∨ t.kind ≠ .delimiter .openParen) :
    b.consume t = .ok b' ↔ ∃ b₁, b.release = .ok b₁ ∧ Move b₁ t b' := by
  have hconsume : b.consume t = b.release >>= fun released => released.feedPlain t := by
    unfold consume
    split
    · next name hheld hkind => exact absurd hplain (by simp [hheld, hkind])
    · rfl
  simp only [hconsume, bind_eq_ok, feedPlain_iff_move]

/-- **Feeding.** A token opens the call that the held word names, or makes a move. -/
theorem feed_iff : b.feed t = .ok b' ↔ Feeds b t b' := by
  rw [feed_eq_ok]
  constructor
  · rintro ⟨b₂, hconsume, rfl⟩
    by_cases hplain : b.held = none ∨ t.kind ≠ .delimiter .openParen
    · obtain ⟨b₁, hrelease, hmove⟩ := (consume_plain hplain).1 hconsume
      exact .move hplain hrelease hmove
    · obtain ⟨hheld, hkind⟩ := not_or.1 hplain
      obtain ⟨name, hheld⟩ := Option.ne_none_iff_exists'.1 hheld
      rw [consume_call hheld (Decidable.not_not.1 hkind)] at hconsume
      obtain ⟨hexpects, hopen, rfl⟩ := openCall_eq_ok.1 hconsume
      exact .call hheld (Decidable.not_not.1 hkind) hexpects hopen
  · intro h
    cases h with
    | call hheld hkind hexpects hopen =>
      exact ⟨_, (consume_call hheld hkind).trans (openCall_eq_ok.2 ⟨hexpects, hopen, rfl⟩), rfl⟩
    | move hplain hrelease hmove =>
      exact ⟨_, (consume_plain hplain).2 ⟨_, hrelease, hmove⟩, rfl⟩

theorem release_of_held_none (hheld : b.held = none) : b.release = .ok b := by
  rw [release, hheld]

/-- Where no word is held, a token makes a move. -/
theorem feed_of_held_none (hheld : b.held = none) :
    b.feed t = .ok b' ↔ ∃ b₁, Move b t b₁ ∧ b₁.seen (some t) = b' := by
  rw [feed_iff]
  constructor
  · intro h
    cases h with
    | call hname => exact absurd (hname.symm.trans hheld) (Option.some_ne_none _)
    | move _ hrelease hmove =>
      cases (release_of_held_none hheld).symm.trans hrelease
      exact ⟨_, hmove, rfl⟩
  · rintro ⟨b₁, hmove, rfl⟩
    exact .move (.inl hheld) (release_of_held_none hheld) hmove

/-- A word that may name a call is held, and nothing else is. -/
theorem held_of_feed (h : b.feed t = .ok b') : b'.held = if isHeld t then some t else none := by
  have hrole : ∀ role, Role.ofToken t = role → (∀ o, role ≠ .operand o) →
      (none : Option Token) = if isHeld t then some t else none := fun role hr hne => by
    rw [isHeld_of_not_operand (hr ▸ hne)]
    rfl
  cases feed_iff.1 h with
  | call _ hkind => exact hrole .openGroup (by rw [Role.ofToken, hkind]) (by simp)
  | move _ hrelease hmove =>
    have hheld := held_of_release hrelease
    cases hmove with
    | hold ht => rw [ht]; rfl
    | operand ht => rw [ht]; exact (held_fill _ _).trans hheld
    | math hr => exact (held_wait _ _).trans (hheld.trans (hrole _ hr (by simp)))
    | closeCall hr => exact (held_fill _ _).trans (hheld.trans (hrole _ hr (by simp)))
    | argument hr | compare hr | connective hr | openGroup hr | closeGroup hr
    | openSet hr | value hr
    | closeSet hr => exact hheld.trans (hrole _ hr (by simp))

/-- **The end.** The input can end where exactly the outermost group is left, with something in
it. -/
theorem finish_eq_ok {stop : Nat} {c : Condition} : b.finish stop = .ok c ↔
    ∃ b₁ children, b.release = .ok b₁ ∧ b₁.calls = [] ∧
      Frame.settle stop b₁.pending b₁.base = .ok [.group children] ∧ children ≠ [] ∧
      .group children true = c := by
  unfold finish
  rw [bind_eq_ok]
  refine exists_congr fun b₁ => ?_
  cases hcalls : b₁.calls with
  | cons call outer => simp [fail]
  | nil =>
    cases hstack : b₁.stack with
    | nil =>
      rw [base, hstack]
      simp [fail, Frame.settle]
    | cons frame below =>
      rw [base_of_stack hstack]
      simp only [List.isEmpty_cons, Bool.false_eq_true, if_false, bind_eq_ok]
      constructor
      · rintro ⟨hrelease, stack, hsettle, h⟩
        cases stack with
        | nil => exact absurd h fail_ne_ok
        | cons frame' below' =>
          cases below' with
          | cons _ _ => exact absurd h (by cases frame' <;> exact fail_ne_ok)
          | nil =>
            cases frame' with
            | group children =>
              cases children with
              | nil => cases h
              | cons c' children =>
                exact ⟨c' :: children, hrelease, trivial, hsettle, List.cons_ne_nil _ _,
                  Except.ok.inj h⟩
            | _ => exact absurd h fail_ne_ok
      · rintro ⟨children, hrelease, -, hsettle, hchildren, rfl⟩
        refine ⟨hrelease, _, hsettle, ?_⟩
        cases children with
        | nil => exact absurd rfl hchildren
        | cons c' children => rfl

end Feed

/-! ## Lists of tokens -/

section Run

variable {b b' : Builder} {t : Token} {ts us : List Token}

/-- The state after a list of tokens. -/
def feedAll (b : Builder) (ts : List Token) : Except SyntaxError Builder := ts.foldlM feed b

@[simp] theorem feedAll_nil : b.feedAll [] = .ok b := rfl

theorem feedAll_cons : b.feedAll (t :: ts) = .ok b' ↔
    ∃ b₁, b.feed t = .ok b₁ ∧ b₁.feedAll ts = .ok b' := by
  rw [feedAll, List.foldlM_cons]
  exact bind_eq_ok

theorem feedAll_append : b.feedAll (ts ++ us) = .ok b' ↔
    ∃ b₁, b.feedAll ts = .ok b₁ ∧ b₁.feedAll us = .ok b' := by
  rw [feedAll, List.foldlM_append]
  exact bind_eq_ok

theorem feedAll_singleton : b.feedAll [t] = .ok b' ↔ b.feed t = .ok b' := by
  simp [feedAll_cons]

/-- A list of tokens is read by feeding them all and finishing. -/
theorem ofTokens_eq_ok {c : Condition} : Condition.ofTokens ts = .ok c ↔
    ∃ b, empty.feedAll ts = .ok b ∧ b.finish (Condition.lastStop ts) = .ok c :=
  bind_eq_ok

/-- What holds at first and is kept by every token holds after every list of tokens. -/
theorem feedAll_induction {motive : Builder → List Token → Prop} (nil : motive empty [])
    (step : ∀ b b' ts t, empty.feedAll ts = .ok b → b.feed t = .ok b' → motive b ts →
      motive b' (ts ++ [t]))
    (h : empty.feedAll ts = .ok b) : motive b ts := by
  -- by induction on the tokens to come, whatever has been read before them
  have key : ∀ us b₀ ts₀, empty.feedAll ts₀ = .ok b₀ → motive b₀ ts₀ → b₀.feedAll us = .ok b →
      motive b (ts₀ ++ us) := by
    intro us
    induction us with
    | nil =>
      intro b₀ ts₀ _ hmotive hus
      cases hus
      rwa [List.append_nil]
    | cons u us ih =>
      intro b₀ ts₀ hts₀ hmotive hus
      obtain ⟨b₁, hfeed, hrest⟩ := feedAll_cons.1 hus
      rw [← List.singleton_append, ← List.append_assoc]
      exact ih b₁ _ (feedAll_append.2 ⟨b₀, hts₀, feedAll_singleton.2 hfeed⟩)
        (step b₀ b₁ ts₀ u hts₀ hfeed hmotive) hrest
  exact key ts empty [] rfl nil h

/-- The word that is held is the last token, if that may name a call. -/
theorem held_of_feedAll (h : empty.feedAll ts = .ok b) : b.held = ts.getLast?.filter isHeld := by
  refine feedAll_induction (motive := fun b ts => b.held = ts.getLast?.filter isHeld) rfl ?_ h
  intro b b' ts t _ hfeed _
  rw [held_of_feed hfeed, List.getLast?_concat, Option.filter_some]

end Run

end Builder

end GuardedFlow
