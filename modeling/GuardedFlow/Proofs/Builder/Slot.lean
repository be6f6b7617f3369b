import GuardedFlow.Condition.Parse
import GuardedFlow.Proofs.Result

/-!
# The operand that is being read

At each moment a builder reads one operand: an argument of the innermost call, a side of a
comparison or a value of a list. What there is of it (`Builder.current`) and the operators that wait
for the rest of it (`Builder.waiting`) lie in different places of the state, and so do the two
things that can happen to it: an operand is joined to it (`Builder.fill`), or an operator is taken
in (`Builder.wait`). Apart from where they act these are always the same:
`Builder.deliver_eq_ok_iff` and `Builder.place_math_iff` say so, and nothing after them looks at the
places again.
-/

namespace GuardedFlow

namespace Builder

/-! ## Results without an error -/

theorem fail_ne_ok {α : Type} {offset : Nat} {problem : Problem} {a : α} :
    fail offset problem ≠ .ok a := by
  intro h
  cases h

theorem locate_eq_ok {α : Type} {offset : Nat} {x : Except Problem α} {a : α} :
    locate offset x = .ok a ↔ x = .ok a := by
  cases x with
  | error p => simp [locate, fail]
  | ok b => simp [locate]

theorem rewordMeeting_eq_ok {α : Type} {problem : Problem} {x : Except Problem α} {a : α} :
    rewordMeeting problem x = .ok a ↔ x = .ok a := by
  cases x with
  | error p => cases p <;> simp [rewordMeeting]
  | ok b => exact Iff.rfl

theorem requireIdle_eq_ok {pending : Pending} {offset : Nat} {u : Unit} :
    requireIdle pending offset = .ok u ↔ pending = .idle := by
  obtain ⟨binary, signs⟩ := pending
  cases binary <;> cases signs <;> simp [requireIdle, Pending.missing?, Pending.idle, fail]

theorem isIdle_iff {pending : Pending} : pending.isIdle = true ↔ pending = .idle := by
  obtain ⟨binary, signs⟩ := pending
  cases binary <;> cases signs <;> simp [Pending.isIdle, Pending.idle]

theorem missing?_eq_none {pending : Pending} : pending.missing? = none ↔ pending = .idle := by
  obtain ⟨binary, signs⟩ := pending
  cases binary <;> cases signs <;> simp [Pending.missing?, Pending.idle]

/-! ## Where the operand is -/

/-- What there is of the operand in the innermost container. -/
def frameCurrent (b : Builder) : Option Operand :=
  match b.stack with
  | .comparison left none _ :: _ => some left
  | .comparison _ (some _) right :: _ => right
  | .set _ _ values :: _ => if b.expectsValue then none else values.getLast?
  | _ => none

/-- What there is of the operand that is being read. -/
def current (b : Builder) : Option Operand :=
  match b.calls with
  | call :: _ => call.current
  | [] => b.frameCurrent

/-- The operators that wait for the rest of the operand that is being read. -/
def waiting (b : Builder) : Pending :=
  match b.calls with
  | call :: _ => call.pending
  | [] => b.pending

/-- The innermost container with the given operand in the place of the one that is being read. -/
def fillFrame (b : Builder) (o : Operand) : Builder :=
  match b.stack with
  | .comparison _ none right :: below =>
    { b with stack := .comparison o none right :: below, pending := .idle }
  | .comparison left (some op) _ :: below =>
    { b with stack := .comparison left (some op) (some o) :: below, pending := .idle }
  | .set left op values :: below =>
    { b with
      stack := .set left op ((if b.expectsValue then values else values.dropLast) ++ [o]) :: below,
      pending := .idle, expectsValue := false }
  | _ => { b with stack := .comparison o none none :: b.base, pending := .idle }

/-- The state with the given operand in the place of the one that is being read. Nothing waits. -/
def fill (b : Builder) (o : Operand) : Builder :=
  match b.calls with
  | call :: outer => { b with calls := { call with current := some o, pending := .idle } :: outer }
  | [] => b.fillFrame o

/-- The state with the given operators waiting. -/
def wait (b : Builder) (pending : Pending) : Builder :=
  match b.calls with
  | call :: outer => { b with calls := { call with pending := pending } :: outer }
  | [] => { b with stack := b.base, pending := pending }

/-- The state after a given token. -/
def seen (b : Builder) (t : Option Token) : Builder := { b with previous := t }

/-- Whether a condition stands in the innermost container, so that no operand can start there. -/
def Complete (b : Builder) : Prop :=
  b.calls = [] ∧ ∃ c children below, b.stack = .group (c :: children) :: below

/-! ## Laws -/

section Laws

variable (b : Builder) (o o' : Operand) (pending pending' : Pending) (t : Option Token)

/-- The stack by its innermost container. -/
theorem stack_cases {motive : List Frame → Prop} (nil : motive [])
    (group : ∀ children below, motive (.group children :: below))
    (logical : ∀ op left below, motive (.logical op left :: below))
    (comparison : ∀ left op right below, motive (.comparison left op right :: below))
    (set : ∀ left op values below, motive (.set left op values :: below)) (stack : List Frame) :
    motive stack := by
  cases stack with
  | nil => exact nil
  | cons frame below =>
    cases frame with
    | group children => exact group children below
    | logical op left => exact logical op left below
    | comparison left op right => exact comparison left op right below
    | set left op values => exact set left op values below

@[simp] theorem current_fill : (b.fill o).current = some o := by
  obtain ⟨stack, previous, held, calls, pending, expectsValue⟩ := b
  cases calls with
  | cons call outer => rfl
  | nil =>
    induction stack using stack_cases with
    | comparison left op right below => cases op <;> rfl
    | set left op values below => simp [current, frameCurrent, fill, fillFrame]
    | _ => rfl

@[simp] theorem waiting_fill : (b.fill o).waiting = .idle := by
  obtain ⟨stack, previous, held, calls, pending, expectsValue⟩ := b
  cases calls with
  | cons call outer => rfl
  | nil =>
    induction stack using stack_cases with
    | comparison left op right below => cases op <;> rfl
    | _ => rfl

@[simp] theorem fill_fill : (b.fill o).fill o' = b.fill o' := by
  obtain ⟨stack, previous, held, calls, pending, expectsValue⟩ := b
  cases calls with
  | cons call outer => rfl
  | nil =>
    induction stack using stack_cases with
    | comparison left op right below => cases op <;> rfl
    | set left op values below => simp [fill, fillFrame]
    | _ => rfl

@[simp] theorem expectsOperand_fill : (b.fill o).expectsOperand = false := by
  obtain ⟨stack, previous, held, calls, pending, expectsValue⟩ := b
  cases calls with
  | cons call outer => rfl
  | nil =>
    induction stack using stack_cases with
    | comparison left op right below => cases op <;> rfl
    | _ => rfl

theorem not_complete_fill : ¬ (b.fill o).Complete := by
  obtain ⟨stack, previous, held, calls, pending, expectsValue⟩ := b
  rintro ⟨hcalls, c, children, below, hstack⟩
  cases calls with
  | cons call outer => exact absurd hcalls (List.cons_ne_nil _ _)
  | nil =>
    induction stack using stack_cases with
    | comparison left op right below' =>
      cases op <;> exact absurd hstack (by simp [fill, fillFrame])
    | _ => exact absurd hstack (by simp [fill, fillFrame])

@[simp] theorem held_fill : (b.fill o).held = b.held := by
  obtain ⟨stack, previous, held, calls, pending, expectsValue⟩ := b
  cases calls with
  | cons call outer => rfl
  | nil =>
    induction stack using stack_cases with
    | comparison left op right below => cases op <;> rfl
    | _ => rfl

@[simp] theorem base_of_ne_nil {b : Builder} (h : b.stack ≠ []) : b.base = b.stack := by
  rw [base, List.isEmpty_eq_false_iff.2 h]
  rfl

theorem base_of_stack {b : Builder} {frame : Frame} {below : List Frame}
    (h : b.stack = frame :: below) :
    b.base = frame :: below := by
  rw [base_of_ne_nil (h ▸ List.cons_ne_nil _ _), h]

theorem base_ne_nil : b.base ≠ [] := by
  unfold base
  split
  · exact List.cons_ne_nil _ _
  · next h => exact fun hnil => h (by simp [hnil])

@[simp] theorem current_wait : (b.wait pending).current = b.current := by
  obtain ⟨stack, previous, held, calls, pending, expectsValue⟩ := b
  cases calls with
  | cons call outer => rfl
  | nil => induction stack using stack_cases <;> rfl

@[simp] theorem waiting_wait : (b.wait pending).waiting = pending := by
  obtain ⟨stack, previous, held, calls, pending, expectsValue⟩ := b
  cases calls <;> rfl

@[simp] theorem fill_wait : (b.wait pending).fill o = b.fill o := by
  obtain ⟨stack, previous, held, calls, pending, expectsValue⟩ := b
  cases calls with
  | cons call outer => rfl
  | nil =>
    induction stack using stack_cases with
    | comparison left op right below => cases op <;> rfl
    | _ => rfl

@[simp] theorem complete_wait : (b.wait pending).Complete ↔ b.Complete := by
  obtain ⟨stack, previous, held, calls, pending, expectsValue⟩ := b
  cases calls with
  | cons call outer => simp [Complete, wait]
  | nil => induction stack using stack_cases <;> simp [Complete, wait, base]

@[simp] theorem held_wait : (b.wait pending).held = b.held := by
  unfold wait
  split <;> rfl

/-- Whether an operand has to come next depends on the waiting operators only through the binary
one. -/
theorem expectsOperand_wait (h : pending.binary = b.waiting.binary) :
    (b.wait pending).expectsOperand = b.expectsOperand := by
  obtain ⟨stack, previous, held, calls, pending', expectsValue⟩ := b
  cases calls with
  | cons call outer =>
    have hbinary : pending.binary = call.pending.binary := h
    simp [expectsOperand, wait, OpenCall.expectsOperand, hbinary]
  | nil =>
    have hbinary : pending.binary = pending'.binary := h
    induction stack using stack_cases <;> simp [expectsOperand, wait, base, hbinary]

/-- A binary operator asks for an operand. -/
theorem expectsOperand_wait_binary {p : Pending} (hp : p.binary.isSome = true) :
    (b.wait p).expectsOperand = true := by
  obtain ⟨stack, previous, held, calls, pending, expectsValue⟩ := b
  cases calls with
  | cons call outer => simp [expectsOperand, wait, OpenCall.expectsOperand, hp]
  | nil => induction stack using stack_cases <;> simp [expectsOperand, wait, base, hp]

@[simp] theorem fill_seen : (b.seen t).fill o = (b.fill o).seen t := by
  obtain ⟨stack, previous, held, calls, pending, expectsValue⟩ := b
  cases calls with
  | cons call outer => rfl
  | nil =>
    induction stack using stack_cases with
    | comparison left op right below => cases op <;> rfl
    | _ => rfl

@[simp] theorem wait_seen : (b.seen t).wait pending = (b.wait pending).seen t := by
  obtain ⟨stack, previous, held, calls, pending', expectsValue⟩ := b
  cases calls <;> rfl

@[simp] theorem current_seen : (b.seen t).current = b.current := rfl

@[simp] theorem waiting_seen : (b.seen t).waiting = b.waiting := rfl

@[simp] theorem expectsOperand_seen : (b.seen t).expectsOperand = b.expectsOperand := rfl

@[simp] theorem complete_seen : (b.seen t).Complete ↔ b.Complete := Iff.rfl

end Laws

theorem place_of_continues {b : Builder} {role : Role} (h : role.endsComparison = false)
    (text : String) (offset : Nat) : b.place role text offset =
      { b with stack := b.base }.placeInnermost role text offset := by
  rw [place, h]
  rfl

/-! ## What an operand does -/

theorem place_operand_iff {b b' : Builder} (hcalls : b.calls = []) {text : String} {offset : Nat}
    {o : Operand} : b.place (.operand o) text offset = .ok b' ↔
      ¬ b.Complete ∧ ∃ x, b.waiting.combine b.current o = .ok x ∧ b.fill x = b' := by
  obtain ⟨stack, previous, held, calls, pending, expectsValue⟩ := b
  obtain rfl : calls = [] := hcalls
  rw [place_of_continues rfl]
  -- every container keeps the operand in a place of its own, and only a group with children
  -- refuses one
  cases stack with
  | nil =>
    simp [placeInnermost, placeInGroup, openComparison, waiting, current, frameCurrent,
      fill, fillFrame, base, Complete, map_eq_ok, locate_eq_ok]
  | cons frame below =>
    cases frame with
    | group children =>
      cases children with
      | nil =>
        simp [placeInnermost, placeInGroup, openComparison, waiting, current, frameCurrent, fill,
          fillFrame, base, Complete, map_eq_ok, locate_eq_ok]
      | cons c children =>
        simp [placeInnermost, placeInGroup, base, Complete, fail]
    | logical op left =>
      simp [placeInnermost, placeInLogical, openComparison, waiting, current, frameCurrent, fill,
        fillFrame, base, Complete, map_eq_ok, locate_eq_ok]
    | comparison left op right =>
      cases op <;>
        simp [placeInnermost, placeInComparison, takeOperand, extendComparison, waiting, current,
          frameCurrent, fill, fillFrame, base, Complete, map_eq_ok, locate_eq_ok,
          rewordMeeting_eq_ok]
    | set left op values =>
      simp [placeInnermost, placeInSet, takeValue, addValue, waiting, current, frameCurrent,
        fill, fillFrame, base, Complete, map_eq_ok, locate_eq_ok, rewordMeeting_eq_ok]

/-- **Operands.** An operand is joined to the one that is being read, wherever that is, unless a
condition stands there. -/
theorem deliver_eq_ok_iff {b b' : Builder} {offset : Nat} {o : Operand} :
    b.deliver offset o = .ok b' ↔
      ¬ b.Complete ∧ ∃ x, b.waiting.combine b.current o = .ok x ∧ b.fill x = b' := by
  cases hcalls : b.calls with
  | cons call outer =>
    simp [deliver, waiting, current, fill, Complete, hcalls, map_eq_ok, locate_eq_ok]
  | nil =>
    rw [deliver, hcalls]
    exact place_operand_iff hcalls

/-! ## What an arithmetic operator does -/

theorem place_math_iff {b b' : Builder} (hcalls : b.calls = []) {text : String} {offset : Nat}
    {op : Operator} : b.place (.math op) text offset = .ok b' ↔
      ∃ p, b.waiting.push b.expectsOperand op = .ok p ∧ b.wait p = b' := by
  obtain ⟨stack, previous, held, calls, pending, expectsValue⟩ := b
  obtain rfl : calls = [] := hcalls
  rw [place_of_continues rfl]
  cases stack with
  | nil =>
    simp [placeInnermost, placeInGroup, pushMath, expectsOperand, waiting, wait, base, map_eq_ok,
      locate_eq_ok]
  | cons frame below =>
    cases frame <;>
      simp [placeInnermost, placeInGroup, placeInLogical, placeInComparison, placeInSet, pushMath,
        expectsOperand, waiting, wait, base, map_eq_ok, locate_eq_ok]

end Builder

end GuardedFlow
