import GuardedFlow.Proofs.Builder.Items
import GuardedFlow.Proofs.Builder.Normal

/-!
# The discipline of a builder

What the open containers look like between two tokens (`Frame.Disciplined`) can be read off the
normal form of what lies in them (`Frame.Formed.disciplined`). A container stands for a condition
that is not complete (`Frame.condition`), and a connective among them has its left side alone.

What is being read is in order as well (`Builder.Steady`): a binary operator waits only after an
operand, signs wait only where an operand is to come, and where none is to come there is one. This
is so of the arguments of each open call and of what stands outside of the calls
(`Builder.InOrder`). An operand that is filled in and an operator that is taken in keep it wherever
they go, so that only the tokens that change containers are looked at one by one
(`Builder.inOrder_of_move`).
-/

namespace GuardedFlow

namespace Frame

/-- What lies where in the open containers, the innermost first. -/
structure Disciplined (stack : List Frame) : Prop where
  /-- The outermost container is a group. -/
  outermost : ∀ frame, stack.getLast? = some frame → ∃ children, frame = .group children
  /-- A group has one child at most, and none while a container is open in it. -/
  group : ∀ above children below, stack = above ++ .group children :: below →
    children.length ≤ 1 ∧ (above ≠ [] → children = [])
  /-- A connective has its left side and no right side, and is not closed. -/
  sides : ∀ frame ∈ stack, ∀ op left? right? closed,
    frame.condition = .logical op left? right? closed →
      left?.isSome = true ∧ right? = none ∧ closed = false
  /-- `||` lies directly in a group. -/
  or : ∀ above left below, stack = above ++ .logical .or left :: below →
    ∃ children rest, below = .group children :: rest
  /-- `&&` lies directly in a group or in `||`. -/
  and : ∀ above left below, stack = above ++ .logical .and left :: below →
    (∃ children rest, below = .group children :: rest) ∨
    ∃ left' rest, below = .logical .or left' :: rest
  /-- Comparisons and value lists are innermost. -/
  innermost : ∀ above frame below, stack = above ++ frame :: below →
    frame.holdsOperand = true → above = []

/-- Only a connective stands for one, and what it stands for is still to get its right side. -/
theorem sides_of_condition {frame : Frame} {op : Connective} {left? right? : Option Condition}
    {closed : Bool} (h : frame.condition = .logical op left? right? closed) :
    left?.isSome = true ∧ right? = none ∧ closed = false := by
  cases frame with
  | logical op' left =>
    cases h
    exact ⟨rfl, rfl, rfl⟩
  | group | comparison | set => cases h

theorem disciplined_nil : Disciplined [] where
  outermost _ h := by cases h
  group above _ _ h := by cases above <;> cases h
  sides _ h := by cases h
  or above _ _ h := by cases above <;> cases h
  and above _ _ h := by cases above <;> cases h
  innermost above _ _ h := by cases above <;> cases h

variable {stack below : List Frame} {frame : Frame}

theorem Unfilled.tail (h : Unfilled (frame :: below)) (hbelow : below ≠ []) : Unfilled below := by
  cases h with
  | root => exact absurd rfl hbelow
  | group h => exact h
  | or _ h => exact h
  | and _ _ h => exact h

theorem Unfilled.of_append {above : List Frame} (h : Unfilled (above ++ frame :: below)) :
    Unfilled (frame :: below) := by
  induction above with
  | nil => exact h
  | cons top above ih => exact ih (h.tail (by simp))

/-- Below the innermost container, all containers wait. -/
theorem Formed.tail (h : Formed (frame :: below)) (hbelow : below ≠ []) : Unfilled below := by
  cases h with
  | unfilled h => exact h.tail hbelow
  | filled _ h => exact h.tail hbelow
  | comparison _ _ h => exact h
  | set _ _ h => exact h

theorem Formed.of_append {above : List Frame} (h : Formed (above ++ frame :: below)) :
    Formed (frame :: below) ∧ (above ≠ [] → Unfilled (frame :: below)) := by
  cases above with
  | nil => exact ⟨h, fun hne => absurd rfl hne⟩
  | cons top above =>
    have hunfilled : Unfilled (frame :: below) := (Formed.tail h (by simp)).of_append
    exact ⟨.unfilled hunfilled, fun _ => hunfilled⟩

/-- The only container that lies in no other is a group. -/
theorem Formed.eq_group (h : Formed [frame]) : ∃ children, frame = .group children := by
  cases h with
  | unfilled h =>
    cases h with
    | root | group => exact ⟨_, rfl⟩
    | and _ _ h => cases h
  | filled => exact ⟨_, rfl⟩
  | comparison _ _ h | set _ _ h => cases h

theorem Formed.disciplined (h : Formed stack) : Disciplined stack where
  outermost frame hlast := by
    obtain ⟨above, rfl⟩ := List.getLast?_eq_some_iff.1 hlast
    exact h.of_append.1.eq_group
  group above children below hstack := by
    subst hstack
    obtain ⟨hformed, hunfilled⟩ := h.of_append
    constructor
    · by_cases hne : children = []
      · simp [hne]
      · obtain ⟨c, rfl, -⟩ := hformed.children hne
        exact Nat.le_refl 1
    · intro habove
      cases hunfilled habove <;> rfl
  sides frame _ op left? right? closed := sides_of_condition
  or above left below hstack := by
    subst hstack
    cases h.of_append.1.unfilled_of_logical with
    | or => exact ⟨_, _, rfl⟩
  and above left below hstack := by
    subst hstack
    cases h.of_append.1.unfilled_of_logical with
    | and _ _ hbelow hnotAnd =>
      cases hbelow with
      | root | group => exact .inl ⟨_, _, rfl⟩
      | or => exact .inr ⟨_, _, rfl⟩
      | and => exact absurd rfl (hnotAnd _ _)
  innermost above frame below hstack hholds := by
    subst hstack
    cases above with
    | nil => rfl
    | cons top above => cases h.of_append.2 (List.cons_ne_nil _ _) <;> cases hholds

end Frame

namespace Builder

/-- The operand that is being read is in order. -/
structure Steady (b : Builder) : Prop where
  binary : b.waiting.binary.isSome = true → b.current.isSome = true
  signs : b.waiting.signs ≠ [] → b.expectsOperand = true
  current : b.expectsOperand = false → b.current.isSome = true

/-- The operands that are being read are in order, in each open call and outside of them. -/
def InOrder (b : Builder) : Prop :=
  ∀ outer, outer <:+ b.calls → ({ b with calls := outer } : Builder).Steady

variable {b b' : Builder} {t : Token} {ts : List Token} {call : OpenCall} {calls : List OpenCall}

/-! ## One operand -/

theorem steady_of_expects (hbinary : b.waiting.binary = none) (hexpects : b.expectsOperand = true) :
    b.Steady where
  binary h := absurd h (by simp [hbinary])
  signs _ := hexpects
  current h := absurd h (by simp [hexpects])

theorem steady_fill (b : Builder) (o : Operand) : (b.fill o).Steady where
  binary _ := by simp
  signs h := absurd (congrArg Pending.signs (waiting_fill b o)) h
  current _ := by simp

theorem Steady.wait {op : Operator} {p : Pending} (h : b.Steady)
    (hp : b.waiting.push b.expectsOperand op = .ok p) :
    (b.wait p).Steady := by
  cases hexpects : b.expectsOperand with
  | true =>
    rw [hexpects] at hp
    obtain ⟨-, hbinary, -⟩ := Pending.push_true_eq_ok hp
    have hwait : (b.wait p).expectsOperand = true :=
      (expectsOperand_wait b p hbinary).trans hexpects
    refine ⟨fun hsome => ?_, fun _ => hwait,
      fun hfalse => absurd (hfalse.symm.trans hwait) Bool.false_ne_true⟩
    rw [waiting_wait, hbinary] at hsome
    rw [current_wait]
    exact h.binary hsome
  | false =>
    rw [hexpects] at hp
    obtain ⟨binary, hbinary, -⟩ := Pending.push_false_eq_ok hp
    have hwait := expectsOperand_wait_binary b (Option.isSome_of_eq_some hbinary)
    refine ⟨fun _ => ?_, fun _ => hwait,
      fun hfalse => absurd (hfalse.symm.trans hwait) Bool.false_ne_true⟩
    rw [current_wait]
    exact h.current hexpects

/-! ## All operands -/

theorem InOrder.steady (h : b.InOrder) : b.Steady := h b.calls (List.suffix_refl _)

theorem inOrder_of_calls (hcalls : b.calls = []) (h : b.Steady) : b.InOrder := by
  intro outer houter
  rw [hcalls, List.suffix_nil] at houter
  subst houter
  rwa [← hcalls]

theorem InOrder.outer (h : b.InOrder) (hcalls : b.calls = call :: calls) :
    ({ b with calls := calls } : Builder).InOrder :=
  fun rest hrest => h rest (hcalls ▸ hrest.trans (List.suffix_cons call calls))

theorem InOrder.cons (h : ({ b with calls := calls } : Builder).InOrder)
    (hcall : ({ b with calls := call :: calls } : Builder).Steady) :
    ({ b with calls := call :: calls } : Builder).InOrder := by
  intro rest hrest
  rcases List.suffix_cons_iff.1 hrest with rfl | hrest
  · exact hcall
  · exact h rest hrest

theorem InOrder.fill (h : b.InOrder) (o : Operand) : (b.fill o).InOrder := by
  have hsteady := steady_fill b o
  obtain ⟨stack, previous, held, calls, pending, expectsValue⟩ := b
  cases calls with
  | cons call outer => exact (h.outer rfl).cons hsteady
  | nil =>
    refine inOrder_of_calls ?_ hsteady
    induction stack using stack_cases with
    | comparison left op right below => cases op <;> rfl
    | _ => rfl

theorem InOrder.wait {op : Operator} {p : Pending} (h : b.InOrder)
    (hp : b.waiting.push b.expectsOperand op = .ok p) :
    (b.wait p).InOrder := by
  have hsteady := h.steady.wait hp
  obtain ⟨stack, previous, held, calls, pending, expectsValue⟩ := b
  cases calls with
  | cons call outer => exact (h.outer rfl).cons hsteady
  | nil => exact inOrder_of_calls rfl hsteady

theorem inOrder_of_move (hb : b.InOrder) (hregular : b.Regular) (h : Move b t b') : b'.InOrder := by
  cases h with
  | hold =>
    intro outer houter
    obtain ⟨hbinary, hsigns, hcurrent⟩ := hb outer houter
    exact ⟨hbinary, hsigns, hcurrent⟩
  | operand => exact hb.fill _
  | math _ hp => exact hb.wait hp
  | argument _ hcalls hidle =>
    exact (hb.outer hcalls).cons (steady_of_expects (congrArg Pending.binary hidle) rfl)
  | closeCall _ hcalls => exact (hb.outer hcalls).fill _
  | compare _ hcalls _ hidle =>
    obtain ⟨stack, previous, held, calls, pending, expectsValue⟩ := b
    obtain rfl : calls = [] := hcalls
    obtain rfl : pending = .idle := hidle
    refine inOrder_of_calls rfl ⟨fun h => absurd h Bool.false_ne_true,
      fun h => absurd rfl h, fun h => ?_⟩
    simpa [expectsOperand, Pending.idle, Builder.current, frameCurrent] using h
  | @connective op children last below _ hcalls hsettle =>
    have hbinary := hregular.binary_of_settle hsettle
    obtain ⟨o, left, rest, hjoined⟩ := Frame.joined_eq_cons op last
    refine inOrder_of_calls hcalls (steady_of_expects ?_ ?_)
    · simpa [waiting, hcalls] using hbinary
    · simp [expectsOperand, hcalls, hjoined]
  | openGroup _ hcalls _ _ hidle =>
    refine inOrder_of_calls hcalls (steady_of_expects ?_ ?_)
    · simp [waiting, hcalls, hidle, Pending.idle]
    · simp [expectsOperand, hcalls]
  | closeGroup _ hcalls hsettle _ _ hattach =>
    have hbinary := hregular.binary_of_settle hsettle
    obtain ⟨-, _, _, _, rfl⟩ := Frame.attach_eq_ok hattach
    refine inOrder_of_calls hcalls (steady_of_expects ?_ ?_)
    · simpa [waiting, hcalls] using hbinary
    · simp [expectsOperand, hcalls]
  | openSet _ hcalls _ hidle =>
    refine inOrder_of_calls hcalls (steady_of_expects ?_ ?_)
    · simp [waiting, hcalls, hidle, Pending.idle]
    · simp [expectsOperand, hcalls]
  | value _ hcalls hstack _ hidle =>
    refine inOrder_of_calls hcalls (steady_of_expects ?_ ?_)
    · simp [waiting, hcalls, hidle, Pending.idle]
    · simp [expectsOperand, hcalls, hstack]
  | closeSet _ hcalls _ hidle _ _ hattach =>
    obtain ⟨-, _, _, _, rfl⟩ := Frame.attach_eq_ok hattach
    refine inOrder_of_calls hcalls (steady_of_expects ?_ ?_)
    · simp [waiting, hcalls, hidle, Pending.idle]
    · simp [expectsOperand, hcalls]

theorem InOrder.forgetHeld (h : b.InOrder) : b.forgetHeld.InOrder := by
  intro outer houter
  obtain ⟨hbinary, hsigns, hcurrent⟩ := h outer houter
  exact ⟨hbinary, hsigns, hcurrent⟩

theorem InOrder.seen (h : b.InOrder) (u : Option Token) : (b.seen u).InOrder := by
  intro outer houter
  obtain ⟨hbinary, hsigns, hcurrent⟩ := h outer houter
  exact ⟨hbinary, hsigns, hcurrent⟩

theorem inOrder_of_release (hb : b.InOrder) (h : b.release = .ok b') : b'.InOrder := by
  rcases release_eq_ok.1 h with ⟨-, rfl⟩ | ⟨word, x, -, -, -, rfl⟩
  · exact hb
  · exact hb.forgetHeld.fill x

theorem inOrder_of_feedAll (h : empty.feedAll ts = .ok b) : b.InOrder := by
  refine feedAll_induction (motive := fun b _ => b.InOrder)
    (inOrder_of_calls rfl (steady_of_expects rfl rfl)) ?_ h
  intro b b' _ t hts hfeed hb
  cases feed_iff.1 hfeed with
  | @call name =>
    have hnew :
        ({ b.forgetHeld with calls := ⟨name.text, [], none, .idle⟩ ::
          b.calls } : Builder).InOrder :=
      hb.forgetHeld.cons (steady_of_expects rfl rfl)
    exact hnew.seen (some t)
  | move _ hrelease hmove =>
    have hregular := regular_of_release (regular_of_feedAll hts) hrelease
    exact (inOrder_of_move (inOrder_of_release hb hrelease) hregular hmove).seen (some t)

end Builder

end GuardedFlow
