import GuardedFlow.Proofs.Builder.Moves
import GuardedFlow.Proofs.Condition.Normal

/-!
# What is read is in normal form

While tokens come in, conditions are finished, taken back by a connective and finished again, but
all that lies in the open containers is in normal form at every moment: `Frame.Formed` says so of
the containers and `Builder.Formed` of the whole state. Every move keeps it
(`Builder.formed_of_move`), so that what is read in the end has it too
(`Condition.normal_of_ofTokens`).
-/

namespace GuardedFlow

namespace Frame

/-- Containers that all wait for a condition. What stands to the left of a connective is in normal
form, and `&&` never waits inside of `&&`, nor `||` inside of a connective. -/
inductive Unfilled : List Frame → Prop where
  | root : Unfilled [group []]
  | group {below : List Frame} (h : Unfilled below) : Unfilled (group [] :: below)
  | or {left : Condition} {below : List Frame} (hleft : left.Normal)
      (h : Unfilled (group [] :: below)) :
      Unfilled (logical .or left :: group [] :: below)
  | and {left : Condition} {below : List Frame} (hleft : left.Normal)
      (hleftOr : left.connective? ≠ some .or) (h : Unfilled below)
      (hbelow : ∀ left' rest, below ≠ logical .and left' :: rest) :
      Unfilled (logical .and left :: below)

/-- Containers that hold nothing but what is in normal form. Only the innermost one has anything in
it that is not waiting for more to its right. -/
inductive Formed : List Frame → Prop where
  | unfilled {stack : List Frame} (h : Unfilled stack) : Formed stack
  | filled {c : Condition} {below : List Frame} (hc : c.Normal) (h : Unfilled (group [] :: below)) :
      Formed (group [c] :: below)
  | comparison {left : Operand} {op : Option Comparator} {right : Option Operand}
      {below : List Frame} (hleft : left.Normal) (hright : ∀ r, right = some r → r.Normal)
      (h : Unfilled below) :
      Formed (comparison left op right :: below)
  | set {left : Operand} {op : SetOperator} {values : List Operand} {below : List Frame}
      (hleft : left.Normal) (hvalues : ∀ v ∈ values, v.Normal) (h : Unfilled below) :
      Formed (set left op values :: below)

variable {stack stack' below : List Frame} {offset : Nat} {c : Condition}

/-- A condition that is no connective completes the connectives that wait for it, and ends up in a
group. -/
theorem Unfilled.attach (h : Unfilled stack) (hc : c.Normal) (hjoined : c.connective? = none)
    (hattach : attach offset c stack = .ok stack') : Formed stack' := by
  have hor : ∀ {left c : Condition} {below stack' : List Frame}, left.Normal → c.Normal →
      c.connective? ≠ some .or →
      Unfilled (.group [] :: below) →
      Frame.attach offset c (.logical .or left :: .group [] :: below) = .ok stack' →
      Formed stack' := by
    intro left c below stack' hleft hc hne hbelow hattach
    cases hattach
    exact .filled (.or hleft hc hne) hbelow
  have hne : c.connective? ≠ some .or := by
    rw [hjoined]
    exact nofun
  cases h with
  | root =>
    cases hattach
    exact .filled hc .root
  | group hbelow =>
    cases hattach
    exact .filled hc (.group hbelow)
  | or hleft hbelow => exact hor hleft hc hne hbelow hattach
  | @and left below hleft hleftOr hbelow hnotAnd =>
    -- `&&` is complete now, and below it there is a group or an `||` that it completes
    have hand : (Condition.logical .and (some left) (some c) true).Normal :=
      .and hleft hc hleftOr hjoined
    cases hbelow with
    | root =>
      cases hattach
      exact .filled hand .root
    | group hbelow =>
      cases hattach
      exact .filled hand (.group hbelow)
    | or hleft' hbelow => exact hor hleft' hand nofun hbelow hattach
    | and => exact absurd rfl (hnotAnd _ _)

theorem Formed.unfilled_of_group (h : Formed (group [] :: below)) :
    Unfilled (group [] :: below) := by
  cases h with
  | unfilled h => exact h

theorem Formed.of_comparison {left : Operand} {op : Option Comparator} {right : Option Operand}
    (h : Formed (.comparison left op right :: below)) :
    left.Normal ∧ (∀ r, right = some r → r.Normal) ∧ Unfilled below := by
  cases h with
  | unfilled h => cases h
  | comparison hleft hright hbelow => exact ⟨hleft, hright, hbelow⟩

theorem Formed.of_set {left : Operand} {op : SetOperator} {values : List Operand}
    (h : Formed (.set left op values :: below)) :
    left.Normal ∧ (∀ v ∈ values, v.Normal) ∧ Unfilled below := by
  cases h with
  | unfilled h => cases h
  | set hleft hvalues hbelow => exact ⟨hleft, hvalues, hbelow⟩

theorem Formed.unfilled_of_logical {op : Connective} {left : Condition}
    (h : Formed (logical op left :: below)) :
    Unfilled (logical op left :: below) := by
  cases h with
  | unfilled h => exact h

theorem Unfilled.ne_nil (h : Unfilled stack) : stack ≠ [] := by
  cases h <;> exact List.cons_ne_nil _ _

theorem Formed.ne_nil (h : Formed stack) : stack ≠ [] := by
  cases h with
  | unfilled h => exact h.ne_nil
  | _ => exact List.cons_ne_nil _ _

/-- A group has at most one child. -/
theorem Formed.children {children : List Condition} (h : Formed (group children :: below))
    (hne : children ≠ []) :
    ∃ c, children = [c] ∧ c.Normal ∧ Unfilled (group [] :: below) := by
  cases h with
  | unfilled h => cases h <;> exact absurd rfl hne
  | filled hc h => exact ⟨_, rfl, hc, h⟩

/-- What a group closes over waits for it. -/
theorem Unfilled.below_of_group (h : Unfilled (.group [] :: below)) (hbelow : below ≠ []) :
    Unfilled below := by
  cases h with
  | root => exact absurd rfl hbelow
  | group h => exact h

/-- What is left of a comparison when it is closed. -/
theorem nullTest_right {op op' : Comparator} {right right' : Option Operand}
    (hright : ∀ r, right = some r → r.Normal) (h : nullTest (some op) right = (some op', right')) :
    (∀ r, right' = some r → r.Normal) ∧ (right' = some .null → op' ≠ .eq ∧ op' ≠ .ne) := by
  unfold nullTest at h
  split at h
  · cases h
    exact ⟨nofun, nofun⟩
  · cases h
    exact ⟨nofun, nofun⟩
  · next hne hne' =>
    cases h
    refine ⟨hright, fun hnull => ⟨?_, ?_⟩⟩
    · rintro rfl
      exact hne rfl hnull
    · rintro rfl
      exact hne' rfl hnull

theorem Formed.settle {pending : Pending} (h : Formed stack)
    (hsettle : settle offset pending stack = .ok stack') :
    Formed stack' := by
  rcases settle_cases hsettle with rfl | ⟨left, op, right, below, rfl, -, op', right', hnull,
    hdefect, hattach⟩
  · exact h
  · cases op with
    | none => cases hnull
    | some op =>
      obtain ⟨hleft, hright, hbelow⟩ := h.of_comparison
      obtain ⟨hvariable, hunary⟩ := Condition.comparisonDefect?_eq_none_iff.1 hdefect
      obtain ⟨hright', hne⟩ := nullTest_right hright hnull
      exact hbelow.attach (.comparison hleft hright' hvariable hunary hne) rfl hattach

/-- A connective takes the condition before it out of its group. -/
theorem unfilled_joined {op : Connective} (hc : c.Normal) (h : Unfilled (group [] :: below)) :
    Unfilled (joined op c ++ group [] :: below) := by
  unfold joined
  split
  · -- `&&` takes over the right side of a finished `||`
    cases hc with
    | or hleft hright hrightOr => exact .and hright hrightOr (.or hleft h) nofun
  · next hne =>
    cases op with
    | or => exact .or hc h
    | and =>
      refine .and hc (fun hor => ?_) h nofun
      cases hc with
      | or => exact hne _ _ _ rfl rfl
      | group | and | comparison | set => cases hor

end Frame

/-- A call whose name names a variable, with arguments in normal form. -/
structure OpenCall.Formed (call : OpenCall) : Prop where
  name : Operand.ofWord call.name = .var call.name
  args : ∀ a ∈ call.args, a.Normal
  current : ∀ o, call.current = some o → o.Normal

theorem OpenCall.Formed.finished {call : OpenCall} {args : List Operand} (h : call.Formed)
    (hargs : call.finished? = some args) : ∀ a ∈ args, a.Normal := by
  unfold finished? at hargs
  split at hargs
  · next arg _ hcurrent =>
    cases hargs
    intro a ha
    rcases List.mem_append.1 ha with ha | ha
    · exact h.args a ha
    · cases List.mem_singleton.1 ha
      exact h.current _ hcurrent
  · cases hargs
    exact nofun
  · cases hargs

namespace Builder

/-- All that has been read is in normal form. -/
structure Formed (b : Builder) : Prop where
  base : Frame.Formed b.base
  calls : ∀ call ∈ b.calls, call.Formed

variable {b b' : Builder} {t : Token} {ts : List Token} {o : Operand}

theorem Formed.outer {call : OpenCall} {outer : List OpenCall} (h : b.Formed)
    (hcalls : b.calls = call :: outer) :
    call.Formed ∧ ({ b with calls := outer } : Builder).Formed := by
  have hall : ∀ c ∈ call :: outer, c.Formed := hcalls ▸ h.calls
  obtain ⟨hcall, houter⟩ := List.forall_mem_cons.1 hall
  exact ⟨hcall, h.base, houter⟩

theorem Formed.with_call {call : OpenCall} {outer : List OpenCall} (h : b.Formed)
    (hcall : call.Formed) (houter : ∀ c ∈ outer, c.Formed) :
    ({ b with calls := call :: outer } : Builder).Formed :=
  ⟨h.base, List.forall_mem_cons.2 ⟨hcall, houter⟩⟩

/-- Outside of calls, all that has been read lies in the containers. -/
theorem Formed.of_stack (hcalls : b.calls = []) (h : Frame.Formed b.stack) : b.Formed := by
  refine ⟨?_, ?_⟩
  · rw [base_of_ne_nil h.ne_nil]
    exact h
  · rw [hcalls]
    exact nofun

theorem Formed.stack {frame : Frame} {below : List Frame} (h : b.Formed)
    (hstack : b.stack = frame :: below) :
    Frame.Formed (frame :: below) := by
  rw [← base_of_stack hstack]
  exact h.base

theorem Formed.current (h : b.Formed) (hcurrent : b.current = some o) : o.Normal := by
  unfold Builder.current at hcurrent
  split at hcurrent
  · next call outer hcalls => exact (h.outer hcalls).1.current o hcurrent
  · unfold frameCurrent at hcurrent
    split at hcurrent
    · next left _ _ hstack =>
      cases hcurrent
      exact (h.stack hstack).of_comparison.1
    · next hstack => exact (h.stack hstack).of_comparison.2.1 o hcurrent
    · next hstack =>
      split at hcurrent
      · cases hcurrent
      · exact (h.stack hstack).of_set.2.1 o (List.mem_of_getLast? hcurrent)
    · cases hcurrent

theorem Formed.fill (h : b.Formed) (hopen : ¬ b.Complete) (ho : o.Normal) : (b.fill o).Formed := by
  obtain ⟨stack, previous, held, calls, pending, expectsValue⟩ := b
  have hside : ∀ r, some o = some r → r.Normal := fun _ hr => Option.some.inj hr ▸ ho
  cases calls with
  | cons call outer =>
    obtain ⟨hcall, houter⟩ := List.forall_mem_cons.1 h.calls
    exact h.with_call ⟨hcall.name, hcall.args, hside⟩ houter
  | nil =>
    have hnew : ∀ {below}, Frame.Unfilled below → Frame.Formed (.comparison o none none :: below) :=
      fun hbelow => .comparison ho (fun _ hr => by cases hr) hbelow
    induction stack using stack_cases with
    | nil => exact .of_stack rfl (hnew .root)
    | group children below =>
      cases children with
      | nil => exact .of_stack rfl (hnew h.base.unfilled_of_group)
      | cons c children => exact absurd ⟨rfl, c, children, below, rfl⟩ hopen
    | logical op left below => exact .of_stack rfl (hnew h.base.unfilled_of_logical)
    | comparison left op right below =>
      obtain ⟨hleft, hright, hbelow⟩ := Frame.Formed.of_comparison h.base
      cases op with
      | none => exact .of_stack rfl (.comparison ho hright hbelow)
      | some op => exact .of_stack rfl (.comparison hleft hside hbelow)
    | set left op values below =>
      obtain ⟨hleft, hvalues, hbelow⟩ := Frame.Formed.of_set h.base
      refine .of_stack rfl (.set hleft (fun v hv => ?_) hbelow)
      rcases List.mem_append.1 hv with hv | hv
      · dsimp only at hv
        split at hv
        · exact hvalues v hv
        · exact hvalues v (List.dropLast_subset _ hv)
      · exact List.mem_singleton.1 hv ▸ ho

theorem Formed.wait (h : b.Formed) (p : Pending) : (b.wait p).Formed := by
  unfold Builder.wait
  split
  · next call outer hcalls =>
    obtain ⟨hcall, houter⟩ := h.outer hcalls
    exact h.with_call ⟨hcall.name, hcall.args, hcall.current⟩ houter.calls
  · next hcalls => exact .of_stack hcalls h.base

/-- An operand is joined to the one that is being read. -/
theorem Formed.delivered {x : Operand} (h : b.Formed) (hopen : ¬ b.Complete) (ho : o.Single)
    (hx : b.waiting.combine b.current o = .ok x) : (b.fill x).Formed :=
  h.fill hopen (Pending.normal_combine (fun _ hleft => h.current hleft) ho hx)

theorem single_of_role (hrole : Role.ofToken t = .operand o) : o.Single := by
  have hkind := Role.kind_of_ofToken t
  rw [hrole] at hkind
  rcases hkind with hkind | hkind
  · rw [Role.ofToken, hkind] at hrole
    cases hrole
    exact Operand.single_ofWord t.text
  · rw [Role.ofToken, hkind] at hrole
    cases hrole
    exact Operand.single_quoted t.text

theorem formed_of_move (hb : b.Formed) (h : Move b t b') : b'.Formed := by
  cases h with
  | hold => exact ⟨hb.base, hb.calls⟩
  | operand _ hrole hopen hx => exact hb.delivered hopen (single_of_role hrole) hx
  | math => exact hb.wait _
  | @argument call outer arg _ hcalls _ harg =>
    obtain ⟨hcall, houter⟩ := hb.outer hcalls
    refine hb.with_call ⟨hcall.name, fun a ha => ?_, nofun⟩ houter.calls
    rcases List.mem_append.1 ha with ha | ha
    · exact hcall.args a ha
    · cases List.mem_singleton.1 ha
      exact hcall.current _ harg
  | closeCall _ hcalls _ hargs hopen hx =>
    obtain ⟨hcall, houter⟩ := hb.outer hcalls
    exact houter.delivered hopen (Operand.single_call hcall.name (hcall.finished hargs)) hx
  | compare _ hcalls hstack =>
    obtain ⟨hleft, hright, hbelow⟩ := (hb.stack hstack).of_comparison
    exact .of_stack hcalls (.comparison hleft hright hbelow)
  | @connective op children last below _ hcalls hsettle =>
    obtain ⟨c, hchildren, hc, hbelow⟩ := (hb.base.settle hsettle).children (by simp)
    obtain ⟨rfl, hlast⟩ := List.append_eq_cons_iff.1 hchildren |>.resolve_right (by simp)
    cases hlast
    exact .of_stack hcalls (.unfilled (Frame.unfilled_joined hc hbelow))
  | @openGroup frame below _ hcalls hbase hframe =>
    have hunfilled : Frame.Unfilled b.base := by
      have hformed := hb.base
      rw [hbase] at hformed ⊢
      cases frame with
      | group children =>
        cases children with
        | nil => exact hformed.unfilled_of_group
        | cons => cases hframe
      | logical op left => exact hformed.unfilled_of_logical
      | comparison => cases hframe
      | set => cases hframe
    exact .of_stack hcalls (.unfilled (.group hunfilled))
  | closeGroup _ hcalls hsettle hbelow hchildren hattach =>
    obtain ⟨c, rfl, hc, hgroup⟩ := (hb.base.settle hsettle).children hchildren
    exact .of_stack hcalls ((hgroup.below_of_group hbelow).attach (.group hc) rfl hattach)
  | openSet _ hcalls hstack =>
    obtain ⟨hleft, -, hbelow⟩ := (hb.stack hstack).of_comparison
    exact .of_stack hcalls (.set hleft (fun _ hv => absurd hv List.not_mem_nil) hbelow)
  | value => exact ⟨hb.base, hb.calls⟩
  | @closeSet left _ _ _ _ _ hcalls hstack _ _ hdefect hattach =>
    obtain ⟨hleft, hvalues, hbelow⟩ := (hb.stack hstack).of_set
    obtain ⟨hvariable, hne, hrange⟩ := Condition.setDefect?_eq_none_iff.1 hdefect
    cases hleft with
    | var hname =>
      exact .of_stack hcalls (hbelow.attach (.set hname hvalues hne hrange) rfl hattach)
    | _ => cases hvariable

theorem formed_of_release (hb : b.Formed) (h : b.release = .ok b') : b'.Formed := by
  rcases release_eq_ok.1 h with ⟨-, rfl⟩ | ⟨word, x, -, hopen, hx, rfl⟩
  · exact hb
  · have hforget : b.forgetHeld.Formed := ⟨hb.base, hb.calls⟩
    exact hforget.delivered hopen (Operand.single_ofWord word.text) hx

/-- A word that may name a call also names a variable. -/
theorem ofWord_of_isHeld {word : Token} (hword : isHeld word = true) :
    word.kind = .word ∧ Operand.ofWord word.text = .var word.text := by
  obtain ⟨hkind, hvariable⟩ := (Bool.and_eq_true _ _).mp hword
  exact ⟨eq_of_beq hkind, Operand.ofWord_eq_var hvariable⟩

theorem formed_of_feedAll (h : empty.feedAll ts = .ok b) : b.Formed := by
  refine feedAll_induction (motive := fun b _ => b.Formed) ⟨.unfilled .root, nofun⟩ ?_ h
  intro b b' ts t hts hfeed hb
  cases feed_iff.1 hfeed with
  | @call name hheld =>
    have hname : isHeld name = true := by
      rw [held_of_feedAll hts] at hheld
      exact (Option.filter_eq_some_iff.1 hheld).2
    have hcall : OpenCall.Formed ⟨name.text, [], none, .idle⟩ :=
      ⟨(ofWord_of_isHeld hname).2, nofun, nofun⟩
    exact ⟨hb.base, List.forall_mem_cons.2 ⟨hcall, hb.calls⟩⟩
  | move _ hrelease hmove =>
    obtain ⟨hbase, hcalls⟩ := formed_of_move (formed_of_release hb hrelease) hmove
    exact ⟨hbase, hcalls⟩

end Builder

namespace Condition

/-- What is read is one condition in normal form, in the closed group of the whole input. -/
theorem exists_normal_of_ofTokens {ts : List Token} {c : Condition} (h : ofTokens ts = .ok c) :
    ∃ child, c = .group [child] true ∧ child.Normal := by
  obtain ⟨b, hfeed, hfinish⟩ := Builder.ofTokens_eq_ok.1 h
  obtain ⟨b₁, children, hrelease, -, hsettle, hchildren, rfl⟩ := Builder.finish_eq_ok.1 hfinish
  have hformed := Builder.formed_of_release (Builder.formed_of_feedAll hfeed) hrelease
  obtain ⟨child, rfl, hchild, -⟩ := (hformed.base.settle hsettle).children hchildren
  exact ⟨child, rfl, hchild⟩

/-- **Normal form.** What is read is the closed group of one condition. It is in normal form
throughout, and so has no defects. -/
theorem normal_of_ofTokens {ts : List Token} {c : Condition} (h : ofTokens ts = .ok c) :
    (∃ child, c = .group [child] true) ∧ c.Normal ∧ c.treeDefect? = none := by
  obtain ⟨child, rfl, hchild⟩ := exists_normal_of_ofTokens h
  have hnormal : (group [child] true).Normal := .group hchild
  exact ⟨⟨child, rfl⟩, hnormal, hnormal.treeDefect?_eq_none⟩

end Condition

/-- The tokens of `a = 1 || b = null && -c - d < 2`. -/
def Token.takenBack : List Token :=
  [.word "a" 0, .operator .eq 2, .word "1" 4, .operator .or 6, .word "b" 9, .operator .eq 11,
    .word "null" 13, .operator .and 18, .operator .sub 21, .word "c" 22, .operator .sub 24,
    .word "d" 26, .operator .lt 28, .word "2" 30]

theorem Condition.normal_of_takenBack :
    ∃ c, ofTokens Token.takenBack = .ok c ∧ c.Normal ∧ c.treeDefect? = none ∧
      c = .group [.logical .or (some (.comparison (.var "a") (some .eq) (some (.ofWord "1"))))
        (some (.logical .and (some (.comparison (.var "b") (some .isNull) none))
          (some (.comparison (.binary (.unary .neg (.var "c")) .sub (.var "d")) (some .lt)
            (some (.ofWord "2"))))
          true)) true] true := by
  have h : ofTokens Token.takenBack = .ok (.group [.logical .or
      (some (.comparison (.var "a") (some .eq) (some (.ofWord "1"))))
      (some (.logical .and (some (.comparison (.var "b") (some .isNull) none))
        (some
          (.comparison (.binary (.unary .neg (.var "c")) .sub (.var "d")) (some .lt)
            (some (.ofWord "2"))))
        true)) true] true) := rfl
  obtain ⟨-, hnormal, hdefect⟩ := normal_of_ofTokens h
  exact ⟨_, h, hnormal, hdefect, rfl⟩

end GuardedFlow
