import GuardedFlow.Proofs.Builder.Moves

/-!
# Delimiters

What is open in a state is a list of `Opener`s, the innermost first: the calls, then the containers
that a delimiter opens, then the outermost group, which no token opens. A token changes this list by
at most one entry (`Builder.Shift`, `Builder.shift_of_feed`). So the tokens read so far are nested
but for the openers (`Token.Spells`, `Builder.spells_of_feedAll`), and a nested list of tokens
leaves the openers as they are (`Builder.openers_of_nested`).
-/

namespace GuardedFlow

theorem Delimiter.isOpen_closing (d : Delimiter) : d.closing.isOpen = false := by
  cases d <;> rfl

namespace Token

/-- Delimiters that are balanced and properly nested. -/
inductive Nested : List Token → Prop where
  | nil : Nested []
  | plain {t : Token} {ts : List Token} (ht : ∀ d, t.kind ≠ .delimiter d) (hts : Nested ts) :
      Nested (t :: ts)
  | enclosed {opening closing : Token} {inner ts : List Token} {d : Delimiter}
      (hd : d.isOpen = true) (hopening : opening.kind = .delimiter d) (hinner : Nested inner)
      (hclosing : closing.kind = .delimiter d.closing) (hts : Nested ts) :
      Nested (opening :: (inner ++ closing :: ts))

namespace Nested

variable {ts us : List Token} {t : Token}

theorem append (hts : Nested ts) (hus : Nested us) : Nested (ts ++ us) := by
  induction hts with
  | nil => exact hus
  | plain ht _ ih => exact .plain ht ih
  | enclosed hd hopening hinner hclosing _ _ ih =>
    rw [List.cons_append, List.append_assoc, List.cons_append]
    exact .enclosed hd hopening hinner hclosing ih

theorem single (ht : ∀ d, t.kind ≠ .delimiter d) : Nested [t] := .plain ht .nil

end Nested

end Token

/-- What an opening delimiter opens. -/
inductive Opener where
  | call
  | group
  | set (range : Bool)
deriving DecidableEq, Repr

namespace Opener

/-- The delimiter that opens. -/
def delimiter : Opener → Delimiter
  | call | group => .openParen
  | set true => .openBracket
  | set false => .openBrace

theorem isOpen_delimiter (o : Opener) : o.delimiter.isOpen = true := by
  cases o with
  | set range => cases range <;> rfl
  | _ => rfl

end Opener

namespace Token

/-- Tokens with the given openers still open, the innermost first. -/
inductive Spells : List Opener → List Token → Prop where
  | nested {ts : List Token} (hts : Nested ts) : Spells [] ts
  | opened {openers : List Opener} {before inner : List Token} {opening : Token} {o : Opener}
      (hbefore : Spells openers before) (hopening : opening.kind = .delimiter o.delimiter)
      (hinner : Nested inner) : Spells (o :: openers) (before ++ opening :: inner)

/-- Nested tokens change nothing about what is open. -/
theorem Spells.append {openers : List Opener} {ts us : List Token} (hts : Spells openers ts)
    (hus : Nested us) : Spells openers (ts ++ us) := by
  cases hts with
  | nested hts => exact .nested (hts.append hus)
  | opened hbefore hopening hinner =>
    rw [List.append_assoc, List.cons_append]
    exact .opened hbefore hopening (hinner.append hus)

/-- A closing delimiter and what it closes are nested. -/
theorem Spells.closed {openers : List Opener} {o : Opener} {ts : List Token} {t : Token}
    (hts : Spells (o :: openers) ts) (ht : t.kind = .delimiter o.delimiter.closing) :
    Spells openers (ts ++ [t]) := by
  cases hts with
  | opened hbefore hopening hinner =>
    rw [List.append_assoc, List.cons_append]
    exact hbefore.append (.enclosed o.isOpen_delimiter hopening hinner ht .nil)

end Token

namespace Frame

/-- What opened a container; comparisons and connectives have no delimiters of their own. -/
def opener? : Frame → Option Opener
  | group _ => some .group
  | set _ op _ => some (.set op.isRange)
  | _ => none

/-- What is open in the containers. -/
def openers (stack : List Frame) : List Opener := stack.filterMap opener?

/-- A finished condition always ends up as the last child of a group. -/
theorem attach_eq_ok {offset : Nat} {c : Condition} {stack stack' : List Frame}
    (h : attach offset c stack = .ok stack') :
    openers stack' = openers stack ∧
    ∃ children last below, stack' = group (children ++ [last]) :: below := by
  induction stack generalizing c with
  | nil => cases h
  | cons frame below ih =>
    cases frame with
    | group children =>
      cases h
      exact ⟨rfl, children, c, below, rfl⟩
    | logical op left => exact ih h
    | comparison left op right => cases h
    | set left op values => cases h

/-- Closing a comparison opens and closes nothing. -/
theorem openers_settle {offset : Nat} {pending : Pending} {stack stack' : List Frame}
    (h : settle offset pending stack = .ok stack') : openers stack' = openers stack := by
  rcases settle_cases h with rfl | ⟨left, op, right, below, rfl, -, op', right', -, -, hattach⟩
  · rfl
  · exact (attach_eq_ok hattach).1

theorem openers_joined (op : Connective) (last : Condition) (stack : List Frame) :
    openers (joined op last ++ stack) = openers stack := by
  unfold joined
  split <;> rfl

end Frame

namespace Builder

/-- What is open in a state. -/
def openers (b : Builder) : List Opener := b.calls.map (fun _ => .call) ++ Frame.openers b.base

section Openers

variable {b b' : Builder} {t : Token}

theorem openers_fill (o : Operand) : (b.fill o).openers = b.openers := by
  obtain ⟨stack, previous, held, calls, pending, expectsValue⟩ := b
  cases calls with
  | cons call outer => rfl
  | nil =>
    induction stack using stack_cases with
    | comparison left op right below => cases op <;> rfl
    | _ => rfl

theorem openers_wait (p : Pending) : (b.wait p).openers = b.openers := by
  obtain ⟨stack, previous, held, calls, pending, expectsValue⟩ := b
  cases calls with
  | cons call outer => rfl
  | nil => induction stack using stack_cases <;> rfl

theorem openers_of_release (h : b.release = .ok b') : b'.openers = b.openers := by
  rcases release_eq_ok.1 h with ⟨-, rfl⟩ | ⟨word, x, -, -, -, rfl⟩
  · rfl
  · exact openers_fill x

/-- Outside of calls, only containers are open. -/
theorem openers_of_calls (hcalls : b.calls = []) : b.openers = Frame.openers b.base := by
  rw [openers, hcalls]
  rfl

theorem openers_of_stack {stack : List Frame} (hcalls : b.calls = []) (hstack : stack ≠ []) :
    ({ b with stack := stack } : Builder).openers = Frame.openers stack :=
  (openers_of_calls (b := { b with stack := stack }) hcalls).trans
    (congrArg Frame.openers (base_of_ne_nil hstack))

end Openers

/-- What a token does to the openers, and what that has to do with conditions: outside of calls,
what has been closed is a condition. -/
inductive Shift (b : Builder) (t : Token) (b' : Builder) : Prop where
  | keep (ht : ∀ d, t.kind ≠ .delimiter d) (hopeners : b'.openers = b.openers)
  | open (o : Opener) (ht : t.kind = .delimiter o.delimiter)
      (hopeners : b'.openers = o :: b.openers)
      (hcall : o = .call ↔ b.held ≠ none ∧ t.kind = .delimiter .openParen)
  | close (o : Opener) (ht : t.kind = .delimiter o.delimiter.closing)
      (hopeners : b.openers = o :: b'.openers) (hgroup : o = .group → b'.openers ≠ [])
      (hcomplete : b'.Complete ↔ o ≠ .call)

section Shift

variable {b b' : Builder} {t : Token}

theorem complete_of_attach {offset : Nat} {c : Condition} {below stack : List Frame}
    (hcalls : b.calls = []) (hattach : Frame.attach offset c below = .ok stack) :
    ({ b with stack := stack } : Builder).Complete := by
  obtain ⟨-, children, last, below', rfl⟩ := Frame.attach_eq_ok hattach
  cases children with
  | nil => exact ⟨hcalls, last, [], below', rfl⟩
  | cons c children => exact ⟨hcalls, c, children ++ [last], below', rfl⟩

theorem openers_of_attach {offset : Nat} {c : Condition} {below stack : List Frame}
    (hcalls : b.calls = []) (hattach : Frame.attach offset c below = .ok stack) :
    ({ b with stack := stack } : Builder).openers = Frame.openers below ∧
      ({ b with stack := stack } : Builder).openers ≠ [] := by
  obtain ⟨hopeners, children, last, below', rfl⟩ := Frame.attach_eq_ok hattach
  rw [openers_of_stack hcalls (List.cons_ne_nil _ _)]
  exact ⟨hopeners, List.cons_ne_nil _ _⟩

theorem shift_of_move (hheld : b.held = none) (h : Move b t b') : Shift b t b' := by
  have hnone : ∀ o : Opener, o ≠ .call →
      (o = .call ↔ b.held ≠ none ∧ t.kind = .delimiter .openParen) :=
    fun o ho => ⟨fun h => absurd h ho, fun h => absurd hheld h.1⟩
  have hkind := Role.kind_of_ofToken t
  cases h with
  | hold ht =>
    refine .keep (fun d hd => ?_) rfl
    simp [isHeld, hd] at ht
  | operand _ hrole =>
    rw [hrole] at hkind
    exact .keep (fun d hd => by simp [hd] at hkind) (openers_fill _)
  | math hrole =>
    rw [hrole] at hkind
    exact .keep (fun d hd => by simp [hd] at hkind) (openers_wait _)
  | argument hrole hcalls =>
    rw [hrole] at hkind
    exact .keep (fun d hd => by simp [hd] at hkind) (by simp [openers, base, hcalls])
  | closeCall hrole hcalls =>
    rw [hrole] at hkind
    refine .close .call hkind ?_ (by simp)
      ⟨fun h => absurd h (not_complete_fill _ _), fun h => absurd rfl h⟩
    rw [openers_fill]
    simp [openers, base, hcalls]
  | compare hrole hcalls hstack =>
    rw [hrole] at hkind
    refine .keep (fun d hd => by simp [hd] at hkind) ?_
    rw [openers_of_stack hcalls (List.cons_ne_nil _ _), openers_of_calls hcalls,
      base_of_stack hstack]
    rfl
  | connective hrole hcalls hsettle =>
    rw [hrole] at hkind
    refine .keep (fun d hd => by simp [hd] at hkind) ?_
    rw [openers_of_stack hcalls (by simp), openers_of_calls hcalls, Frame.openers_joined,
      ← Frame.openers_settle hsettle]
    rfl
  | openGroup hrole hcalls =>
    rw [hrole] at hkind
    refine .open .group hkind ?_ (hnone .group (by simp))
    rw [openers_of_stack hcalls (List.cons_ne_nil _ _), openers_of_calls hcalls]
    rfl
  | closeGroup hrole hcalls hsettle hbelow hchildren hattach =>
    rw [hrole] at hkind
    obtain ⟨hopeners, hne⟩ := openers_of_attach hcalls hattach
    refine .close .group hkind ?_ (fun _ => hne)
      ⟨fun _ => by simp, fun _ => complete_of_attach hcalls hattach⟩
    rw [openers_of_calls hcalls, ← Frame.openers_settle hsettle, hopeners]
    rfl
  | @openSet range negated _ _ _ hrole hcalls hstack =>
    rw [hrole] at hkind
    refine .open (.set range) (by cases range <;> exact hkind) ?_ (hnone (.set range) (by simp))
    rw [openers_of_calls hcalls, base_of_stack hstack]
    refine (openers_of_stack hcalls (List.cons_ne_nil _ _)).trans ?_
    cases range <;> cases negated <;> rfl
  | value hrole =>
    rw [hrole] at hkind
    exact .keep (fun d hd => by simp [hd] at hkind) rfl
  | @closeSet _ op _ _ _ hrole hcalls hstack _ _ _ hattach =>
    rw [hrole] at hkind
    obtain ⟨hopeners, hne⟩ := openers_of_attach hcalls hattach
    refine .close (.set op.isRange) (by cases op <;> exact hkind) ?_ (by simp)
      ⟨fun _ => by simp, fun _ => complete_of_attach hcalls hattach⟩
    rw [openers_of_calls hcalls, base_of_stack hstack]
    exact congrArg (Opener.set op.isRange :: ·) hopeners.symm

/-- **Openers.** Every token that is fed shifts them. -/
theorem shift_of_feed (h : b.feed t = .ok b') : Shift b t b' := by
  cases feed_iff.1 h with
  | call hheld hkind =>
    exact .open .call hkind rfl ⟨fun _ => ⟨hheld ▸ Option.some_ne_none _, hkind⟩, fun _ => rfl⟩
  | move hplain hrelease hmove =>
    have hopeners := openers_of_release hrelease
    cases shift_of_move (held_of_release hrelease) hmove with
    | keep ht hkeep => exact .keep ht (hkeep.trans hopeners)
    | «open» o ht hopen hcall =>
      refine .open o ht (hopen.trans (congrArg (o :: ·) hopeners)) ⟨fun ho => ?_, ?_⟩
      · exact absurd (held_of_release hrelease) (hcall.1 ho).1
      · rintro ⟨hheld, hkind⟩
        exact absurd hkind (hplain.resolve_left hheld)
    | close o ht hclose hgroup hcomplete => exact .close o ht (hopeners ▸ hclose) hgroup hcomplete

variable {d : Delimiter}

theorem Shift.opens (h : Shift b t b') (ht : t.kind = .delimiter d) (hd : d.isOpen = true) :
    ∃ o : Opener, b'.openers = o :: b.openers ∧ (o = .call ↔ b.held ≠ none ∧ d = .openParen) := by
  cases h with
  | keep hkeep => exact absurd ht (hkeep d)
  | «open» o ho hopeners hcall =>
    refine ⟨o, hopeners, hcall.trans ?_⟩
    rw [ht, Token.Kind.delimiter.injEq]
  | close o ho =>
    cases ht.symm.trans ho
    exact absurd hd (by rw [o.delimiter.isOpen_closing]; decide)

theorem Shift.closes (h : Shift b t b') (ht : t.kind = .delimiter d) (hd : d.isOpen = false) :
    ∃ o : Opener, d = o.delimiter.closing ∧ b.openers = o :: b'.openers ∧
      (o = .group → b'.openers ≠ []) ∧
      (b'.Complete ↔ o ≠ .call) := by
  cases h with
  | keep hkeep => exact absurd ht (hkeep d)
  | «open» o ho =>
    cases ht.symm.trans ho
    exact absurd o.isOpen_delimiter (by rw [hd]; decide)
  | close o ho hopeners hgroup hcomplete =>
    cases ht.symm.trans ho
    exact ⟨o, rfl, hopeners, hgroup, hcomplete⟩

end Shift

/-! ## Lists of tokens -/

section Lists

variable {b b' : Builder} {t : Token} {ts : List Token}

/-- The tokens read so far are nested but for what is open inside of the outermost group. -/
def Spelled (b : Builder) (ts : List Token) : Prop :=
  ∃ openers, b.openers = openers ++ [.group] ∧ Token.Spells openers ts

theorem spelled_of_shift (hts : b.Spelled ts) (h : Shift b t b') : b'.Spelled (ts ++ [t]) := by
  obtain ⟨openers, hopeners, hspells⟩ := hts
  cases h with
  | keep ht hkeep => exact ⟨openers, hkeep.trans hopeners, hspells.append (.single ht)⟩
  | «open» o ht hopen =>
    exact ⟨o :: openers, hopen.trans (congrArg (o :: ·) hopeners), .opened hspells ht .nil⟩
  | close o ht hclose hgroup =>
    have heq := hclose.symm.trans hopeners
    cases openers with
    | nil =>
      -- the outermost group is not closed by a token
      obtain ⟨ho, hnil⟩ := List.cons.inj heq
      exact absurd hnil (hgroup ho)
    | cons o' openers =>
      obtain ⟨rfl, htail⟩ := List.cons.inj heq
      exact ⟨openers, htail, hspells.closed ht⟩

theorem spelled_of_feedAll (h : empty.feedAll ts = .ok b) : b.Spelled ts :=
  feedAll_induction (motive := Spelled) ⟨[], rfl, .nested .nil⟩
    (fun _ _ _ _ _ hfeed hts => spelled_of_shift hts (shift_of_feed hfeed)) h

/-- Nested tokens leave the openers as they are. -/
theorem openers_of_nested (hts : Token.Nested ts) (h : b.feedAll ts = .ok b') :
    b'.openers = b.openers := by
  induction hts generalizing b b' with
  | nil =>
    cases h
    rfl
  | plain ht _ ih =>
    obtain ⟨b₁, hfeed, hrest⟩ := feedAll_cons.1 h
    cases shift_of_feed hfeed with
    | keep _ hkeep => exact (ih hrest).trans hkeep
    | «open» _ hkind => exact absurd hkind (ht _)
    | close _ hkind => exact absurd hkind (ht _)
  | enclosed hd hopening _ hclosing _ ihinner ihrest =>
    obtain ⟨b₁, hfeed₁, h⟩ := feedAll_cons.1 h
    obtain ⟨b₂, hinner, h⟩ := feedAll_append.1 h
    obtain ⟨b₃, hfeed₃, hrest⟩ := feedAll_cons.1 h
    obtain ⟨o, hopen, -⟩ := (shift_of_feed hfeed₁).opens hopening hd
    obtain ⟨o', -, hclose, -⟩ := (shift_of_feed hfeed₃).closes hclosing (Delimiter.isOpen_closing _)
    -- the tokens in between change nothing, so what is closed is what has been opened
    have heq := hclose.symm.trans ((ihinner hinner).trans hopen)
    exact (ihrest hrest).trans (List.cons.inj heq).2

end Lists

end Builder

end GuardedFlow
