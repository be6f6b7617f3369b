import GuardedFlow.Proofs.Builder.Grammar
import GuardedFlow.Proofs.Builder.Moves

/-!
# Reading operands

The tokens of an operand lead from a state in which an operand can start to the state in which it
has been joined to the one that is being read (`Grammar.Unary.reads`), wherever that is: what
`Builder.fill` does to the state is all that matters. Values and arguments are collected in the same
way (`Grammar.Items.reads`).
-/

namespace GuardedFlow

namespace Pending

/-- Of the signs that wait, the one read last is applied first. -/
theorem combine_sign (p : Pending) (current : Option Operand) (o : Operand) (sign : UnaryOp) :
    combine { p with signs := sign :: p.signs } current o = p.combine current (o.signed sign) := by
  obtain ⟨binary, signs⟩ := p
  cases current <;> cases binary <;> rfl

theorem push_of_binary {op : Operator} {binary : BinaryOp}
    (hop : BinaryOp.ofOperator? op = some binary) :
    idle.push false op = .ok ⟨some binary, []⟩ := by
  unfold push
  simp [idle, hop]

end Pending

theorem Role.kind_ne_openParen {t : Token} {role : Role} (ht : Role.ofToken t = role)
    (hrole : role ≠ .openGroup) :
    t.kind ≠ .delimiter .openParen := by
  intro hkind
  rw [Role.ofToken, hkind] at ht
  exact hrole ht.symm

theorem Role.ofToken_of_isMath {t : Token} {op : Operator} (ht : t.kind = .operator op)
    (hop : op.isMath = true) :
    Role.ofToken t = .math op := by
  rw [Role.ofToken, ht]
  cases op <;> first | rfl | cases hop

theorem BinaryOp.isMath_of_ofOperator? {op : Operator} {binary : BinaryOp}
    (hop : BinaryOp.ofOperator? op = some binary) : op.isMath = true := by
  cases op <;> first | rfl | cases hop

namespace Operand

theorem signed_neg_number (x : Number) :
    (literal (.number x)).signed .neg = literal (.number x.neg) := rfl

theorem signed_neg_of_ne {o : Operand} (ho : ∀ x, o ≠ .literal (.number x)) :
    o.signed .neg = unary .neg o := by
  rw [signed, negate]
  exact ho

theorem signed_bitNot (o : Operand) : o.signed .bitNot = unary .bitNot o := rfl

end Operand

namespace Builder

variable {b b₁ b₂ b' : Builder} {t : Token} {ts us : List Token} {o x : Operand}

/-- The tokens lead to a state, the token that comes before it aside, once a held word has been
delivered. -/
def Reads (b : Builder) (ts : List Token) (b' : Builder) : Prop :=
  ∃ b₁ p, b.feedAll ts = .ok b₁ ∧ b₁.release = .ok (b'.seen p)

theorem reads_nil (hheld : b.held = none) : b.Reads [] b :=
  ⟨b, b.previous, rfl, release_of_held_none hheld⟩

theorem Reads.held (h : b.Reads ts b') : b'.held = none := by
  obtain ⟨b₁, p, -, hrelease⟩ := h
  have hheld := held_of_release hrelease
  exact hheld

theorem Reads.cons (h : b.feed t = .ok b₁) (hts : b₁.Reads ts b') : b.Reads (t :: ts) b' := by
  obtain ⟨b₂, p, hfeed, hrelease⟩ := hts
  exact ⟨b₂, p, feedAll_cons.2 ⟨b₁, h, hfeed⟩, hrelease⟩

/-- Reading goes on with a token that opens no call. -/
theorem Reads.then (h : b.Reads ts b₁) (ht : t.kind ≠ .delimiter .openParen)
    (hmove : ∀ p, Move (b₁.seen p) t (b₂.seen p)) (hus : (b₂.seen (some t)).Reads us b') :
    b.Reads (ts ++ t :: us) b' := by
  obtain ⟨b₃, p, hfeed, hrelease⟩ := h
  obtain ⟨b₄, q, hus, hrelease'⟩ := hus
  have hfeeds := Feeds.move (.inr ht) hrelease (hmove p)
  have ht : b₃.feed t = .ok (b₂.seen (some t)) := feed_iff.2 hfeeds
  exact ⟨b₄, q, feedAll_append.2 ⟨b₃, hfeed, feedAll_cons.2 ⟨_, ht, hus⟩⟩, hrelease'⟩

theorem Reads.last (h : b.Reads ts b₁) (ht : t.kind ≠ .delimiter .openParen)
    (hmove : ∀ p, Move (b₁.seen p) t (b₂.seen p)) (hheld : b₂.held = none) :
      b.Reads (ts ++ [t]) b₂ :=
  h.then ht hmove (reads_nil hheld)

/-- A token that makes a move where no word is held. -/
theorem feed_of_move (hheld : b.held = none) (h : Move b t b') :
    b.feed t = .ok (b'.seen (some t)) :=
  (feed_of_held_none hheld).2 ⟨b', h, rfl⟩

/-! ## Where an operand can come -/

/-- An operand can come, and makes another one of what there is. -/
structure Ready (b : Builder) (o x : Operand) : Prop where
  held : b.held = none
  expects : b.expectsOperand = true
  isOpen : ¬ b.Complete
  combine : b.waiting.combine b.current o = .ok x

/-- An operand can start, with nothing there to join it to. -/
structure Vacant (b : Builder) : Prop where
  held : b.held = none
  expects : b.expectsOperand = true
  isOpen : ¬ b.Complete
  current : b.current = none
  waiting : b.waiting = .idle

theorem Ready.seen (h : Ready b o x) (p : Option Token) : Ready (b.seen p) o x :=
  ⟨h.held, h.expects, h.isOpen, h.combine⟩

theorem Vacant.ready (h : Vacant b) (o : Operand) : Ready b o o :=
  ⟨h.held, h.expects, h.isOpen, by rw [h.current, h.waiting]; rfl⟩

theorem reads_operand (h : Ready b o x) (hheld : isHeld t = false)
    (hrole : Role.ofToken t = .operand o) :
    b.Reads [t] (b.fill x) :=
  .cons (feed_of_move h.held (.operand hheld hrole h.isOpen h.combine))
    (reads_nil ((held_fill b x).trans h.held))

/-- A word is an operand, be it held back at first or not. -/
theorem reads_word (ht : t.kind = .word) (h : Ready b (.ofWord t.text) x) :
    b.Reads [t] (b.fill x) := by
  have hrole : Role.ofToken t = .operand (.ofWord t.text) := by rw [Role.ofToken, ht]
  cases hheld : isHeld t with
  | false => exact reads_operand h hheld hrole
  | true =>
    -- the word is delivered when the state is released, which `Reads` includes
    refine ⟨_, some t, feedAll_singleton.2 (feed_of_move h.held (.hold hheld)), ?_⟩
    refine release_eq_ok.2 (.inr ⟨t, x, rfl, h.isOpen, h.combine, ?_⟩)
    rw [← fill_seen, forgetHeld, seen, seen, h.held]

theorem reads_quoted (ht : t.kind = .quoted) (h : Ready b (.quoted t.text) x) :
    b.Reads [t] (b.fill x) :=
  reads_operand h (by rw [isHeld, ht]; rfl) (by rw [Role.ofToken, ht])

/-! ## Signs and binary operators -/

/-- A sign in front of an operand is one more of those that wait for it. -/
theorem reads_sign {op : Operator} {sign : UnaryOp} (hrole : Role.ofToken t = .math op)
    (hpush : ∀ p : Pending, p.push true op = .ok ⟨p.binary, sign :: p.signs⟩)
    (h : Ready b (o.signed sign) x) (hts : ∀ b x, Ready b o x → b.Reads ts (b.fill x)) :
    b.Reads (t :: ts) (b.fill x) := by
  have hp : b.waiting.push b.expectsOperand op =
      .ok ⟨b.waiting.binary, sign :: b.waiting.signs⟩ := by
    rw [h.expects, hpush]
  refine .cons (feed_of_move h.held (.math hrole hp)) ?_
  have hexpects : (b.wait ⟨b.waiting.binary, sign :: b.waiting.signs⟩).expectsOperand = true :=
    (expectsOperand_wait b (⟨b.waiting.binary, sign :: b.waiting.signs⟩ : Pending) rfl).trans
      h.expects
  have hcombine : Pending.combine ⟨b.waiting.binary, sign :: b.waiting.signs⟩ b.current o = .ok x :=
    (b.waiting.combine_sign b.current o sign).trans h.combine
  have hready : Ready (b.wait ⟨b.waiting.binary, sign :: b.waiting.signs⟩) o x := by
    refine ⟨(held_wait b _).trans h.held, hexpects, fun hcomplete => ?_, ?_⟩
    · exact h.isOpen ((complete_wait b _).1 hcomplete)
    · rw [current_wait, waiting_wait]
      exact hcombine
  have hreads := hts _ x (hready.seen (some t))
  rw [fill_seen, fill_wait] at hreads
  exact hreads

/-- A binary operator takes what has been read as its left side. -/
theorem Reads.binary {op : Operator} {binary : BinaryOp} (h : b.Reads ts (b.fill x))
    (hheld : b.held = none) (ht : t.kind = .operator op)
    (hop : BinaryOp.ofOperator? op = some binary)
    (hus : ∀ b y, Ready b o y → b.Reads us (b.fill y)) :
    b.Reads (ts ++ t :: us) (b.fill (x.extend binary o)) := by
  have hmove : ∀ p, Move ((b.fill x).seen p) t (((b.fill x).wait ⟨some binary, []⟩).seen p) := by
    intro p
    rw [← wait_seen]
    refine .math (Role.ofToken_of_isMath ht (BinaryOp.isMath_of_ofOperator? hop)) ?_
    rw [waiting_seen, waiting_fill, expectsOperand_seen, expectsOperand_fill]
    exact Pending.push_of_binary hop
  refine h.then (by simp [ht]) hmove ?_
  have hready : Ready ((b.fill x).wait ⟨some binary, []⟩) o (x.extend binary o) := by
    refine ⟨?_, expectsOperand_wait_binary _ rfl, fun hcomplete => ?_, ?_⟩
    · rw [held_wait, held_fill, hheld]
    · exact not_complete_fill b x ((complete_wait _ _).1 hcomplete)
    · rw [current_wait, waiting_wait, current_fill]
      rfl
  have hreads := hus _ _ (hready.seen (some t))
  rw [fill_seen, fill_wait, fill_fill] at hreads
  exact hreads

/-! ## Lists of values and arguments -/

/-- A value or an argument can start. -/
inductive Listing (b : Builder) : Prop where
  | call {call : OpenCall} {outer : List OpenCall} (hcalls : b.calls = call :: outer)
      (hcurrent : call.current = none) (hidle : call.pending = .idle)
  | set {left : Operand} {op : SetOperator} {values : List Operand} {below : List Frame}
      (hcalls : b.calls = []) (hstack : b.stack = .set left op values :: below)
      (hidle : b.pending = .idle) (hexpects : b.expectsValue = true)

/-- The state after some more values or arguments, each with a comma after it. -/
def listed (b : Builder) (os : List Operand) : Builder :=
  match b.calls with
  | call :: outer => { b with calls := { call with args := call.args ++ os } :: outer }
  | [] =>
    match b.stack with
    | .set left op values :: below => { b with stack := .set left op (values ++ os) :: below }
    | _ => b

theorem Listing.vacant (h : Listing b) (hheld : b.held = none) : Vacant b := by
  cases h with
  | call hcalls hcurrent hidle =>
    refine ⟨hheld, ?_, fun hcomplete => ?_, ?_, ?_⟩
    · simp [expectsOperand, hcalls, OpenCall.expectsOperand, hcurrent]
    · exact List.cons_ne_nil _ _ (hcalls.symm.trans hcomplete.1)
    · rw [current, hcalls]
      exact hcurrent
    · rw [waiting, hcalls]
      exact hidle
  | set hcalls hstack hidle hexpects =>
    refine ⟨hheld, ?_, fun hcomplete => ?_, ?_, ?_⟩
    · simp [expectsOperand, hcalls, hstack, hexpects]
    · obtain ⟨-, _, _, _, hgroup⟩ := hcomplete
      exact absurd (hstack.symm.trans hgroup) (by simp)
    · simp [current, hcalls, frameCurrent, hstack, hexpects]
    · rw [waiting, hcalls]
      exact hidle

theorem Listing.listed_nil (h : Listing b) : b.listed [] = b := by
  obtain ⟨stack, previous, held, calls, pending, expectsValue⟩ := b
  cases h with
  | call hcalls =>
    cases hcalls
    simp [listed]
  | set hcalls hstack =>
    cases hcalls
    cases hstack
    simp [listed]

theorem Listing.more (h : Listing b) (os : List Operand) : Listing (b.listed os) := by
  obtain ⟨stack, previous, held, calls, pending, expectsValue⟩ := b
  cases h with
  | call hcalls hcurrent hidle =>
    cases hcalls
    exact .call rfl hcurrent hidle
  | set hcalls hstack hidle hexpects =>
    cases hcalls
    cases hstack
    exact .set rfl rfl hidle hexpects

theorem Listing.seen (h : Listing b) (p : Option Token) : Listing (b.seen p) := by
  cases h with
  | call hcalls hcurrent hidle => exact .call hcalls hcurrent hidle
  | set hcalls hstack hidle hexpects => exact .set hcalls hstack hidle hexpects

theorem listed_seen (os : List Operand) (p : Option Token) :
    (b.seen p).listed os = (b.listed os).seen p := by
  obtain ⟨stack, previous, held, calls, pending, expectsValue⟩ := b
  cases calls with
  | cons call outer => rfl
  | nil => induction stack using stack_cases <;> rfl

theorem held_listed (os : List Operand) : (b.listed os).held = b.held := by
  obtain ⟨stack, previous, held, calls, pending, expectsValue⟩ := b
  cases calls with
  | cons call outer => rfl
  | nil => induction stack using stack_cases <;> rfl

/-- A comma ends a value or an argument. -/
theorem Listing.move_separator (h : Listing b) (os : List Operand) (o : Operand)
    (ht : t.kind = .separator) :
    Move ((b.listed os).fill o) t (b.listed (os ++ [o])) := by
  have hrole : Role.ofToken t = .separator := by rw [Role.ofToken, ht]
  obtain ⟨stack, previous, held, calls, pending, expectsValue⟩ := b
  cases h with
  | @call call outer hcalls hcurrent hidle =>
    obtain ⟨name, args, current, pending'⟩ := call
    cases hcalls
    cases hcurrent
    cases hidle
    simp only [listed, fill, ← List.append_assoc]
    have harg : (⟨name, args ++ os, some o, .idle⟩ : OpenCall).current = some o := rfl
    exact Move.argument hrole rfl rfl harg
  | @set left op values below hcalls hstack hidle hexpects =>
    cases hcalls
    cases hstack
    cases hidle
    cases hexpects
    simp only [listed, fill, fillFrame, if_true, ← List.append_assoc]
    exact .value hrole rfl rfl rfl rfl

/-- One more value or argument is read after a comma. -/
theorem Listing.reads_more {os : List Operand} {last : Operand} (h : Listing b)
    (hheld : b.held = none) (hts : b.Reads ts ((b.listed os).fill last)) (ht : t.kind = .separator)
    (hus : ∀ b, Vacant b → b.Reads us (b.fill o)) :
    b.Reads (ts ++ t :: us) ((b.listed (os ++ [last])).fill o) := by
  have hmove :
      ∀ p, Move (((b.listed os).fill last).seen p) t ((b.listed (os ++ [last])).seen p) := by
    intro p
    have hmove := (h.seen p).move_separator os last ht
    rwa [listed_seen, listed_seen, fill_seen] at hmove
  refine hts.then (by simp [ht]) hmove ?_
  have hvacant := ((h.more (os ++ [last])).seen (some t)).vacant ((held_listed _).trans hheld)
  have hreads := hus _ hvacant
  rw [fill_seen] at hreads
  exact hreads

/-! ## Calls -/

/-- The state inside of a call whose arguments are still to come. -/
def enter (b : Builder) (name : Token) : Builder :=
  { b with calls := ⟨name.text, [], none, .idle⟩ :: b.calls }

theorem listing_enter (name : Token) : Listing (b.enter name) := .call rfl rfl rfl

/-- The arguments have been read: the innermost call has all of them. -/
def ReadsArguments (ts : List Token) (args : List Operand) : Prop :=
  ∀ (b : Builder) (name : Token), b.held = none → ∃ call : OpenCall, call.name = name.text ∧
    call.pending = .idle ∧ call.finished? = some args ∧
    (b.enter name).Reads ts { b with calls := call :: b.calls }

/-- A call is an operand. Its name is held back until the parenthesis after it, and the state
outside of it waits for the closing one. -/
theorem reads_call {name opening closing : Token} {args : List Operand} (hname : isHeld name = true)
    (hopening : opening.kind = .delimiter .openParen) (hargs : ReadsArguments ts args)
    (hclosing : closing.kind = .delimiter .closeParen) (h : Ready b (.call name.text args) x) :
    b.Reads (name :: opening :: (ts ++ [closing])) (b.fill x) := by
  have hopen : (({ b with held := some name } : Builder).seen (some name)).feed opening =
      .ok ((b.seen (some opening)).enter name) := by
    obtain ⟨stack, previous, held, calls, pending, expectsValue⟩ := b
    obtain rfl : held = none := h.held
    exact feed_iff.2 (.call rfl hopening h.expects h.isOpen)
  -- from here on the call is the innermost container; below it the state stays ready for an operand
  refine .cons (feed_of_move h.held (.hold hname)) (.cons hopen ?_)
  obtain ⟨call, hcall, hidle, hfinished, hreads⟩ := hargs (b.seen (some opening)) name h.held
  refine hreads.last (by simp [hclosing]) (fun p => ?_) ((held_fill b x).trans h.held)
  have hrole : Role.ofToken closing = .closeGroup := by rw [Role.ofToken, hclosing]
  have hcombine : b.waiting.combine b.current (.call call.name args) = .ok x := by
    rw [hcall]
    exact h.combine
  rw [← fill_seen]
  exact Move.closeCall (b := ({ b with calls := call :: b.calls } : Builder).seen p) hrole
    rfl hidle hfinished
    h.isOpen hcombine

theorem readsArguments_nil : ReadsArguments [] [] := fun _ name hheld =>
  ⟨⟨name.text, [], none, .idle⟩, rfl, rfl, rfl, reads_nil hheld⟩

theorem readsArguments_append {init : List Operand} {last : Operand}
    (h : ∀ b, b.held = none → Listing b → b.Reads ts ((b.listed init).fill last)) :
    ReadsArguments ts (init ++ [last]) := by
  intro b name hheld
  refine ⟨⟨name.text, init, some last, .idle⟩, rfl, rfl, rfl, ?_⟩
  exact h (b.enter name) hheld (listing_enter name)

end Builder

/-! ## The grammar of operands -/

namespace Grammar

open Builder

mutual

theorem Primary.reads {ts : List Token} {o : Operand} :
    Primary ts o → ∀ b x, Ready b o x → b.Reads ts (b.fill x)
  | .word ht, _, _, hb => reads_word ht hb
  | .quoted ht, _, _, hb => reads_quoted ht hb
  | .call hname hopening hargs hclosing, _, _, hb =>
    reads_call hname hopening hargs.reads hclosing hb

theorem Arguments.reads {ts : List Token} {args : List Operand} :
    Arguments ts args → ReadsArguments ts args
  | .none => readsArguments_nil
  | .some h => by
    obtain ⟨init, last, rfl, hreads⟩ := h.reads
    exact readsArguments_append hreads

theorem Unary.reads {ts : List Token} {o : Operand} :
    Unary ts o → ∀ b x, Ready b o x → b.Reads ts (b.fill x)
  | .primary h, b, x, hb => h.reads b x hb
  | .flip ht h, _, _, hb => by
    rw [← Operand.signed_neg_number] at hb
    exact reads_sign (Role.ofToken_of_isMath ht rfl) (fun _ => rfl) hb h.reads
  | .neg ht h ho, _, _, hb => by
    rw [← Operand.signed_neg_of_ne ho] at hb
    exact reads_sign (Role.ofToken_of_isMath ht rfl) (fun _ => rfl) hb h.reads
  | .bitNot ht h, _, _, hb => by
    rw [← Operand.signed_bitNot] at hb
    exact reads_sign (Role.ofToken_of_isMath ht rfl) (fun _ => rfl) hb h.reads

theorem Chain.reads {ts : List Token} {first : Operand} {rest : List (BinaryOp × Operand)} :
    Chain ts first rest → ∀ b, Vacant b → b.Reads ts (b.fill (first.chain rest))
  | .one h, b, hb => h.reads b first (hb.ready first)
  | .more h ht hop ho, b, hb => by
    rw [Operand.chain_append]
    exact (h.reads b hb).binary hb.held ht hop ho.reads

theorem Arithmetic.reads {ts : List Token} {o : Operand} :
    Arithmetic ts o → ∀ b, Vacant b → b.Reads ts (b.fill o)
  | .grouped h ho, b, hb => by
    rw [← Operand.chain_of_grouped ho]
    exact h.reads b hb

theorem Items.reads {ts : List Token} {os : List Operand} :
    Items ts os → ∃ init last, os = init ++ [last] ∧
    ∀ b : Builder, b.held = none → Listing b → b.Reads ts ((b.listed init).fill last)
  | .one h => by
    refine ⟨[], _, rfl, fun b hheld hb => ?_⟩
    rw [hb.listed_nil]
    exact h.reads b (hb.vacant hheld)
  | .more h ht ho => by
    obtain ⟨init, last, rfl, hreads⟩ := h.reads
    exact ⟨init ++ [last], _, rfl,
      fun b hheld hb => hb.reads_more hheld (hreads b hheld hb) ht ho.reads⟩

end

end Grammar

end GuardedFlow
