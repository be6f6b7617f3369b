import GuardedFlow.Proofs.Builder.Delimiters
import GuardedFlow.Proofs.Builder.Normal
import GuardedFlow.Proofs.Builder.Reading

/-!
# Reading conditions

Every list of tokens that the grammar derives is read, as the condition that the derivation builds
(`Condition.ofTokens_of_disjunction`). A comparison is closed only by what follows it, so what is
said of the tokens of a condition is where they lead once a comparison has been closed:
`Builder.Delivers`. A connective takes back what has been delivered before it, and `&&` possibly
only a part of that; what it leaves open is the same as if it had come before (`Frame.attach_left`).
-/

namespace GuardedFlow

namespace Frame

/-- A condition has to come. -/
inductive Waits : List Frame → Prop where
  | group (below : List Frame) : Waits (group [] :: below)
  | logical (op : Connective) (left : Condition) {below : List Frame} (h : Waits below) :
      Waits (logical op left :: below)

/-- Conditions joined by `&&` can start. -/
inductive Starts : List Frame → Prop where
  | group (below : List Frame) : Starts (group [] :: below)
  | or (left : Condition) (below : List Frame) : Starts (logical .or left :: group [] :: below)

variable {stack below : List Frame} {c : Condition} {offset : Nat}

theorem Starts.waits (h : Starts stack) : Waits stack := by
  cases h with
  | group below => exact .group below
  | or left below => exact .logical .or left (.group below)

theorem Waits.eq_cons (h : Waits stack) :
    ∃ frame below, stack = frame :: below ∧ frame.awaits = true := by
  cases h with
  | group below => exact ⟨_, below, rfl, rfl⟩
  | logical op left _ => exact ⟨_, _, rfl, rfl⟩

/-- A condition that is waited for becomes the only one of a group. -/
theorem attach_of_waits (h : Waits stack) (c : Condition) :
    ∃ last below, ∀ offset, attach offset c stack = .ok (group [last] :: below) := by
  induction h generalizing c with
  | group below => exact ⟨c, below, fun _ => rfl⟩
  | logical op left _ ih => exact ih _

/-- `&&` takes the condition directly before it out of what has been delivered, and leaves the rest
as it was. -/
theorem attach_left (h : Starts stack)
    (hc : ∀ left right closed, c ≠ .logical .or left right closed) :
    ∃ last below, (∀ offset, attach offset c stack = .ok (group [last] :: below)) ∧
      joined .and last ++ group [] :: below = logical .and c :: stack := by
  cases h with
  | group below =>
    -- `c` is no `||`, so that all of it becomes the left side
    refine ⟨c, below, fun _ => rfl, ?_⟩
    unfold joined
    split
    · next heq => exact absurd rfl (hc _ _ _)
    · rfl
  | or left below =>
    -- `c` has finished an `||`, and its right side is taken back
    exact ⟨_, below, fun _ => rfl, rfl⟩

/-- Only `=` and `!=` turn a comparison with the absent value into a test for it. -/
theorem nullTest_of_ne {op : Operator} {comparator : Comparator} {right : Operand}
    (hop : Comparator.ofOperator? op = some comparator)
    (hnull : right = .null → op ≠ .eq ∧ op ≠ .ne) :
    nullTest (some comparator) (some right) = (some comparator, some right) := by
  by_cases hright : right = .null
  · obtain ⟨heq, hne⟩ := hnull hright
    cases op <;> cases hop <;> first | exact absurd rfl heq | exact absurd rfl hne | rfl
  · cases right with
    | null => exact absurd rfl hright
    | _ => cases comparator <;> rfl

end Frame

namespace Role

variable {t : Token}

theorem ofToken_of_comparator {op : Operator} {comparator : Comparator} (ht : t.kind = .operator op)
    (hop : Comparator.ofOperator? op = some comparator) :
    comparator.isUnary = false ∧ ofToken t = compare comparator := by
  rw [ofToken, ht]
  cases op <;> cases hop <;> exact ⟨rfl, rfl⟩

theorem ofToken_of_and (ht : t.kind = .operator .and) :
    ofToken t = logical .and := by rw [ofToken, ht]

theorem ofToken_of_or (ht : t.kind = .operator .or) : ofToken t = logical .or := by rw [ofToken, ht]

end Role

namespace Builder

variable {b b₁ b' : Builder} {t : Token} {ts us : List Token} {c : Condition}

/-- A condition can start. -/
structure Start (b : Builder) : Prop where
  held : b.held = none
  calls : b.calls = []
  idle : b.pending = .idle
  waits : Frame.Waits b.base

/-- The tokens lead to a state that is the same as if the condition had just been handed on, but for
a comparison that is still to be closed. -/
def Delivers (b : Builder) (ts : List Token) (c : Condition) : Prop :=
  ∃ b', b.Reads ts b' ∧ b'.calls = [] ∧ b'.pending = .idle ∧
    ∀ offset, Frame.settle offset b'.pending b'.base = Frame.attach offset c b.base

theorem Start.stack_cases (h : Start b) : b.stack = [] ∨ (∃ below, b.stack = .group [] :: below) ∨
    ∃ op left below, b.stack = .logical op left :: below := by
  obtain ⟨stack, previous, held, calls, pending, expectsValue⟩ := b
  have hwaits := h.waits
  induction stack using Builder.stack_cases with
  | nil => exact .inl rfl
  | group children below =>
    cases hwaits
    exact .inr (.inl ⟨below, rfl⟩)
  | logical op left below => exact .inr (.inr ⟨op, left, below, rfl⟩)
  | comparison => cases hwaits
  | set => cases hwaits

/-- The state with what has been read of a comparison. -/
def comparing (b : Builder) (left : Operand) (op : Option Comparator) (right : Option Operand) :
    Builder :=
  { b with stack := .comparison left op right :: b.base, pending := .idle }

theorem Start.fill_eq (h : Start b) (o : Operand) : b.fill o = b.comparing o none none := by
  have hcases := h.stack_cases
  obtain ⟨stack, previous, held, calls, pending, expectsValue⟩ := b
  obtain rfl : calls = [] := h.calls
  rcases hcases with hstack | ⟨below, hstack⟩ | ⟨op, left, below, hstack⟩
  · cases hstack
    rfl
  · cases hstack
    rfl
  · cases hstack
    rfl

theorem Start.vacant (h : Start b) : Vacant b := by
  have hcalls := h.calls
  have hwaiting : b.waiting = .idle := by rw [waiting, hcalls, h.idle]
  rcases h.stack_cases with hstack | ⟨below, hstack⟩ | ⟨op, left, below, hstack⟩
  all_goals
    refine ⟨h.held, ?_, ?_, ?_, hwaiting⟩
    · simp [expectsOperand, hcalls, hstack]
    · simp [Complete, hstack]
    · simp [current, hcalls, frameCurrent, hstack]

/-! ## Comparisons -/

theorem Start.comparing_vacant (h : Start b) (left : Operand) (comparator : Comparator)
    (p : Option Token) :
    Vacant ((b.comparing left (some comparator) none).seen p) := by
  have hcalls : ((b.comparing left (some comparator) none).seen p).calls = [] := h.calls
  refine ⟨h.held, ?_, ?_, ?_, ?_⟩
  · rw [expectsOperand, hcalls]
    rfl
  · rintro ⟨-, _, _, _, hstack⟩
    cases hstack
  · rw [current, hcalls]
    rfl
  · rw [waiting, hcalls]
    rfl

/-- The operator of a comparison ends its left side. -/
theorem Start.reads_compare {comparator : Comparator} {left : Operand} (h : Start b)
    (hts : b.Reads ts (b.fill left)) (ht : Role.ofToken t = .compare comparator)
    (hus : ((b.comparing left (some comparator) none).seen (some t)).Reads us b') :
    b.Reads (ts ++ t :: us) b' := by
  have hparen := Role.kind_ne_openParen ht (by simp)
  have hmove : ∀ p, Move ((b.comparing left none none).seen p) t
      ((b.comparing left (some comparator) none).seen p) := fun p => .compare ht h.calls rfl rfl
  rw [h.fill_eq] at hts
  exact hts.then hparen hmove hus

/-- The two sides of a comparison. -/
theorem Start.delivers_comparison {comparator comparator' : Comparator} {left right : Operand}
    {right' : Option Operand} (h : Start b) (hleft : ∀ b, Vacant b → b.Reads ts (b.fill left))
    (ht : Role.ofToken t = .compare comparator) (hright : ∀ b, Vacant b → b.Reads us (b.fill right))
    (hnull : Frame.nullTest (some comparator) (some right) = (some comparator', right'))
    (hdefect : Condition.comparisonDefect? left (some comparator') right' = none) :
    b.Delivers (ts ++ t :: us) (.comparison left (some comparator') right') := by
  have hfill : (b.comparing left (some comparator) none).fill right =
      b.comparing left (some comparator) (some right) := by
    rw [fill, show (b.comparing left (some comparator) none).calls = [] from h.calls]
    rfl
  have hus := hright _ (h.comparing_vacant left comparator (some t))
  rw [fill_seen, hfill] at hus
  refine ⟨_, h.reads_compare (hleft b h.vacant) ht hus, h.calls, rfl, fun offset => ?_⟩
  exact Frame.settle_comparison hnull hdefect

/-! ## Groups -/

/-- A condition in parentheses. -/
theorem Start.delivers_group {opening closing : Token} (h : Start b)
    (hopening : opening.kind = .delimiter .openParen)
    (hclosing : closing.kind = .delimiter .closeParen)
    (hc : ∀ b, Start b → (∃ below, b.base = .group [] :: below) → b.Delivers ts c) :
    b.Delivers (opening :: (ts ++ [closing])) (.group [c] true) := by
  have hopenRole : Role.ofToken opening = .openGroup := by rw [Role.ofToken, hopening]
  have hcloseRole : Role.ofToken closing = .closeGroup := by rw [Role.ofToken, hclosing]
  have hopen : Move b opening { b with stack := .group [] :: b.base } := by
    obtain ⟨frame, below, hbase, hframe⟩ := h.waits.eq_cons
    exact .openGroup hopenRole h.calls hbase hframe h.idle
  obtain ⟨b', hreads, hcalls, hidle, hsettle⟩ :=
    hc (({ b with stack := .group [] :: b.base } : Builder).seen (some opening))
      ⟨h.held, h.calls, h.idle, .group b.base⟩ ⟨b.base, rfl⟩
  obtain ⟨last, below, hattach⟩ := Frame.attach_of_waits h.waits (.group [c] true)
  have hclose :
      ∀ p,
        Move (b'.seen p) closing (({ b' with stack := .group [last] :: below } : Builder).seen p) :=
    fun p =>
      .closeGroup hcloseRole hcalls (hsettle _) (base_ne_nil b) (List.cons_ne_nil _ _) (hattach _)
  have hreads := Reads.cons (feed_of_move h.held hopen)
    (hreads.last (by simp [hclosing]) hclose hreads.held)
  refine ⟨_, hreads, hcalls, hidle, fun offset => ?_⟩
  rw [hattach]
  rfl

/-! ## Value lists -/

/-- The state with what has been read of a value list, a value being complete or, after a comma,
expected. -/
def collecting (b : Builder) (left : Operand) (op : SetOperator) (values : List Operand)
    (expectsValue : Bool) :
    Builder :=
  { b with stack := .set left op values :: b.base, pending := .idle, expectsValue := expectsValue }

theorem Start.listing_collecting (h : Start b) (left : Operand) (op : SetOperator)
    (values : List Operand) (p : Option Token) :
    Listing ((b.collecting left op values true).seen p) := .set h.calls rfl rfl rfl

theorem Start.fill_collecting (h : Start b) (left : Operand) (op : SetOperator)
    (init : List Operand) (last : Operand) :
    ((b.collecting left op [] true).listed init).fill last =
      b.collecting left op (init ++ [last]) false := by
  obtain ⟨stack, previous, held, calls, pending, expectsValue⟩ := b
  obtain rfl : calls = [] := h.calls
  rfl

/-- A set test that is read has all that it needs. -/
theorem setDefect?_eq_none {name : String} {values : List Operand} (negated : Bool) {range : Bool}
    (hvalues : values ≠ []) (hlength : range = true → 2 ≤ values.length) :
    Condition.setDefect? (.var name) (.ofFlags negated range) values = none := by
  rw [Condition.setDefect?_eq_none_iff, SetOperator.isRange_ofFlags]
  exact ⟨rfl, hvalues, hlength⟩

/-- A value list takes the place of the right side, and delivers the whole test at its closing
delimiter. -/
theorem Start.reads_set {opening closing : Token} {name : String} {comparator : Comparator}
    {values : List Operand} {negated range : Bool} {stack : List Frame} (h : Start b)
    (ht : t.kind = .operator (if negated then .ne else .eq))
    (hopening : Role.ofToken opening = .openSet range)
    (hvalues : ∃ init last, values = init ++ [last] ∧
      ∀ b : Builder, b.held = none → Listing b → b.Reads ts ((b.listed init).fill last))
    (hlength : range = true → 2 ≤ values.length)
    (hclosing : Role.ofToken closing = .closeSet (SetOperator.ofFlags negated range).delimiters.2)
    (hattach : ∀ offset,
      Frame.attach offset (.set (.var name) (.ofFlags negated range) values true) b.base =
        .ok stack) :
    ((b.comparing (.var name) (some comparator) none).seen (some t)).Reads
      (opening :: (ts ++ [closing]))
      { b with stack := stack, pending := .idle, expectsValue := false } := by
  obtain ⟨init, last, rfl, hitems⟩ := hvalues
  have hprevious : (some t).bind Token.operator? = some (if negated then .ne else .eq) := by
    rw [Option.bind_some, Token.operator?, ht]
  have hopen : Move ((b.comparing (.var name) (some comparator) none).seen (some t)) opening
      ((b.collecting (.var name) (.ofFlags negated range) [] true).seen (some t)) :=
    .openSet hopening h.calls rfl rfl hprevious
  have hlist :=
    hitems ((b.collecting (.var name) (.ofFlags negated range) [] true).seen (some opening))
    h.held (h.listing_collecting _ _ _ _)
  rw [listed_seen, fill_seen, h.fill_collecting] at hlist
  have hparen := Role.kind_ne_openParen hclosing (by simp)
  have hdefect :
      Condition.setDefect? (.var name) (.ofFlags negated range) (init ++ [last]) = none :=
    setDefect?_eq_none negated (by simp) hlength
  have hclose : ∀ p, Move
      ((b.collecting (.var name) (.ofFlags negated range) (init ++ [last]) false).seen p) closing
      (({ b with stack := stack, pending := .idle, expectsValue := false } : Builder).seen p) :=
    fun p => Move.closeSet (b := (b.collecting _ _ _ false).seen p) hclosing h.calls
      rfl rfl rfl hdefect (hattach _)
  have hfeed :=
    feed_of_move (b := (b.comparing (.var name) (some comparator) none).seen (some t)) h.held hopen
  exact .cons hfeed (hlist.last hparen hclose h.held)

/-- A test for a list of values. -/
theorem Start.delivers_set {word opening closing : Token} {values : List Operand}
    {negated range : Bool} (h : Start b) (hword : isHeld word = true)
    (ht : t.kind = .operator (if negated then .ne else .eq))
    (hopening : opening.kind = .delimiter (SetOperator.ofFlags negated range).delimiters.1)
    (hvalues : ∃ init last, values = init ++ [last] ∧
      ∀ b : Builder, b.held = none → Listing b → b.Reads ts ((b.listed init).fill last))
    (hlength : range = true → 2 ≤ values.length)
    (hclosing : closing.kind = .delimiter (SetOperator.ofFlags negated range).delimiters.2) :
    b.Delivers (word :: t :: opening :: (ts ++ [closing]))
      (.set (.var word.text) (.ofFlags negated range) values true) := by
  obtain ⟨hkind, hvar⟩ := ofWord_of_isHeld hword
  have hleft : b.Reads [word] (b.fill (.var word.text)) := by
    rw [← hvar]
    exact reads_word hkind (h.vacant.ready _)
  have hcompare : Role.ofToken t = .compare (if negated then .ne else .eq) := by
    rw [Role.ofToken, ht]
    cases negated <;> rfl
  have hopen : Role.ofToken opening = .openSet range := by
    rw [Role.ofToken, hopening]
    cases negated <;> cases range <;> rfl
  have hclose : Role.ofToken closing =
      .closeSet (SetOperator.ofFlags negated range).delimiters.2 := by
    rw [Role.ofToken, hclosing]
    cases negated <;> cases range <;> rfl
  obtain ⟨last, below, hattach⟩ :=
    Frame.attach_of_waits h.waits (.set (.var word.text) (.ofFlags negated range) values true)
  have hreads :=
    h.reads_compare hleft hcompare (h.reads_set ht hopen hvalues hlength hclose hattach)
  exact ⟨_, hreads, h.calls, rfl, fun offset => (hattach offset).symm⟩

/-! ## Connectives -/

/-- A connective after a condition leaves the state as if it had come before. -/
theorem Start.delivers_connective {op : Connective} {left right last : Condition}
    {below : List Frame} (h : Start b) (hleft : b.Delivers ts left)
    (ht : Role.ofToken t = .logical op)
    (hattach : ∀ offset, Frame.attach offset left b.base = .ok (.group [last] :: below))
      (hjoined : Frame.joined op last ++ .group [] :: below = .logical op left :: b.base)
    (hright : ∀ b', Start b' → b'.base = .logical op left :: b.base → b'.Delivers us right) :
    b.Delivers (ts ++ t :: us) (.logical op (some left) (some right) true) := by
  have hparen := Role.kind_ne_openParen ht (by simp)
  obtain ⟨b₁, hts, hcalls, hidle, hsettle⟩ := hleft
  have hmove :
      ∀ p,
        Move (b₁.seen p) t
          (({ b₁ with stack := .logical op left :: b.base } : Builder).seen p) := by
    intro p
    rw [← hjoined]
    exact .connective ht hcalls ((hsettle _).trans (hattach _))
  -- below the connective lie the containers of `b`, so a condition can start again
  have hstart : Start (({ b₁ with stack := .logical op left :: b.base } : Builder).seen (some t)) :=
    ⟨hts.held, hcalls, hidle, .logical op left h.waits⟩
  obtain ⟨b₂, hus, hcalls₂, hidle₂, hsettle₂⟩ := hright _ hstart rfl
  exact ⟨b₂, hts.then hparen hmove hus, hcalls₂, hidle₂, hsettle₂⟩

end Builder

/-! ## The grammar of conditions -/

namespace Grammar

open Builder

theorem Conjunction.ne_or {ts : List Token} {c : Condition} (h : Conjunction ts c) :
    ∀ left right closed, c ≠ .logical .or left right closed := by
  cases h with
  | atom h => cases h <;> simp
  | and => simp

mutual

theorem Atom.delivers {ts : List Token} {c : Condition} : Atom ts c → ∀ b, Start b → b.Delivers ts c
  | .group hopening h hclosing, b, hb => hb.delivers_group hopening hclosing h.delivers
  | .comparison hleft ht hop hright hvariable hnull, b, hb => by
    obtain ⟨hunary, hrole⟩ := Role.ofToken_of_comparator ht hop
    refine hb.delivers_comparison hleft.reads hrole hright.reads (Frame.nullTest_of_ne hop hnull) ?_
    exact Condition.comparisonDefect?_eq_none_iff.2 ⟨hvariable, by simp [hunary]⟩
  | .isNull hleft ht hright hvariable, b, hb => by
    obtain ⟨-, hrole⟩ := Role.ofToken_of_comparator ht (rfl : Comparator.ofOperator? .eq = some .eq)
    exact hb.delivers_comparison hleft.reads hrole hright.reads rfl
      (Condition.comparisonDefect?_eq_none_iff.2 ⟨hvariable, by simp [Comparator.isUnary]⟩)
  | .notNull hleft ht hright hvariable, b, hb => by
    obtain ⟨-, hrole⟩ := Role.ofToken_of_comparator ht (rfl : Comparator.ofOperator? .ne = some .ne)
    exact hb.delivers_comparison hleft.reads hrole hright.reads rfl
      (Condition.comparisonDefect?_eq_none_iff.2 ⟨hvariable, by simp [Comparator.isUnary]⟩)
  | .member hword ht hopening h hclosing, b, hb => by
    rw [← SetOperator.ofFlags_false]
    refine hb.delivers_set hword ht ?_ h.reads (by simp) ?_
    · rw [SetOperator.delimiters_ofFlags]
      exact hopening
    · rw [SetOperator.delimiters_ofFlags]
      exact hclosing
  | .range hword ht hopening h hlength hclosing, b, hb => by
    rw [← SetOperator.ofFlags_true]
    refine hb.delivers_set hword ht ?_ h.reads (fun _ => hlength) ?_
    · rw [SetOperator.delimiters_ofFlags]
      exact hopening
    · rw [SetOperator.delimiters_ofFlags]
      exact hclosing

theorem Conjunction.delivers {ts : List Token} {c : Condition} :
    Conjunction ts c → ∀ b, Start b → Frame.Starts b.base → b.Delivers ts c
  | .atom h, b, hb, _ => h.delivers b hb
  | .and hleft ht hright, b, hb, hbase => by
    obtain ⟨last, below, hattach, hjoined⟩ := Frame.attach_left hbase hleft.ne_or
    exact hb.delivers_connective (hleft.delivers b hb hbase)
      (Role.ofToken_of_and ht) hattach hjoined
      fun b' hb' _ => hright.delivers b' hb'

theorem Disjunction.delivers {ts : List Token} {c : Condition} :
    Disjunction ts c → ∀ b, Start b → (∃ below, b.base = .group [] :: below) → b.Delivers ts c
  | .conjunction h, b, hb, hbase => by
    obtain ⟨below, hbase⟩ := hbase
    exact h.delivers b hb (hbase ▸ .group below)
  | @Disjunction.or _ _ _ left _ hleft ht hright, b, hb, hbase => by
    obtain ⟨below, hbase⟩ := hbase
    have hattach : ∀ offset, Frame.attach offset left b.base = .ok (.group [left] :: below) :=
      fun offset => by
      rw [hbase]
      rfl
    have hjoined : Frame.joined .or left ++ .group [] :: below = .logical .or left :: b.base := by
      rw [hbase]
      rfl
    refine hb.delivers_connective (hleft.delivers b hb ⟨below, hbase⟩)
      (Role.ofToken_of_or ht) hattach hjoined ?_
    intro b' hb' hbase'
    refine hright.delivers b' hb' ?_
    rw [hbase', hbase]
    exact .or left below

end

end Grammar

/-- What is delivered to an empty builder is read, in the closed group of the whole input. -/
theorem Builder.Delivers.ofTokens_eq {ts : List Token} {c : Condition}
    (h : Builder.empty.Delivers ts c) :
    Condition.ofTokens ts = .ok (.group [c] true) := by
  obtain ⟨b', ⟨b₁, p, hfeed, hrelease⟩, hcalls, -, hsettle⟩ := h
  refine Builder.ofTokens_eq_ok.2 ⟨b₁, hfeed, Builder.finish_eq_ok.2 ?_⟩
  exact ⟨b'.seen p, [c], hrelease, hcalls, hsettle _, List.cons_ne_nil _ _, rfl⟩

theorem Builder.start_empty : Builder.empty.Start := ⟨rfl, rfl, rfl, .group []⟩

/-- **Completeness.** The tokens of a derivation are read as the condition that the derivation
builds, in the closed group of the whole input. -/
theorem Condition.ofTokens_of_disjunction {ts : List Token} {c : Condition}
    (h : Grammar.Disjunction ts c) :
    ofTokens ts = .ok (.group [c] true) :=
  (h.delivers Builder.empty Builder.start_empty ⟨[], rfl⟩).ofTokens_eq

/-- The tokens of `a - b * 2 > 3 || c = null && (d = {x})`. -/
def Token.mixed : List Token :=
  [.word "a" 0, .operator .sub 2, .word "b" 4, .operator .mul 6, .word "2" 8, .operator .gt 10,
    .word "3" 12, .operator .or 14, .word "c" 17, .operator .eq 19, .word "null" 21,
    .operator .and 26, .delimiter .openParen 29, .word "d" 30, .operator .eq 32,
    .delimiter .openBrace 34, .word "x" 35, .delimiter .closeBrace 36, .delimiter .closeParen 37]

theorem Condition.ofTokens_mixed : ofTokens Token.mixed = .ok (.group [.logical .or
    (some (.comparison (.binary (.var "a") .sub (.binary (.var "b") .mul (.ofWord "2"))) (some .gt)
      (some (.ofWord "3"))))
    (some (.logical .and (some (.comparison (.var "c") (some .isNull) none))
      (some (.group [.set (.var "d") .member [.var "x"] true] true)) true)) true] true) := by
  have unary : ∀ text offset, Grammar.Unary [.word text offset] (.ofWord text) :=
    fun _ _ => .primary (.word rfl)
  have word : ∀ text offset, Grammar.Arithmetic [.word text offset] (.ofWord text) :=
    fun text offset => Grammar.Chain.arithmetic (.one (unary text offset))
  have chain : Grammar.Chain
      ([.word "a" 0] ++ .operator .sub 2 :: [.word "b" 4] ++ .operator .mul 6 :: [.word "2" 8])
      (.ofWord "a") ([] ++ [(.sub, .ofWord "b")] ++ [(.mul, .ofWord "2")]) :=
    .more (.more (.one (unary "a" 0)) rfl rfl (unary "b" 4)) rfl rfl (unary "2" 8)
  have difference : Grammar.Arithmetic
      [.word "a" 0, .operator .sub 2, .word "b" 4, .operator .mul 6, .word "2" 8]
      (.binary (.var "a") .sub (.binary (.var "b") .mul (.ofWord "2"))) := chain.arithmetic
  have greater : Grammar.Atom
      ([.word "a" 0, .operator .sub 2, .word "b" 4, .operator .mul 6, .word "2" 8] ++
        .operator .gt 10 :: [.word "3" 12]) _ :=
    .comparison difference rfl rfl (word "3" 12) rfl nofun
  have null : Grammar.Atom ([.word "c" 17] ++ .operator .eq 19 :: [.word "null" 21]) _ :=
    .isNull (word "c" 17) rfl (word "null" 21) rfl
  have member : Grammar.Atom
      [.word "d" 30, .operator .eq 32, .delimiter .openBrace 34, .word "x" 35,
        .delimiter .closeBrace 36] _ :=
    @Grammar.Atom.member _ _ _ _ _ _ false rfl rfl rfl (.one (word "x" 35)) rfl
  have group : Grammar.Atom
      (.delimiter .openParen 29 :: ([.word "d" 30, .operator .eq 32, .delimiter .openBrace 34,
        .word "x" 35, .delimiter .closeBrace 36] ++ [.delimiter .closeParen 37])) _ :=
    .group rfl (.conjunction (.atom member)) rfl
  have both := Grammar.Conjunction.and (.atom null) (rfl : (Token.operator .and 26).kind = _) group
  exact ofTokens_of_disjunction
    (.or (.conjunction (.atom greater)) (rfl : (Token.operator .or 14).kind = _) both)

end GuardedFlow
