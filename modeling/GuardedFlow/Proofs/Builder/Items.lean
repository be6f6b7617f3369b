import GuardedFlow.Proofs.Builder.Operators
import GuardedFlow.Proofs.Token.Items

/-!
# Nothing is lost

The items of a state are those of its containers, of the operators that wait and of the calls that
are open, in this order (`Builder.items`). A token that is taken in adds at the end what it is at
its place, and nothing else changes (`Builder.items_of_move`), however much the tree is rebuilt. So
a condition says from left to right what its tokens say (`Condition.items_of_ofTokens`).

Two things have to be known of a state besides. It asks for an operand just if none ends before it
(`Builder.Placed`), so that a sign is told from an operator between operands in the same way; and an
operator waits only where an operand is read (`Builder.Regular`), so that no connective overtakes
it.
-/

namespace GuardedFlow

namespace Frame

/-- The items of a container. -/
def items : Frame → List Item
  | group children => Condition.allItems children
  | logical op left => left.items ++ [.operator op.operator]
  | comparison left _ right => left.items ++ Operand.sideItems right
  | set left _ values => left.items ++ Operand.allItems values

/-- The items of the containers, the outermost first. -/
def stackItems : List Frame → List Item
  | [] => []
  | frame :: below => stackItems below ++ frame.items

/-- Whether an operand is read in a container. -/
def holdsOperand : Frame → Bool
  | comparison .. | set .. => true
  | _ => false

variable {offset : Nat} {pending : Pending} {stack stack' below : List Frame} {c : Condition}

theorem stackItems_append (above below : List Frame) :
    stackItems (above ++ below) = stackItems below ++ stackItems above := by
  induction above with
  | nil => rw [List.nil_append, stackItems, List.append_nil]
  | cons frame above ih => rw [List.cons_append, stackItems, ih, stackItems, List.append_assoc]

theorem attach_ne_nil (h : attach offset c stack = .ok stack') : stack' ≠ [] := by
  obtain ⟨-, _, _, _, rfl⟩ := attach_eq_ok h
  exact List.cons_ne_nil _ _

theorem items_attach (h : attach offset c stack = .ok stack') :
    stackItems stack' = stackItems stack ++ c.items := by
  induction stack generalizing c with
  | nil => cases h
  | cons frame below ih =>
    cases frame with
    | group children =>
      cases h
      simp [stackItems, items, Condition.allItems_append, Condition.allItems_singleton]
    | logical op left =>
      rw [ih h]
      simp [stackItems, items, Condition.items, Condition.sideItems]
    | comparison left op right => cases h
    | set left op values => cases h

/-- A test for the absent value has that value on its right. -/
theorem items_nullTest {left : Operand} {op op' : Comparator} {right right' : Option Operand}
    (hop : op.isUnary = false) (hdefect : Condition.comparisonDefect? left (some op') right' = none)
    (h : nullTest (some op) right = (some op', right')) :
    (Condition.comparison left (some op') right').items =
      left.items ++ Operand.sideItems right := by
  unfold nullTest at h
  split at h
  · cases h
    rfl
  · cases h
    rfl
  · cases h
    cases right' with
    | some r => rfl
    | none =>
      exact absurd ((Condition.comparisonDefect?_eq_none_iff.1 hdefect).2.1 rfl) (by simp [hop])

theorem items_settle (hop : ∀ left c right below, stack = comparison left (some c) right :: below →
    c.isUnary = false)
    (h : settle offset pending stack = .ok stack') : stackItems stack' = stackItems stack := by
  rcases settle_cases h with rfl | ⟨left, op, right, below, rfl, -, op', right', hnull,
    hdefect, hattach⟩
  · rfl
  · cases op with
    | none => cases hnull
    | some op =>
      rw [items_attach hattach, items_nullTest (hop _ _ _ _ rfl) hdefect hnull, stackItems, items]

/-- A connective comes between what it joins. -/
theorem items_joined (op : Connective) (last : Condition) :
    stackItems (joined op last) = last.items ++ [.operator op.operator] := by
  unfold joined
  split
  · simp [stackItems, items, Condition.items, Condition.sideItems]
  · simp [stackItems, items]

end Frame

namespace OpenCall

/-- The items of the calls that are open, the outermost first. -/
def allItems : List OpenCall → List Item
  | [] => []
  | call :: outer =>
    allItems outer ++ .name call.name ::
      (Operand.allItems call.args ++ Operand.sideItems call.current ++ call.pending.items)

theorem items_finished {call : OpenCall} {args : List Operand} (h : call.finished? = some args) :
    Operand.allItems args = Operand.allItems call.args ++ Operand.sideItems call.current := by
  unfold finished? at h
  split at h
  · next hcurrent =>
    cases h
    rw [hcurrent, Operand.allItems_append, Operand.allItems_singleton]
    rfl
  · next hcurrent hargs =>
    cases h
    rw [hcurrent, hargs]
    rfl
  · cases h

end OpenCall

namespace Builder

/-- The items of a state, from left to right. -/
def items (b : Builder) : List Item :=
  Frame.stackItems b.base ++ b.pending.items ++ OpenCall.allItems b.calls

/-! ## The innermost container -/

/-- What is known of the innermost container: a comparison has no right side before it has an
operator, its operator needs one, and an operator waits only where an operand is read. -/
structure Regular (b : Builder) : Prop where
  leftFirst : LeftFirst b.stack
  comparator : ∀ left c right below, b.stack = .comparison left (some c) right :: below →
    c.isUnary = false
  binary : b.pending.binary ≠ none → ∃ frame below,
    b.stack = frame :: below ∧ frame.holdsOperand = true

section Regular

variable {b b' : Builder} {t : Token} {ts : List Token}

theorem Regular.fill (h : b.Regular) (o : Operand) : (b.fill o).Regular := by
  obtain ⟨stack, previous, held, calls, pending, expectsValue⟩ := b
  cases calls with
  | cons call outer => exact ⟨h.leftFirst, h.comparator, h.binary⟩
  | nil =>
    refine ⟨leftFirst_fill h.leftFirst o, ?_, ?_⟩
    · intro left c right below hstack
      induction stack using stack_cases with
      | comparison left' op right' below' =>
        cases op with
        | none => cases hstack
        | some op =>
          cases hstack
          exact h.comparator _ _ _ _ rfl
      | _ => cases hstack
    · intro _
      induction stack using stack_cases with
      | comparison left op right below => cases op <;> exact ⟨_, _, rfl, rfl⟩
      | _ => exact ⟨_, _, rfl, rfl⟩

/-- An operator that is taken in between operands is taken in where an operand is read. -/
theorem Regular.wait {op : Operator} {p : Pending} (h : b.Regular)
    (hp : b.waiting.push b.expectsOperand op = .ok p) : (b.wait p).Regular := by
  obtain ⟨stack, previous, held, calls, pending, expectsValue⟩ := b
  cases calls with
  | cons call outer => exact ⟨h.leftFirst, h.comparator, h.binary⟩
  | nil =>
    have hsign : pending.push true op = .ok p → p.binary ≠ none → pending.binary ≠ none := by
      intro hp hne
      rwa [(Pending.push_true_eq_ok hp).2.1] at hne
    refine ⟨leftFirst_wait h.leftFirst p, ?_, ?_⟩
    · intro left c right below hstack
      induction stack using stack_cases with
      | nil => cases hstack
      | _ => exact h.comparator _ _ _ _ hstack
    · intro hbinary
      induction stack using stack_cases with
      | nil =>
        obtain ⟨_, _, hstack, -⟩ := h.binary (hsign hp hbinary)
        cases hstack
      | group children below => exact h.binary (hsign hp hbinary)
      | logical op left below => exact h.binary (hsign hp hbinary)
      | comparison left op right below => exact ⟨_, _, rfl, rfl⟩
      | set left op values below => exact ⟨_, _, rfl, rfl⟩

/-- No operator waits once a comparison has been closed. -/
theorem Regular.binary_of_settle {offset : Nat} {children : List Condition} {below : List Frame}
    (h : b.Regular)
    (hsettle : Frame.settle offset b.pending b.base = .ok (.group children :: below)) :
    b.pending.binary = none := by
  by_cases hidle : b.pending = .idle
  · rw [hidle]
    rfl
  · have hbase := Frame.settle_of_waiting hidle hsettle
    cases hbinary : b.pending.binary with
    | none => rfl
    | some op =>
      obtain ⟨frame, rest, hstack, hholds⟩ := h.binary (by simp [hbinary])
      rw [base_of_stack hstack] at hbase
      cases hbase
      cases hholds

theorem regular_of_move (hb : b.Regular) (h : Move b t b') : b'.Regular := by
  have hleft := leftFirst_of_move hb.leftFirst h
  have hkind := Role.kind_of_ofToken t
  have hidle : ∀ {b : Builder}, b.pending = .idle → b.pending.binary ≠ none →
      ∃ frame below, b.stack = frame :: below ∧ frame.holdsOperand = true :=
    fun hidle hbinary => absurd (congrArg Pending.binary hidle) hbinary
  cases h with
  | hold | argument => exact ⟨hleft, hb.comparator, hb.binary⟩
  | value => exact ⟨hleft, hb.comparator, hb.binary⟩
  | operand => exact hb.fill _
  | closeCall =>
    have houter : ∀ {calls}, ({ b with calls := calls } : Builder).Regular :=
      ⟨hb.leftFirst, hb.comparator, hb.binary⟩
    exact houter.fill _
  | math _ hp => exact hb.wait hp
  | compare hrole _ _ hpending =>
    rw [hrole] at hkind
    refine ⟨hleft, ?_, fun _ => ⟨_, _, rfl, rfl⟩⟩
    intro _ _ _ _ hstack
    cases hstack
    exact hkind.1
  | connective _ _ hsettle =>
    refine ⟨hleft, ?_, fun hbinary => absurd (hb.binary_of_settle hsettle) hbinary⟩
    intro _ _ _ _ hstack
    obtain ⟨_, _, _, hjoined⟩ := Frame.joined_eq_cons _ _
    dsimp only at hstack
    rw [hjoined] at hstack
    cases hstack
  | openGroup _ _ _ _ hpending =>
    exact ⟨hleft, fun _ _ _ _ hstack => (by cases hstack), hidle hpending⟩
  | closeGroup _ _ hsettle _ _ hattach =>
    obtain ⟨-, _, _, _, rfl⟩ := Frame.attach_eq_ok hattach
    refine ⟨hleft, ?_, fun hbinary => absurd (hb.binary_of_settle hsettle) hbinary⟩
    exact fun _ _ _ _ hstack => by cases hstack
  | openSet => exact ⟨hleft, fun _ _ _ _ hstack => (by cases hstack), fun _ => ⟨_, _, rfl, rfl⟩⟩
  | closeSet _ _ _ hpending _ _ hattach =>
    obtain ⟨-, _, _, _, rfl⟩ := Frame.attach_eq_ok hattach
    exact ⟨hleft, fun _ _ _ _ hstack => (by cases hstack), hidle hpending⟩

theorem regular_of_release (hb : b.Regular) (h : b.release = .ok b') : b'.Regular := by
  rcases release_eq_ok.1 h with ⟨-, rfl⟩ | ⟨word, x, -, -, -, rfl⟩
  · exact hb
  · have hforget : b.forgetHeld.Regular := ⟨hb.leftFirst, hb.comparator, hb.binary⟩
    exact hforget.fill x

theorem regular_of_feedAll (h : empty.feedAll ts = .ok b) : b.Regular := by
  have hempty : empty.Regular :=
    ⟨fun _ _ _ h => (by cases h), fun _ _ _ _ h => (by cases h), fun h => absurd rfl h⟩
  refine feedAll_induction (motive := fun b _ => b.Regular) hempty ?_ h
  intro b b' ts t _ hfeed hb
  cases feed_iff.1 hfeed with
  | call => exact ⟨hb.leftFirst, hb.comparator, hb.binary⟩
  | move _ hrelease hmove =>
    obtain ⟨hleft, hcomparator, hbinary⟩ := regular_of_move (regular_of_release hb hrelease) hmove
    exact ⟨hleft, hcomparator, hbinary⟩

end Regular

/-! ## Places -/

/-- What the tokens before say of a state: which delimiters are open, and whether an operand has to
come. -/
structure Placed (b : Builder) (p : Token.Place) : Prop where
  calls : ∃ openers, b.openers = openers ++ [.group] ∧ p.calls = openers.map (· == .call)
  expects : b.held = none → b.expectsOperand = !p.operand

section Placed

variable {b b' : Builder} {t : Token} {ts : List Token} {p : Token.Place}

theorem expectsOperand_of_complete (hb : b.Complete) : b.expectsOperand = true := by
  obtain ⟨hcalls, c, children, below, hstack⟩ := hb
  simp [expectsOperand, hcalls, hstack]

/-- A group is opened only where an operand could start. -/
theorem expectsOperand_of_openParen (hheld : b.held = none) (ht : t.kind = .delimiter .openParen)
    (h : b.feed t = .ok b') : b.expectsOperand = true := by
  have hrole : Role.ofToken t = .openGroup := by rw [Role.ofToken, ht]
  obtain ⟨b₁, hmove, -⟩ := (feed_of_held_none hheld).1 h
  cases hmove with
  | hold hword => simp [isHeld, ht] at hword
  | openGroup _ hcalls hbase hframe =>
    obtain ⟨stack, previous, held, calls, pending, expectsValue⟩ := b
    obtain rfl : calls = [] := hcalls
    induction stack using stack_cases with
    | comparison | set =>
      cases hbase
      cases hframe
    | _ => rfl
  | operand _ hother | math hother | argument hother | closeCall hother | compare hother
  | connective hother
  | closeGroup hother | openSet hother | value hother | closeSet hother =>
    cases hrole.symm.trans hother

/-- After a token, an operand has to come just if the token does not end one. -/
theorem expectsOperand_of_move (hleft : LeftFirst b.stack)
    (hclose : ∀ d, t.kind = .delimiter d → d.isOpen = false →
      (p.calls.headD false = true ↔ ¬ b'.Complete))
    (h : Move b t b') (hheld : b'.held = none) : b'.expectsOperand = !(p.next t).operand := by
  have hkind := Role.kind_of_ofToken t
  -- what a closing delimiter leaves depends on what it closes
  have hclosed : ∀ d, t.kind = .delimiter d → d.isOpen = false → b'.Complete →
      b'.expectsOperand = !(p.next t).operand := by
    intro d ht hd hcomplete
    have hhead : p.calls.headD false = false :=
      Bool.eq_false_iff.2 fun htrue => (hclose d ht hd).1 htrue hcomplete
    rw [expectsOperand_of_complete hcomplete, Token.next_close ht hd, hhead]
    rfl
  cases h with
  | hold => cases hheld
  | operand _ hrole =>
    rw [hrole] at hkind
    rw [expectsOperand_fill, Token.Place.next]
    rcases hkind with hkind | hkind <;> rw [hkind] <;> rfl
  | math hrole hp =>
    rw [hrole] at hkind
    rw [Token.Place.next, hkind.1]
    exact (asks_of_push hp).2
  | argument hrole =>
    rw [hrole] at hkind
    rw [Token.Place.next, hkind]
    rfl
  | closeCall hrole =>
    rw [hrole] at hkind
    have hhead := (hclose _ hkind rfl).2 (not_complete_fill _ _)
    rw [expectsOperand_fill, Token.next_close hkind rfl, hhead]
    rfl
  | compare hrole hcalls hstack =>
    rw [hrole] at hkind
    obtain ⟨-, op, hop, -⟩ := hkind
    -- before its operator a comparison has no right side
    cases hleft _ _ _ hstack
    rw [Token.Place.next, hop]
    simp [expectsOperand, hcalls]
  | @connective op _ last _ hrole hcalls =>
    rw [hrole] at hkind
    obtain ⟨_, hop, -⟩ := hkind
    obtain ⟨_, _, _, hjoined⟩ := Frame.joined_eq_cons op last
    rw [Token.Place.next, hop]
    simp [expectsOperand, hcalls, hjoined]
  | openGroup hrole hcalls =>
    rw [hrole] at hkind
    rw [Token.next_open hkind rfl]
    simp [expectsOperand, hcalls]
  | closeGroup hrole hcalls _ _ _ hattach =>
    rw [hrole] at hkind
    exact hclosed _ hkind rfl (complete_of_attach hcalls hattach)
  | @openSet range _ _ _ _ hrole hcalls =>
    rw [hrole] at hkind
    rw [Token.next_open hkind (by cases range <;> rfl)]
    simp [expectsOperand, hcalls]
  | value hrole hcalls hstack =>
    rw [hrole] at hkind
    rw [Token.Place.next, hkind]
    simp [expectsOperand, hcalls, hstack]
  | @closeSet _ op _ _ _ hrole hcalls _ _ _ _ hattach =>
    rw [hrole] at hkind
    exact hclosed _ hkind (by cases op <;> rfl) (complete_of_attach hcalls hattach)

/-- The word that is held is the last token. -/
theorem exists_of_held {word : Token} (h : empty.feedAll ts = .ok b) (hheld : b.held = some word) :
    ∃ init, ts = init ++ [word] ∧ word.kind = .word := by
  rw [held_of_feedAll h] at hheld
  obtain ⟨hlast, hword⟩ := Option.filter_eq_some_iff.1 hheld
  obtain ⟨init, hinit⟩ := List.getLast?_eq_some_iff.1 hlast
  exact ⟨init, hinit, eq_of_beq ((Bool.and_eq_true _ _).mp hword).1⟩

/-- After the held word has been delivered, an operand has been read, as its token says. -/
theorem Placed.released (hb : b.Placed (Token.place ts)) (hts : empty.feedAll ts = .ok b)
    (h : b.release = .ok b') : b'.expectsOperand = !(Token.place ts).operand := by
  rcases release_eq_ok.1 h with ⟨hnone, rfl⟩ | ⟨word, x, hword, -, -, rfl⟩
  · exact hb.expects hnone
  · obtain ⟨init, rfl, hkind⟩ := exists_of_held hts hword
    rw [expectsOperand_fill, Token.place_concat, Token.next_word hkind]
    rfl

/-- A parenthesis that does not follow a held word does not follow any word. -/
theorem Placed.word_eq_false (hb : b.Placed (Token.place ts)) (hheld : b.held = none)
    (ht : t.kind = .delimiter .openParen) (h : b.feed t = .ok b') :
    (Token.place ts).word = false := by
  refine Bool.eq_false_iff.2 fun hword => ?_
  have hexpects := hb.expects hheld
  rw [Token.operand_of_word hword, expectsOperand_of_openParen hheld ht h] at hexpects
  cases hexpects

/-- Openers are shifted as the tokens say. -/
theorem Placed.calls_next (hb : b.Placed (Token.place ts)) (hts : empty.feedAll ts = .ok b)
    (h : b.feed t = .ok b') :
    ∃ openers, b'.openers = openers ++ [.group] ∧
      ((Token.place ts).next t).calls = openers.map (· == .call) := by
  obtain ⟨openers, hopeners, hcalls⟩ := hb.calls
  cases shift_of_feed h with
  | keep ht hkeep =>
    exact ⟨openers, hkeep.trans hopeners, (Token.calls_next_of_plain ht).trans hcalls⟩
  | «open» o ht hopen hcall =>
    refine ⟨o :: openers, hopen.trans (congrArg (o :: ·) hopeners), ?_⟩
    have hhead : ((Token.place ts).word && o.delimiter == .openParen) = (o == .call) := by
      cases hheld : b.held with
      | none =>
        have hne : o ≠ .call := fun ho => absurd hheld (hcall.1 ho).1
        rw [beq_false_of_ne hne]
        by_cases hparen : o.delimiter = .openParen
        · rw [hb.word_eq_false hheld (hparen ▸ ht) h]
          rfl
        · rw [beq_false_of_ne hparen, Bool.and_false]
      | some word =>
        obtain ⟨init, rfl, hkind⟩ := exists_of_held hts hheld
        have hiff : o = .call ↔ o.delimiter = .openParen := by
          rw [hcall, ht, hheld, Token.Kind.delimiter.injEq]
          exact and_iff_right (Option.some_ne_none word)
        rw [Token.place_concat, Token.next_word hkind, Bool.true_and]
        exact decide_eq_decide.2 hiff.symm
    rw [Token.next_open ht o.isOpen_delimiter, hhead, hcalls]
    rfl
  | close o ht hclose hgroup =>
    have heq := hclose.symm.trans hopeners
    cases openers with
    | nil =>
      obtain ⟨ho, hnil⟩ := List.cons.inj heq
      exact absurd hnil (hgroup ho)
    | cons o' openers =>
      obtain ⟨rfl, htail⟩ := List.cons.inj heq
      refine ⟨openers, htail, ?_⟩
      rw [Token.next_close ht (Delimiter.isOpen_closing _), hcalls]
      rfl

theorem placed_of_feedAll (h : empty.feedAll ts = .ok b) : b.Placed (Token.place ts) := by
  refine feedAll_induction (motive := fun b ts => b.Placed (Token.place ts))
    ⟨⟨[], rfl, rfl⟩, fun _ => rfl⟩ ?_ h
  intro b b' ts t hts hfeed hb
  rw [Token.place_concat]
  refine ⟨hb.calls_next hts hfeed, fun hnone => ?_⟩
  cases feed_iff.1 hfeed with
  | call _ hkind =>
    rw [Token.next_open hkind rfl]
    rfl
  | @move b₁ b₂ _ hrelease hmove =>
    have hleft := leftFirst_of_release (leftFirst_of_feedAll hts) hrelease
    have hclose : ∀ d, t.kind = .delimiter d → d.isOpen = false →
        ((Token.place ts).calls.headD false = true ↔ ¬ b₂.Complete) := by
      intro d ht hd
      -- the innermost opener is the one that is closed
      obtain ⟨o, -, hclose, hgroup, hcomplete⟩ := (shift_of_feed hfeed).closes ht hd
      obtain ⟨openers, hopeners, hcalls⟩ := hb.calls
      have heq := hclose.symm.trans hopeners
      cases openers with
      | nil =>
        obtain ⟨ho, hnil⟩ := List.cons.inj heq
        exact absurd hnil (hgroup ho)
      | cons o' openers =>
        obtain ⟨rfl, -⟩ := List.cons.inj heq
        have hcomplete : b₂.Complete ↔ o ≠ .call := hcomplete
        rw [hcalls, hcomplete, ne_eq, Decidable.not_not]
        exact beq_iff_eq
    have hmoved := expectsOperand_of_move hleft hclose hmove hnone
    exact hmoved

end Placed

/-! ## Items -/

section Items

variable {b b' : Builder} {t : Token} {ts : List Token} {p : Token.Place} {o x : Operand}

theorem items_of_calls (hcalls : b.calls = []) :
    b.items = Frame.stackItems b.base ++ b.pending.items := by
  rw [items, hcalls, OpenCall.allItems, List.append_nil]

theorem items_of_stack {stack : List Frame} {pending : Pending} {expectsValue : Bool}
    (hcalls : b.calls = []) (hne : stack ≠ []) :
    ({ b with stack := stack, pending := pending, expectsValue := expectsValue } : Builder).items =
      Frame.stackItems stack ++ pending.items := by
  rw [items, base_of_ne_nil (b := ⟨stack, b.previous, b.held, b.calls, pending, expectsValue⟩) hne]
  simp [hcalls, OpenCall.allItems]

/-- Where nothing is read of an operand, it comes after everything else. -/
theorem exists_items_of_none (hcalls : b.calls = []) (hcurrent : b.current = none)
    (hfill : ∀ o, b.fill o =
      { b with stack := .comparison o none none :: b.base, pending := .idle }) : ∃ before,
    (∀ o, (b.fill o).items = before ++ o.items) ∧
      ∀ pending, (b.wait pending).items = before ++ Operand.sideItems b.current ++
        pending.items := by
  refine ⟨Frame.stackItems b.base, fun o => ?_, fun pending => ?_⟩
  · rw [hfill, items_of_stack hcalls (List.cons_ne_nil _ _)]
    simp [Frame.stackItems, Frame.items, Operand.sideItems, Pending.items, Pending.idle]
  · have hwait : b.wait pending = { b with stack := b.base, pending := pending } := by
      unfold wait
      split
      · next hcalls' => exact absurd (hcalls'.symm.trans hcalls) (List.cons_ne_nil _ _)
      · rfl
    rw [hwait, items_of_stack hcalls (base_ne_nil b), hcurrent]
    simp [Operand.sideItems]

theorem items_wait_waiting : (b.wait b.waiting).items = b.items := by
  obtain ⟨stack, previous, held, calls, pending, expectsValue⟩ := b
  cases calls with
  | cons call outer => rfl
  | nil => induction stack using stack_cases <;> rfl

/-- What is read of an operand comes last, before the operator that waits for the rest of it. -/
theorem exists_items (hleft : LeftFirst b.stack) : ∃ before,
    (∀ o, (b.fill o).items = before ++ o.items) ∧
      ∀ pending, (b.wait pending).items = before ++ Operand.sideItems b.current ++
        pending.items := by
  obtain ⟨stack, previous, held, calls, pending, expectsValue⟩ := b
  cases calls with
  | cons call outer =>
    refine ⟨Frame.stackItems (base ⟨stack, previous, held, [], pending, expectsValue⟩) ++
      pending.items ++
      OpenCall.allItems outer ++ .name call.name :: Operand.allItems call.args,
      fun o => ?_, fun p => ?_⟩
    · simp [items, fill, OpenCall.allItems, Operand.sideItems, Pending.items, Pending.idle, base]
    · simp [items, wait, OpenCall.allItems, current, base]
  | nil =>
    induction stack using stack_cases with
    | comparison left op right below =>
      cases op with
      | none =>
        cases hleft left right below rfl
        refine ⟨Frame.stackItems below, fun o => ?_, fun p => ?_⟩
        · simp [items, fill, fillFrame, base, Frame.stackItems, Frame.items, OpenCall.allItems,
            Operand.sideItems, Pending.items, Pending.idle]
        · simp [items, wait, base, Frame.stackItems, Frame.items, OpenCall.allItems,
            Operand.sideItems, current, frameCurrent]
      | some op =>
        refine ⟨Frame.stackItems below ++ left.items, fun o => ?_, fun p => ?_⟩
        · simp [items, fill, fillFrame, base, Frame.stackItems, Frame.items, OpenCall.allItems,
            Operand.sideItems, Pending.items, Pending.idle]
        · simp [items, wait, base, Frame.stackItems, Frame.items, OpenCall.allItems, current,
            frameCurrent]
    | set left op values below =>
      refine ⟨Frame.stackItems below ++ left.items ++
        Operand.allItems (if expectsValue then values else values.dropLast),
        fun o => ?_, fun p => ?_⟩
      · simp [items, fill, fillFrame, base, Frame.stackItems, Frame.items, OpenCall.allItems,
          Operand.allItems_append, Operand.allItems_singleton, Pending.items, Pending.idle]
      · have hvalues : Operand.allItems values =
            Operand.allItems (if expectsValue then values else values.dropLast) ++
              Operand.sideItems (if expectsValue then none else values.getLast?) := by
          cases expectsValue with
          | true => simp [Operand.sideItems]
          | false =>
            rcases List.eq_nil_or_concat values with rfl | ⟨init, last, rfl⟩
            · rfl
            · simp [Operand.allItems_append, Operand.allItems_singleton, Operand.sideItems]
        simp [items, wait, base, Frame.stackItems, Frame.items, OpenCall.allItems, current,
          frameCurrent, hvalues]
    | _ => exact exists_items_of_none rfl rfl fun _ => rfl

/-- An operand that is joined to the one that is being read comes at the end. -/
theorem items_delivered (hleft : LeftFirst b.stack) (hx : b.waiting.combine b.current o = .ok x) :
    (b.fill x).items.map Item.unsigned = (b.items ++ o.items).map Item.unsigned := by
  obtain ⟨before, hfill, hwait⟩ := exists_items hleft
  have hitems : b.items = before ++ Operand.sideItems b.current ++ b.waiting.items := by
    rw [← hwait, items_wait_waiting]
  rw [hfill, hitems, List.map_append, Pending.items_combine hx]
  simp

theorem itemsAt_of_role (hrole : Role.ofToken t = .operand o) :
    Token.itemsAt p t none = o.items := by
  have hkind := Role.kind_of_ofToken t
  rw [hrole] at hkind
  rcases hkind with hkind | hkind
  · rw [Role.ofToken, hkind] at hrole
    cases hrole
    rw [Operand.items_ofWord, Token.itemsAt, hkind]
    rfl
  · rw [Role.ofToken, hkind] at hrole
    cases hrole
    rw [Token.itemsAt, hkind]
    rfl

/-- Where an operand has been read, no operator waits. -/
theorem binary_of_expectsOperand (h : b.expectsOperand = false) : b.waiting.binary = none := by
  obtain ⟨stack, previous, held, calls, pending, expectsValue⟩ := b
  cases calls with
  | cons call outer =>
    have h : (call.current.isNone || call.pending.binary.isSome) = false := h
    exact Option.not_isSome_iff_eq_none.1 (by simp [waiting, (Bool.or_eq_false_iff.1 h).2])
  | nil =>
    induction stack using stack_cases with
    | comparison | set =>
      rw [expectsOperand, Bool.or_eq_false_iff] at h
      exact Option.not_isSome_iff_eq_none.1 (by simp [waiting, h.1])
    | _ => cases h

/-- An operator is taken in as a sign where an operand has to come, and between operands
otherwise. -/
theorem items_of_push {op : Operator} {pending : Pending} (hleft : LeftFirst b.stack)
    (hpush : b.waiting.push b.expectsOperand op = .ok pending) :
    (b.wait pending).items = b.items ++ if b.expectsOperand then [] else [.operator op] := by
  obtain ⟨before, -, hwait⟩ := exists_items hleft
  rw [← b.items_wait_waiting, hwait, hwait]
  cases hexpects : b.expectsOperand with
  | true =>
    rw [hexpects] at hpush
    rw [Pending.items, (Pending.push_true_eq_ok hpush).2.1, if_pos rfl, List.append_nil]
    rfl
  | false =>
    rw [hexpects] at hpush
    obtain ⟨binary, hbinary, hop⟩ := Pending.push_false_eq_ok hpush
    have hnone : b.waiting.items = [] := by
      rw [Pending.items, binary_of_expectsOperand hexpects]; rfl
    rw [hnone, Pending.items, hbinary, if_neg Bool.false_ne_true,
      List.append_nil, ← BinaryOp.operator_of_ofOperator? hop]
    rfl

theorem items_of_settle {offset : Nat} {stack : List Frame} (hb : b.Regular) (hcalls : b.calls = [])
    (h : Frame.settle offset b.pending b.base = .ok stack) :
    b.items = Frame.stackItems stack ++ b.pending.items := by
  have hcomparator : ∀ left c right below, b.base = .comparison left (some c) right :: below →
      c.isUnary = false := by
    intro left c right below hbase
    refine hb.comparator left c right below ?_
    unfold base at hbase
    split at hbase
    · cases hbase
    · exact hbase
  rw [items_of_calls hcalls, Frame.items_settle hcomparator h]

theorem Regular.items_pending {offset : Nat} {children : List Condition} {below : List Frame}
    (hb : b.Regular) (h : Frame.settle offset b.pending b.base = .ok (.group children :: below)) :
    b.pending.items = [] := by
  rw [Pending.items, hb.binary_of_settle h]
  rfl

theorem kind_of_logical {op : Connective} (hrole : Role.ofToken t = .logical op) :
    t.kind = .operator op.operator := by
  have hkind := Role.kind_of_ofToken t
  rw [hrole] at hkind
  obtain ⟨operator, hkind, hlogical⟩ := hkind
  rw [Role.ofToken, hkind] at hrole
  cases operator <;> cases hlogical <;> cases hrole <;> exact hkind

/-- **Items.** A token that is taken in adds what it is at its place. -/
theorem items_of_move (hb : b.Regular) (hexpects : b.expectsOperand = !p.operand)
    (ht : isHeld t = false) (h : Move b t b') :
    b'.items.map Item.unsigned = (b.items ++ Token.itemsAt p t none).map Item.unsigned := by
  have hkind := Role.kind_of_ofToken t
  have hnothing : (∀ op, t.kind = .operator op → op.isComparison = true) → t.kind ≠ .word →
      t.kind ≠ .quoted →
      b'.items = b.items →
      b'.items.map Item.unsigned = (b.items ++ Token.itemsAt p t none).map Item.unsigned := by
    intro hop hword hquoted hitems
    have hat : Token.itemsAt p t none = [] := Token.itemsAt_eq_nil hop hword hquoted
    rw [hat, List.append_nil, hitems]
  cases h with
  | hold hheld => exact absurd (hheld.symm.trans ht) (by decide)
  | operand _ hrole _ hx =>
    rw [items_delivered hb.leftFirst hx, itemsAt_of_role hrole]
  | math hrole hp =>
    rw [hrole] at hkind
    obtain ⟨hkind, hop⟩ := hkind
    rw [items_of_push hb.leftFirst hp, Token.itemsAt_of_isMath hkind hop, hexpects]
    cases p.operand <;> rfl
  | argument hrole hcalls hidle harg =>
    rw [hrole] at hkind
    refine hnothing (by simp [hkind]) (by simp [hkind]) (by simp [hkind]) ?_
    simp [items, base, hcalls, OpenCall.allItems, Operand.allItems_append,
      Operand.allItems_singleton, harg, Operand.sideItems]
  | @closeCall call outer args x hrole hcalls hidle hargs _ hx =>
    rw [hrole] at hkind
    have hat : Token.itemsAt p t none = [] :=
      Token.itemsAt_eq_nil (by simp [hkind]) (by simp [hkind]) (by simp [hkind])
    have hitems : b.items = ({ b with calls := outer } : Builder).items ++
        (Operand.call call.name args).items := by
      rw [Operand.items, OpenCall.items_finished hargs]
      simp [items, base, hcalls, OpenCall.allItems, hidle, Pending.items, Pending.idle]
    have hleft : LeftFirst ({ b with calls := outer } : Builder).stack := hb.leftFirst
    rw [items_delivered hleft hx, hat, hitems, List.append_nil]
  | compare hrole hcalls hstack =>
    rw [hrole] at hkind
    obtain ⟨-, op, hop, hcomparator⟩ := hkind
    have hcomparison : op.isComparison = true := by cases op <;> first | rfl | cases hcomparator
    refine hnothing ?_ (by simp [hop]) (by simp [hop]) ?_
    · intro op' hop'
      cases hop.symm.trans hop'
      exact hcomparison
    · rw [items, items, base_of_stack hstack]
      rfl
  | @connective op children last below hrole hcalls hsettle =>
    have hitems := items_of_settle hb hcalls hsettle
    have hat : Token.itemsAt p t none = [.operator op.operator] :=
      Token.itemsAt_of_isLogical (kind_of_logical hrole) op.isLogical_operator
    rw [items_of_stack hcalls (by simp), hat, hitems, Frame.stackItems_append, Frame.items_joined,
      hb.items_pending hsettle]
    simp [Frame.stackItems, Frame.items, Condition.allItems_append, Condition.allItems_singleton]
  | openGroup hrole hcalls =>
    rw [hrole] at hkind
    refine hnothing (by simp [hkind]) (by simp [hkind]) (by simp [hkind]) ?_
    rw [items_of_stack hcalls (List.cons_ne_nil _ _), items_of_calls hcalls]
    simp [Frame.stackItems, Frame.items, Condition.allItems]
  | closeGroup hrole hcalls hsettle _ _ hattach =>
    rw [hrole] at hkind
    refine hnothing (by simp [hkind]) (by simp [hkind]) (by simp [hkind]) ?_
    rw [items_of_stack hcalls (Frame.attach_ne_nil hattach), Frame.items_attach hattach,
      items_of_settle hb hcalls hsettle, hb.items_pending hsettle]
    simp [Frame.stackItems, Frame.items, Condition.items]
  | openSet hrole hcalls hstack =>
    rw [hrole] at hkind
    refine hnothing (by simp [hkind]) (by simp [hkind]) (by simp [hkind]) ?_
    rw [items_of_stack hcalls (List.cons_ne_nil _ _), items_of_calls hcalls, base_of_stack hstack]
    rfl
  | value hrole =>
    rw [hrole] at hkind
    exact hnothing (by simp [hkind]) (by simp [hkind]) (by simp [hkind]) rfl
  | closeSet hrole hcalls hset _ _ _ hattach =>
    rw [hrole] at hkind
    refine hnothing (by simp [hkind]) (by simp [hkind]) (by simp [hkind]) ?_
    rw [items_of_stack hcalls (Frame.attach_ne_nil hattach), Frame.items_attach hattach,
      items_of_calls hcalls, base_of_stack hset]
    rfl

theorem items_of_release (hb : b.Regular) (h : b.release = .ok b') :
    b'.items.map Item.unsigned =
      (b.items ++ (b.held.toList.map fun word => Item.operand (.ofWord word.text))).map
        Item.unsigned := by
  rcases release_eq_ok.1 h with ⟨hnone, rfl⟩ | ⟨word, x, hword, -, hx, rfl⟩
  · rw [hnone]
    simp
  · have hleft : LeftFirst b.forgetHeld.stack := hb.leftFirst
    have hforget : b.forgetHeld.items = b.items := rfl
    have hx : b.forgetHeld.waiting.combine b.forgetHeld.current (.ofWord word.text) = .ok x := hx
    rw [items_delivered hleft hx, hforget, Operand.items_ofWord, hword]
    rfl

/-- The held word is an operand once it is known that it names no call. -/
theorem items_released {init : List Token} (hts : empty.feedAll ts = .ok b)
    (hinit : ts = init ++ b.held.toList)
    (hitems : b.items.map Item.unsigned = (Token.items init).map Item.unsigned)
    (hrelease : b.release = .ok b') :
    b'.items.map Item.unsigned = (Token.items ts).map Item.unsigned := by
  rw [items_of_release (regular_of_feedAll hts) hrelease, List.map_append, hitems, hinit]
  cases hheld : b.held with
  | none => simp
  | some word =>
    obtain ⟨-, -, hword⟩ := exists_of_held hts hheld
    have hplain : word.kind ≠ .delimiter .openParen ∨ (Token.place init).word = false :=
      .inl (by simp [hword])
    have hat : Token.itemsAt (Token.place init) word none = [.operand (.ofWord word.text)] := by
      rw [Token.itemsAt, hword]
      rfl
    rw [Option.toList_some, Token.items_concat hplain, List.map_append, hat]
    rfl

theorem eq_of_isHeld (ht : isHeld t = true) (h : Move b t b') : b' = { b with held := some t } := by
  have hfeed := feedPlain_iff_move.2 h
  rw [feedPlain, if_pos ht] at hfeed
  exact (Except.ok.inj hfeed).symm

/-- The items of a state are those of the tokens before it, the held word aside. -/
theorem items_of_feedAll (h : empty.feedAll ts = .ok b) :
    ∃ init, ts = init ++ b.held.toList ∧
      b.items.map Item.unsigned = (Token.items init).map Item.unsigned := by
  refine feedAll_induction (motive := fun b ts => ∃ init, ts = init ++ b.held.toList ∧
    b.items.map Item.unsigned = (Token.items init).map Item.unsigned) ⟨[], rfl, rfl⟩ ?_ h
  rintro b b' ts t hts hfeed ⟨init, hinit, hitems⟩
  have hplaced := placed_of_feedAll hts
  have hregular := regular_of_feedAll hts
  cases feed_iff.1 hfeed with
  | @call name hheld hkind =>
    rw [hheld] at hinit
    obtain ⟨-, -, hname⟩ := exists_of_held hts hheld
    refine ⟨ts ++ [t], (List.append_nil _).symm, ?_⟩
    have hcall : (Token.items (ts ++ [t])) = Token.items init ++ [.name name.text] := by
      rw [hinit]
      exact Token.items_call hname hkind
    rw [hcall, List.map_append, ← hitems]
    simp [items, forgetHeld, base, OpenCall.allItems, Operand.allItems, Operand.sideItems,
      Pending.items, Pending.idle]
  | @move b₁ b₂ hplain hrelease hmove =>
    have hreleased := items_released hts hinit hitems hrelease
    cases hword : isHeld t with
    | true =>
      cases eq_of_isHeld hword hmove
      exact ⟨ts, rfl, hreleased⟩
    | false =>
      have hplain : t.kind ≠ .delimiter .openParen ∨ (Token.place ts).word = false := by
        by_cases ht : t.kind = .delimiter .openParen
        · exact .inr (hplaced.word_eq_false (hplain.resolve_right (not_not_intro ht)) ht hfeed)
        · exact .inl ht
      have hmoved :=
        items_of_move (regular_of_release hregular hrelease)
          (hplaced.released hts hrelease) hword hmove
      refine ⟨ts ++ [t], ?_, ?_⟩
      · have hheld : b₂.held = none := (held_of_feed hfeed).trans (by rw [hword]; rfl)
        show ts ++ [t] = ts ++ [t] ++ b₂.held.toList
        rw [hheld]
        exact (List.append_nil _).symm
      · rw [Token.items_concat hplain, List.map_append, ← hreleased, ← List.map_append]
        exact hmoved

end Items

end Builder

namespace Condition

theorem map_items_of_ofTokens {ts : List Token} {c : Condition} (h : ofTokens ts = .ok c) :
    c.items.map Item.unsigned = (Token.items ts).map Item.unsigned := by
  obtain ⟨b, hfeed, hfinish⟩ := Builder.ofTokens_eq_ok.1 h
  obtain ⟨b₁, children, hrelease, hcalls, hsettle, -, rfl⟩ := Builder.finish_eq_ok.1 hfinish
  obtain ⟨init, hinit, hread⟩ := Builder.items_of_feedAll hfeed
  have hregular := Builder.regular_of_release (Builder.regular_of_feedAll hfeed) hrelease
  have hitems : b₁.items = (group children true).items := by
    rw [Builder.items_of_settle hregular hcalls hsettle, hregular.items_pending hsettle, items]
    simp [Frame.stackItems, Frame.items]
  rw [← hitems]
  exact Builder.items_released hfeed hinit hread hrelease

/-- **Nothing is lost.** A condition says from left to right what its tokens say, the signs of
numbers aside: the same operands and names, the same connectives, and the operators that stand
between operands. Its variables are the words that are variables and name no call. -/
theorem items_of_ofTokens {ts : List Token} {c : Condition} (h : ofTokens ts = .ok c) :
    c.items.map Item.unsigned = (Token.items ts).map Item.unsigned ∧
      c.items.filterMap Item.connective? = ts.filterMap Token.connective? ∧
      c.variableNames = Token.variableNames ts := by
  have hall := map_items_of_ofTokens h
  refine ⟨hall, ?_, ?_⟩
  · rw [Item.filterMap_connective?_congr hall, Token.filterMap_connective?_items]
  · rw [variableNames_eq, Item.filterMap_varName?_congr hall, Token.filterMap_varName?_items]

end Condition

/-- The tokens of `f(a, -2 * b) + 1 > c - d || x != null && y = {1, "s"}`. -/
def Token.interleaved : List Token :=
  [.word "f" 0, .delimiter .openParen 1, .word "a" 2, .separator 3, .operator .sub 5, .word "2" 6,
    .operator .mul 8, .word "b" 10, .delimiter .closeParen 11, .operator .add 13, .word "1" 15,
    .operator .gt 17, .word "c" 19, .operator .sub 21, .word "d" 23, .operator .or 25, .word "x" 28,
    .operator .ne 30, .word "null" 33, .operator .and 38, .word "y" 41, .operator .eq 43,
    .delimiter .openBrace 45, .word "1" 46, .separator 47, ⟨.quoted, "s", 49, 3⟩,
    .delimiter .closeBrace 52]

theorem Condition.items_of_interleaved :
    ∃ c, ofTokens Token.interleaved = .ok c ∧
      c.items.map Item.unsigned =
        ([.name "f", .operand (.var "a"), .operand (.ofWord "2"), .operator .mul,
        .operand (.var "b"), .operator .add, .operand (.ofWord "1"), .operand (.var "c"),
        .operator .sub, .operand (.var "d"), .operator .or, .operand (.var "x"), .operand .null,
        .operator .and, .operand (.var "y"), .operand (.ofWord "1"),
        .operand (.quoted "s")] : List Item).map Item.unsigned ∧
      c.items.filterMap Item.connective? = [.or, .and] ∧
      c.variableNames = ["a", "b", "c", "d", "x", "y"] := by
  have h : ofTokens Token.interleaved = .ok (.group [.logical .or
      (some (.comparison
        (.binary (.call "f" [.var "a", .binary (Operand.ofWord "2").negate .mul (.var "b")]) .add
          (.ofWord "1")) (some .gt) (some (.binary (.var "c") .sub (.var "d")))))
      (some (.logical .and (some (.comparison (.var "x") (some .notNull) none))
        (some (.set (.var "y") .member [.ofWord "1", .quoted "s"] true)) true)) true] true) := rfl
  obtain ⟨hitems, hconnectives, hvariables⟩ := items_of_ofTokens h
  exact ⟨_, h, hitems, hconnectives, hvariables⟩

end GuardedFlow
