import GuardedFlow.Proofs.Builder.Moves
import GuardedFlow.Proofs.Token.Lossless

/-!
# Where errors are

An error names the byte at which the token starts that was being placed (`SyntaxError.Blames`). A
token is placed when it is fed, or, if it is a word that may name a call, with the token after it.
So an error in a list of tokens names the start of a token before which everything was taken, or the
end of the last one (`Condition.at_of_ofTokens`).
-/

namespace GuardedFlow

/-- An error of a list of tokens: a problem at the given byte, or a defect of a condition, which has
no place. -/
inductive SyntaxError.At (offset : Nat) : SyntaxError → Prop where
  | structural (problem : Problem) : At offset (.structural problem offset)
  | defect (d : Condition.Defect) : At offset (.defect d)

/-- A computation whose error, if it ends in one, is at the given byte. -/
structure SyntaxError.Blames {α : Type} (offset : Nat) (x : Except SyntaxError α) : Prop where
  at_of_eq_error : ∀ e, x = .error e → e.At offset

open SyntaxError (At Blames)

section Results

variable {α β : Type} {offset : Nat}

theorem blames_ok (a : α) : Blames offset (.ok a) := ⟨nofun⟩

theorem blames_defect (d : Condition.Defect) :
    Blames offset (.error (.defect d) : Except SyntaxError α) := by
  refine ⟨fun _ h => ?_⟩
  cases h
  exact .defect d

theorem blames_structural (problem : Problem) :
    Blames offset (.error (.structural problem offset) : Except SyntaxError α) := by
  refine ⟨fun _ h => ?_⟩
  cases h
  exact .structural problem

theorem blames_fail (problem : Problem) :
    Blames offset (Builder.fail offset problem : Except SyntaxError α) :=
  blames_structural problem

theorem blames_bind {x : Except SyntaxError α} {f : α → Except SyntaxError β} (hx : Blames offset x)
    (hf : ∀ a, Blames offset (f a)) : Blames offset (x >>= f) := by
  refine ⟨fun e h => ?_⟩
  rcases bind_eq_error.1 h with h | ⟨a, -, h⟩
  · exact hx.at_of_eq_error e h
  · exact (hf a).at_of_eq_error e h

theorem blames_locate (x : Except Problem α) : Blames offset (Builder.locate offset x) := by
  cases x with
  | ok a => exact blames_ok a
  | error problem => exact blames_fail problem

theorem blames_requireIdle (pending : Pending) :
    Blames offset (Builder.requireIdle pending offset) := by
  unfold Builder.requireIdle
  split
  · exact blames_fail _
  · exact blames_ok _

end Results

namespace Frame

theorem blames_attach (offset : Nat) (c : Condition) (stack : List Frame) :
    Blames offset (attach offset c stack) := by
  induction stack generalizing c with
  | nil => exact blames_structural _
  | cons frame below ih =>
    cases frame with
    | group children => exact blames_ok _
    | logical op left => exact ih _
    | comparison | set => exact blames_structural _

theorem blames_settle (offset : Nat) (pending : Pending) (stack : List Frame) :
    Blames offset (settle offset pending stack) := by
  unfold settle
  split
  · split
    · exact blames_structural _
    · split
      · exact blames_structural _
      · split
        · exact blames_structural _
        · split
          · exact blames_defect _
          · exact blames_attach ..
  · exact blames_ok _

end Frame

namespace Builder

section Tokens

variable (b : Builder) (role : Role) (text : String) (offset : Nat) (below : List Frame)

/-! ## Tokens in the innermost container -/

theorem blames_openComparison (o : Operand) : Blames offset (b.openComparison offset o) :=
  blames_bind (blames_locate _) fun _ => blames_ok _

theorem blames_openGroup : Blames offset (b.openGroup offset) := by
  unfold openGroup
  split
  · exact blames_ok _
  · exact blames_fail _

theorem blames_pushMath (expectsOperand : Bool) (op : Operator) :
    Blames offset (b.pushMath offset expectsOperand op) :=
  blames_bind (blames_locate _) fun _ => blames_ok _

theorem blames_joinWith (children : List Condition) (op : Connective) :
    Blames offset (b.joinWith offset children below op) := by
  unfold joinWith
  split
  · exact blames_fail _
  · split <;> exact blames_ok _

theorem blames_takeConnective (op : Connective) : Blames offset (b.takeConnective offset op) := by
  unfold takeConnective
  split
  · exact blames_joinWith ..
  · exact blames_fail _

theorem blames_placeInGroup (children : List Condition) :
    Blames offset (b.placeInGroup role text offset children below) := by
  unfold placeInGroup
  cases role with
  | operand o =>
    dsimp only
    split
    · exact blames_openComparison ..
    · exact blames_fail _
  | openGroup =>
    dsimp only
    split
    · exact blames_openGroup ..
    · exact blames_fail _
  | math op => exact blames_pushMath ..
  | logical op => exact blames_takeConnective ..
  | closeGroup =>
    dsimp only
    split
    · exact blames_fail _
    · split
      · exact blames_defect _
      · exact blames_bind (Frame.blames_attach ..) fun _ => blames_ok _
  | compare | openSet | closeSet | separator => exact blames_fail _

theorem blames_placeInLogical (frame : Frame) :
    Blames offset (b.placeInLogical role text offset frame) := by
  unfold placeInLogical
  cases role with
  | operand o => exact blames_openComparison ..
  | openGroup => exact blames_openGroup ..
  | math op => exact blames_pushMath ..
  | _ => exact blames_fail _

variable (left : Operand)

theorem blames_extendComparison (op : Option Comparator) (right : Option Operand) (o : Operand) :
    Blames offset (b.extendComparison offset left op right below o) :=
  blames_bind (blames_locate _) fun _ => blames_ok _

theorem blames_takeOperand (o : Operand) : Blames offset (b.takeOperand offset o) := by
  unfold takeOperand
  split
  · exact blames_extendComparison ..
  · exact blames_fail _

theorem blames_takeComparator (comparator : Comparator) :
    Blames offset (b.takeComparator offset comparator) := by
  refine blames_bind (blames_requireIdle _) fun _ => ?_
  split
  · split
    · exact blames_fail _
    · exact blames_ok _
  · exact blames_fail _

theorem blames_openSet (right : Option Operand) (range : Bool) :
    Blames offset (b.openSet offset left right below range) := by
  unfold openSet
  dsimp only
  split
  · exact blames_fail _
  · refine blames_bind (blames_requireIdle _) fun _ => ?_
    split
    · exact blames_fail _
    · exact blames_ok _

theorem blames_placeInComparison (op : Option Comparator) (right : Option Operand) :
    Blames offset (b.placeInComparison role text offset left op right below) := by
  unfold placeInComparison
  cases role with
  | operand o => exact blames_takeOperand ..
  | compare comparator => exact blames_takeComparator ..
  | math op => exact blames_pushMath ..
  | openSet range => exact blames_openSet ..
  | _ => exact blames_fail _

variable (op : SetOperator) (values : List Operand)

theorem blames_addValue (o : Operand) : Blames offset (b.addValue offset left op values below o) :=
  blames_bind (blames_locate _) fun _ => blames_ok _

theorem blames_takeValue (o : Operand) : Blames offset (b.takeValue offset o) := by
  unfold takeValue
  split
  · exact blames_addValue ..
  · exact blames_fail _

theorem blames_closeSet (d : Delimiter) :
    Blames offset (b.closeSet offset left op values below d) := by
  refine blames_bind (blames_requireIdle _) fun _ => ?_
  dsimp only
  split
  · exact blames_fail _
  · split
    · exact blames_fail _
    · split
      · exact blames_defect _
      · exact blames_bind (Frame.blames_attach ..) fun _ => blames_ok _

theorem blames_takeClosing (d : Delimiter) : Blames offset (b.takeClosing offset d) := by
  unfold takeClosing
  split
  · exact blames_closeSet ..
  · exact blames_bind (blames_requireIdle _) fun _ => blames_fail _

theorem blames_placeInSet : Blames offset (b.placeInSet role text offset left op values) := by
  unfold placeInSet
  cases role with
  | operand o => exact blames_takeValue ..
  | math op => exact blames_pushMath ..
  | separator =>
    dsimp only
    split
    · exact blames_fail _
    · exact blames_bind (blames_requireIdle _) fun _ => blames_ok _
  | closeSet d => exact blames_takeClosing ..
  | _ => exact blames_fail _

theorem blames_placeInnermost : Blames offset (b.placeInnermost role text offset) := by
  unfold placeInnermost
  split
  · exact blames_fail _
  · exact blames_placeInGroup ..
  · exact blames_placeInLogical ..
  · exact blames_placeInComparison ..
  · exact blames_placeInSet ..

theorem blames_place : Blames offset (b.place role text offset) := by
  unfold place
  cases role.endsComparison with
  | false => exact blames_placeInnermost { b with stack := b.base } role text offset
  | true =>
    exact blames_bind (Frame.blames_settle ..) fun stack =>
      blames_placeInnermost { b with stack := stack } role text offset

/-! ## Calls -/

theorem blames_deliver (o : Operand) : Blames offset (b.deliver offset o) := by
  unfold deliver
  split
  · exact blames_bind (blames_locate _) fun _ => blames_ok _
  · exact blames_place ..

theorem blames_openCall (name : Token) : Blames name.offset (b.openCall name) := by
  unfold openCall
  split
  · exact blames_fail _
  · dsimp only
    split
    · exact blames_fail _
    · exact blames_ok _

theorem blames_placeInCall (call : OpenCall) (outer : List OpenCall) (t : Token) :
    Blames t.offset (b.placeInCall call outer t) := by
  unfold placeInCall
  cases Role.ofToken t with
  | operand o => exact blames_deliver ..
  | math op => exact blames_bind (blames_locate _) fun _ => blames_ok _
  | separator =>
    refine blames_bind (blames_requireIdle _) fun _ => ?_
    split
    · exact blames_ok _
    · exact blames_fail _
  | closeGroup =>
    refine blames_bind (blames_requireIdle _) fun _ => ?_
    dsimp only
    split
    · exact blames_deliver ..
    · exact blames_deliver ..
    · exact blames_fail _
  | _ => exact blames_fail _

theorem blames_feedPlain (t : Token) : Blames t.offset (b.feedPlain t) := by
  unfold feedPlain
  split
  · exact blames_ok _
  · split
    · exact blames_placeInCall ..
    · exact blames_place ..

end Tokens

/-! ## The whole input -/

variable {b : Builder} {t : Token} {ts : List Token} {stop : Nat} {e : SyntaxError}

/-- What is wrong with a word that was held back is at that word. -/
theorem held_of_release_eq_error (h : b.release = .error e) :
    ∃ word, b.held = some word ∧ e.At word.offset := by
  unfold release at h
  split at h
  · next word hheld => exact ⟨word, hheld, (blames_deliver ..).at_of_eq_error e h⟩
  · cases h

/-- What is wrong with a token is at that token, or at the word that was held back before it. -/
theorem at_of_feed (h : b.feed t = .error e) :
    e.At t.offset ∨ ∃ word, b.held = some word ∧ e.At word.offset := by
  rcases bind_eq_error.1 h with h | ⟨_, -, h⟩
  · unfold consume at h
    split at h
    · next name hheld _ => exact .inr ⟨name, hheld, (blames_openCall ..).at_of_eq_error e h⟩
    · rcases bind_eq_error.1 h with h | ⟨released, -, h⟩
      · exact .inr (held_of_release_eq_error h)
      · exact .inl ((blames_feedPlain ..).at_of_eq_error e h)
  · cases h

theorem at_of_finish (h : b.finish stop = .error e) :
    e.At stop ∨ ∃ word, b.held = some word ∧ e.At word.offset := by
  rcases bind_eq_error.1 h with h | ⟨released, -, h⟩
  · exact .inr (held_of_release_eq_error h)
  · left
    split at h
    · exact (blames_fail _).at_of_eq_error e h
    · split at h
      · exact (blames_fail _).at_of_eq_error e h
      · refine (blames_bind (Frame.blames_settle ..) fun stack => ?_).at_of_eq_error e h
        split
        · split
          · exact blames_defect _
          · exact blames_ok _
        · exact blames_fail _
        · exact blames_fail _
        · exact blames_fail _

/-- The word that is held back is the last token, and the ones before it have been taken. -/
theorem split_of_held {word : Token} (h : empty.feedAll ts = .ok b) (hheld : b.held = some word) :
    ∃ before b', ts = before ++ [word] ∧ empty.feedAll before = .ok b' := by
  rw [held_of_feedAll h, Option.filter_eq_some_iff] at hheld
  obtain ⟨before, rfl⟩ := List.getLast?_eq_some_iff.1 hheld.1
  obtain ⟨b', hbefore, -⟩ := feedAll_append.1 h
  exact ⟨before, b', rfl, hbefore⟩

end Builder

namespace Condition

open Builder

/-- A token of a list starts at a byte, and the tokens before it are taken. -/
def Reached (ts : List Token) (place : Nat) : Prop :=
  ∃ before t after b, ts = before ++ t :: after ∧ t.offset = place ∧
    Builder.empty.feedAll before = .ok b

/-- What is wrong with a list of tokens is at one of them that was reached, or at the end. -/
theorem at_of_ofTokens {ts : List Token} {e : SyntaxError} (h : ofTokens ts = .error e) :
    (∃ place, Reached ts place ∧ e.At place) ∨ e.At (lastStop ts) := by
  rcases bind_eq_error.1 h with h | ⟨b, hfeed, h⟩
  · obtain ⟨before, t, after, b, rfl, hbefore, h⟩ := split_of_foldlM_eq_error h
    left
    rcases at_of_feed h with hat | ⟨word, hheld, hat⟩
    · exact ⟨t.offset, ⟨before, t, after, b, rfl, rfl, hbefore⟩, hat⟩
    · obtain ⟨earlier, b', rfl, hearlier⟩ := split_of_held hbefore hheld
      exact ⟨word.offset, ⟨earlier, word, t :: after, b', List.append_assoc .., rfl, hearlier⟩, hat⟩
  · rcases at_of_finish h with hat | ⟨word, hheld, hat⟩
    · exact .inr hat
    · obtain ⟨before, b', rfl, hbefore⟩ := split_of_held hfeed hheld
      exact .inl ⟨word.offset, ⟨before, word, [], b', rfl, rfl, hbefore⟩, hat⟩

end Condition

end GuardedFlow
