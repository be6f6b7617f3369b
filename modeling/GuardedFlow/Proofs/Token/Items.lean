import GuardedFlow.Condition.Builder.Basic
import GuardedFlow.Proofs.Condition.Items

/-!
# What tokens say from left to right

`Token.items` reads off a list of tokens which operands, names and operators stand in it, by looking
at the tokens next to each: a word in front of an opening parenthesis is a name, and an arithmetic
operator stands between two operands only if it directly follows a word, a quoted text or the
closing parenthesis of a call. What has to be known of the tokens before a place is kept in a
`Token.Place`.
-/

namespace GuardedFlow.Token

/-- What the tokens before a place say about it. -/
structure Place where
  /-- The token before is a word. -/
  word : Bool
  /-- The token before is a word, a quoted text or the closing parenthesis of a call. -/
  operand : Bool
  /-- For each delimiter that is open, the innermost first, whether it opens the arguments of a
  call. -/
  calls : List Bool
deriving DecidableEq, Repr

namespace Place

def start : Place := ⟨false, false, []⟩

/-- The place after one more token. A parenthesis opens the arguments of a call if it directly
follows a word. -/
def next (p : Place) (t : Token) : Place :=
  match t.kind with
  | .word => ⟨true, true, p.calls⟩
  | .quoted => ⟨false, true, p.calls⟩
  | .delimiter d =>
    if d.isOpen then ⟨false, false, (p.word && d == .openParen) :: p.calls⟩
    else ⟨false, p.calls.headD false, p.calls.tail⟩
  | _ => ⟨false, false, p.calls⟩

end Place

/-- The place after a list of tokens. -/
def place (ts : List Token) : Place := ts.foldl Place.next .start

/-- What a token is at a place, with the token that comes after it. -/
def itemsAt (p : Place) (t : Token) (after : Option Token) : List Item :=
  match t.kind with
  | .word =>
    if after.any (·.kind == .delimiter .openParen) then [.name t.text]
      else [.operand (.ofWord t.text)]
  | .quoted => [.operand (.quoted t.text)]
  | .operator op => if op.isLogical || (op.isMath && p.operand) then [.operator op] else []
  | _ => []

def itemsFrom (p : Place) : List Token → List Item
  | [] => []
  | t :: rest => itemsAt p t rest.head? ++ itemsFrom (p.next t) rest

/-- The operands, names and operators of a list of tokens, in order. -/
def items (ts : List Token) : List Item := itemsFrom .start ts

/-- The words that are variables and name no call, in order. -/
def variableNames : List Token → List String
  | [] => []
  | t :: rest =>
    if t.kind == .word && (Operand.ofWord t.text).isVariable && !rest.head?.any
      (·.kind == .delimiter .openParen) then
      t.text :: variableNames rest
    else variableNames rest

def connective? (t : Token) : Option Connective := t.operator?.bind Connective.ofOperator?

variable {p : Place} {t : Token} {ts us : List Token}

theorem place_concat (ts : List Token) (t : Token) : place (ts ++ [t]) = (place ts).next t :=
  List.foldl_append

/-- A word ends an operand. -/
theorem operand_of_word (h : (place ts).word = true) : (place ts).operand = true := by
  rcases List.eq_nil_or_concat ts with rfl | ⟨init, last, rfl⟩
  · cases h
  · rw [List.concat_eq_append, place_concat] at h ⊢
    unfold Place.next at h ⊢
    split at h
    · rfl
    · cases h
    · split at h <;> cases h
    · cases h

theorem next_word (ht : t.kind = .word) : p.next t = ⟨true, true, p.calls⟩ := by
  rw [Place.next, ht]

theorem next_open {d : Delimiter} (ht : t.kind = .delimiter d) (hd : d.isOpen = true) :
    p.next t = ⟨false, false, (p.word && d == .openParen) :: p.calls⟩ := by
  rw [Place.next, ht]
  exact if_pos hd

theorem next_close {d : Delimiter} (ht : t.kind = .delimiter d) (hd : d.isOpen = false) :
    p.next t = ⟨false, p.calls.headD false, p.calls.tail⟩ := by
  rw [Place.next, ht]
  exact if_neg (by simp [hd])

theorem calls_next_of_plain (ht : ∀ d, t.kind ≠ .delimiter d) : (p.next t).calls = p.calls := by
  unfold Place.next
  split
  · rfl
  · rfl
  · next d hd => exact absurd hd (ht d)
  · rfl

theorem itemsAt_eq_nil (hop : ∀ op, t.kind = .operator op → op.isComparison = true)
    (hword : t.kind ≠ .word) (hquoted : t.kind ≠ .quoted) {after : Option Token} :
    itemsAt p t after = [] := by
  unfold itemsAt
  split
  · next ht => exact absurd ht hword
  · next ht => exact absurd ht hquoted
  · next op ht =>
    have hcomparison := hop op ht
    cases op <;> first | rfl | cases hcomparison
  · rfl

theorem itemsAt_of_isMath {op : Operator} {after : Option Token} (ht : t.kind = .operator op)
    (hop : op.isMath = true) :
    itemsAt p t after = if p.operand then [.operator op] else [] := by
  have hlogical : op.isLogical = false := by cases op <;> first | rfl | cases hop
  rw [itemsAt, ht]
  simp [hop, hlogical]

theorem itemsAt_of_isLogical {op : Operator} {after : Option Token} (ht : t.kind = .operator op)
    (hop : op.isLogical = true) : itemsAt p t after = [.operator op] := by
  rw [itemsAt, ht]
  simp [hop]

/-- What comes after a token matters to words only, and to them only if it is a parenthesis. -/
theorem itemsAt_of_plain {u : Token}
    (h : u.kind ≠ .delimiter .openParen ∨ (p.next t).word = false) :
    itemsAt p t (some u) = itemsAt p t none := by
  unfold itemsAt
  split
  · next ht =>
    rcases h with h | h
    · simp [h]
    · rw [next_word ht] at h
      cases h
  all_goals rfl

/-- Tokens can be read in two parts, if a word is not cut off from the parenthesis after it. -/
theorem itemsFrom_append (h : ∀ u ∈ us.head?, u.kind ≠ .delimiter .openParen ∨
    (ts.foldl Place.next p).word = false) :
    itemsFrom p (ts ++ us) = itemsFrom p ts ++ itemsFrom (ts.foldl Place.next p) us := by
  induction ts generalizing p with
  | nil => rfl
  | cons t rest ih =>
    have hafter : itemsAt p t (rest ++ us).head? = itemsAt p t rest.head? := by
      cases rest with
      | cons t' rest => rfl
      | nil =>
        cases us with
        | nil => rfl
        | cons u us => exact itemsAt_of_plain (h u rfl)
    rw [List.cons_append, itemsFrom, itemsFrom, hafter, ih h, List.append_assoc, List.foldl_cons]

theorem items_concat (h : t.kind ≠ .delimiter .openParen ∨ (place ts).word = false) :
    items (ts ++ [t]) = items ts ++ itemsAt (place ts) t none := by
  have hhead : ∀ u ∈ [t].head?, u.kind ≠ .delimiter .openParen ∨ (place ts).word = false := by
    intro u hu
    cases hu
    exact h
  rw [items, itemsFrom_append hhead, itemsFrom, itemsFrom, List.append_nil]
  rfl

/-- A word in front of a parenthesis is a name. -/
theorem items_call {name opening : Token} (hname : name.kind = .word)
    (hopening : opening.kind = .delimiter .openParen) :
    items (ts ++ [name] ++ [opening]) = items ts ++ [.name name.text] := by
  have hhead : ∀ u ∈ [name, opening].head?, u.kind ≠ .delimiter .openParen ∨
      (place ts).word = false := by
    intro u hu
    cases hu
    exact .inl (by simp [hname])
  rw [List.append_assoc, List.singleton_append, items, itemsFrom_append hhead]
  simp [itemsFrom, itemsAt, hname, hopening, items]

theorem filterMap_varName?_items (ts : List Token) :
    (items ts).filterMap Item.varName? = variableNames ts := by
  have key : ∀ (ts : List Token) (p : Place),
      (itemsFrom p ts).filterMap Item.varName? = variableNames ts := by
    intro ts
    induction ts with
    | nil => exact fun _ => rfl
    | cons t rest ih =>
      intro p
      rw [itemsFrom, List.filterMap_append, ih, variableNames, itemsAt]
      split
      · next ht =>
        cases hnext : rest.head?.any (·.kind == .delimiter .openParen) with
        | true => simp [Item.varName?]
        | false =>
          rcases Operand.ofWord_cases t.text with ho | ⟨b, ho⟩ | ⟨x, ho⟩ | ho
          all_goals simp [ht, ho, Item.varName?, Operand.isVariable]
      · next ht => simp [ht, Item.varName?, Operand.quoted]
      · next op ht =>
        split <;> simp [ht, Item.varName?]
      · next hword _ _ =>
        have hkind : (t.kind == .word) = false := beq_false_of_ne hword
        simp [hkind]
  exact key ts .start

theorem filterMap_connective?_items (ts : List Token) :
    (items ts).filterMap Item.connective? = ts.filterMap connective? := by
  have key : ∀ (ts : List Token) (p : Place),
      (itemsFrom p ts).filterMap Item.connective? = ts.filterMap connective? := by
    intro ts
    induction ts with
    | nil => exact fun _ => rfl
    | cons t rest ih =>
      intro p
      rw [itemsFrom, List.filterMap_append, ih, List.filterMap_cons, connective?,
        operator?, itemsAt]
      split
      · next ht =>
        split <;> simp [ht, Item.connective?]
      · next ht => simp [ht, Item.connective?]
      · next op ht =>
        cases op <;> cases p.operand <;>
          simp [ht, Item.connective?, Connective.ofOperator?, Operator.isLogical, Operator.isMath,
            Operator.isComparison]
      · next hoperator =>
        cases hkind : t.kind with
        | operator op => exact absurd hkind (hoperator op)
        | _ => simp
  exact key ts .start

end GuardedFlow.Token
