import GuardedFlow.Proofs.Builder.Grammar
import GuardedFlow.Proofs.Condition.Equality
import GuardedFlow.Proofs.Condition.Items
import GuardedFlow.Proofs.Number.Text
import GuardedFlow.Proofs.Token.Written

/-!
# Printed operands

The text of an operand in normal form writes tokens that derive an equal operand, as long as it
holds no arithmetic, which is printed with parentheses (`Operand.writes_text`). What its words,
numbers and texts have to be like for that is said of its items (`Printable`).
-/

namespace GuardedFlow

/-- What is printed as it is read: no arithmetic, which is printed with parentheses, finite numbers,
and texts without characters that are hidden by an escape. -/
def Item.isPlain : Item → Bool
  | operand (.literal (.number x)) => x.isFinite
  | operand (.literal (.string s)) => s.toList.all fun c => decide (Token.Quotable c)
  | operator op => !op.isMath
  | _ => true

/-- Items of what can be printed so that it is read back. -/
structure Printable (items : List Item) : Prop where
  plain : ∀ i ∈ items, i.isPlain = true
  /-- Names are words. -/
  word : ∀ name, Item.operand (.var name) ∈ items ∨ Item.name name ∈ items → Token.Word name.toList

theorem Printable.mono {items items' : List Item} (h : Printable items)
    (hsub : ∀ i ∈ items', i ∈ items) :
    Printable items' where
  plain i hi := h.plain i (hsub i hi)
  word name hname := h.word name (hname.imp (hsub _) (hsub _))

theorem BinaryOp.isMath_operator (op : BinaryOp) : op.operator.isMath = true := by
  cases op <;> rfl

/-! ## Numbers -/

namespace Token

theorem word_of_positional {w : List Char} (h : Decimal.Positional w) : Word w := by
  obtain ⟨c, rest, rfl, -⟩ := h.head
  refine word_of_forall (List.cons_ne_nil _ _) fun c hc => ?_
  rcases h.all c hc with hdigit | rfl
  · exact endsWord_of_isDigit hdigit
  · decide

end Token

/-- Finite numbers of the same count of units are equal. -/
theorem Number.equals_of_units {x y : Number} (hx : x.isFinite = true) (hy : y.isFinite = true)
    (h : x.units = y.units) :
    x.equals y = true := by
  cases x with
  | finite =>
    cases y with
    | finite =>
      rw [equals, order, h, Int.compare_eq_eq.2 rfl]
      rfl
    | _ => cases hy
  | _ => cases hx

theorem Number.units_of_isZero {x : Number} (h : x.isZero = true) : x.units = 0 := by
  cases x with
  | finite negative e f =>
    rw [isZero, Bool.and_eq_true, beq_iff_eq, beq_iff_eq] at h
    rw [units, magnitude, if_pos h.1, h.2]
    cases negative <;> rfl
  | _ => cases h

/-- Items with one more in front. -/
theorem Grammar.Items.cons {ts us : List Token} {t : Token} {o : Operand} {os : List Operand}
    (ho : Grammar.Arithmetic us o) (ht : t.kind = .separator) (h : Grammar.Items ts os) :
    Grammar.Items (us ++ t :: ts) (o :: os) := by
  cases h with
  | one h => exact .more (.one ho) ht h
  | more h ht' ho' =>
    have hitems := Grammar.Items.more (h.cons ho ht) ht' ho'
    rwa [List.append_assoc] at hitems
termination_by os.length
decreasing_by simp

namespace Operand

open Token Grammar

theorem writes_word_unary {w : List Char} (hw : Word w) :
    Writes w fun ts => Unary ts (ofWord (String.ofList w)) := by
  refine (writes_word hw).imp fun ts => ?_
  rintro ⟨offset, rfl⟩
  exact .primary (.word rfl)

theorem writes_number {x : Number} (hx : x.isFinite = true) :
    Writes x.text.toList fun ts => ∃ y : Number, x.equals y = true ∧
      Unary ts (.literal (.number y)) := by
  have hmagnitude : Writes x.magnitudeText fun ts => Unary ts (.literal (.number x.abs)) := by
    have hdenotes := Number.denotes_magnitudeText hx
    have hword := writes_word_unary (word_of_positional hdenotes.positional)
    rwa [ofWord_of_denotes hdenotes] at hword
  cases x with
  | finite negative e f =>
    have hself : (Number.finite negative e f).equals (.finite negative e f) = true :=
      Number.equals_of_units rfl rfl rfl
    cases negative with
    | false =>
      have htext : (Number.finite false e f).text.toList =
          (Number.finite false e f).magnitudeText := by
        simp [Number.text]
      rw [htext]
      exact hmagnitude.imp fun ts hts => ⟨_, hself, hts⟩
    | true =>
      cases hzero : (Number.finite true e f).isZero with
      | true =>
        have htext : (Number.finite true e f).text.toList =
            (Number.finite true e f).magnitudeText := by
          simp [Number.text, hzero]
        rw [htext]
        have hunits : (Number.finite false e f).units = 0 := Number.units_of_isZero hzero
        exact hmagnitude.imp fun ts hts =>
          ⟨_,
            Number.equals_of_units rfl rfl ((Number.units_of_isZero hzero).trans hunits.symm), hts⟩
      | false =>
        have htext : (Number.finite true e f).text.toList =
            Operator.sub.symbol.toList ++ (Number.finite true e f).magnitudeText := by
          simp [Number.text, hzero, Operator.symbol]
        rw [htext]
        refine (hmagnitude.after (leads_sign (.inl rfl))).imp fun ts => ?_
        rintro ⟨t, us, rfl, ht, hus⟩
        exact ⟨_, hself, .flip ht hus⟩
  | _ => cases hx

/-! ## Lists -/

theorem writes_commaText {os : List Operand} (hne : os ≠ [])
    (h : ∀ o ∈ os, Writes o.text.toList fun ts => ∃ o', o.equals o' = true ∧ Arithmetic ts o') :
    Writes (commaText os).toList fun ts => ∃ os', allEqual os os' = true ∧ Items ts os' := by
  induction os with
  | nil => exact absurd rfl hne
  | cons o rest ih =>
    obtain ⟨ho, hrest⟩ := List.forall_mem_cons.1 h
    cases rest with
    | nil =>
      refine ho.imp fun ts => ?_
      rintro ⟨o', hequals, hts⟩
      exact ⟨[o'], by rw [allEqual, hequals]; rfl, .one hts⟩
    | cons o₂ rest =>
      have htext : (commaText (o :: o₂ :: rest)).toList =
          o.text.toList ++ ([',', ' '] ++ (commaText (o₂ :: rest)).toList) := by
        rw [commaText, String.toList_append, String.toList_append, List.append_assoc]
        · rfl
        · nofun
      rw [htext]
      refine (ho.append ((ih (List.cons_ne_nil _ _) hrest).after leads_comma) fun after =>
        ?_).imp fun ts => ?_
      · exact apart_cons (by decide) (by decide) _
      · rintro ⟨us, _, rfl, ⟨o', ho', hus⟩, t, us', rfl, ht, os', hos', hus'⟩
        exact ⟨o' :: os', by rw [allEqual, ho', hos']; rfl, .cons hus ht hus'⟩

/-! ## Operands -/

theorem arithmetic_of_unary {ts : List Token} {o : Operand} (h : Unary ts o) : Arithmetic ts o :=
  (Chain.one h).arithmetic

theorem writes_arguments {args : List Operand}
    (h : ∀ a ∈ args, Writes a.text.toList fun ts => ∃ a', a.equals a' = true ∧ Unary ts a') :
    Writes (commaText args).toList fun ts => ∃ args', allEqual args args' = true ∧
      Arguments ts args' := by
  cases args with
  | nil => exact writes_nil.imp fun ts hts => ⟨[], rfl, hts ▸ .none⟩
  | cons a rest =>
    have hall : ∀ o ∈ a :: rest, Writes o.text.toList fun ts => ∃ o', o.equals o' = true ∧
        Arithmetic ts o' :=
      fun o ho => (h o ho).imp fun ts ⟨o', ho', hts⟩ => ⟨o', ho', arithmetic_of_unary hts⟩
    exact (writes_commaText (List.cons_ne_nil _ _) hall).imp fun ts ⟨args', hargs', hts⟩ =>
      ⟨args', hargs', .some hts⟩

theorem isHeld_word {name : String} {offset : Nat} (h : ofWord name = .var name) :
    Builder.isHeld (word name offset) = true := by
  simp [Builder.isHeld, word, h, isVariable]

theorem writes_text {o : Operand} (h : o.Normal) (hp : Printable o.items) :
    Writes o.text.toList fun ts => ∃ o', o.equals o' = true ∧ Unary ts o' := by
  have hkeyword : ∀ {w : String} {o : Operand}, Word w.toList → ofWord w = o → o.equals o = true →
      Writes w.toList fun ts => ∃ o', o.equals o' = true ∧ Unary ts o' := by
    intro w o hw ho hequals
    refine (writes_word_unary hw).imp fun ts hts => ⟨o, hequals, ?_⟩
    rwa [String.ofList_toList, ho] at hts
  induction h with
  | @var name hname =>
    exact hkeyword (hp.word name (.inl (List.mem_singleton_self _))) hname (by simp [equals])
  | bool b =>
    cases b with
    | false => exact hkeyword (w := "false") ⟨by decide, by decide⟩ rfl rfl
    | true => exact hkeyword (w := "true") ⟨by decide, by decide⟩ rfl rfl
  | number x =>
    refine (writes_number (hp.plain _ (List.mem_singleton_self _))).imp fun ts => ?_
    rintro ⟨y, hequals, hts⟩
    exact ⟨.literal (.number y), by rwa [equals, Value.equals], hts⟩
  | string s =>
    have htext : (text (.literal (.string s))).toList = Text.quoteChars s.toList :=
      String.toList_ofList
    rw [htext]
    have hquotable : ∀ c ∈ s.toList, Quotable c := fun c hc =>
      of_decide_eq_true (List.all_eq_true.1 (hp.plain _ (List.mem_singleton_self _)) c hc)
    refine (writes_quoted hquotable).imp fun ts => ?_
    rintro ⟨t, rfl, hkind, ht⟩
    refine ⟨.quoted t.text, ?_, .primary (.quoted hkind)⟩
    rw [ht, String.ofList_toList]
    simp [quoted, equals, Value.equals]
  | null => exact hkeyword (w := "null") ⟨by decide, by decide⟩ rfl rfl
  | @binary left right op =>
    have hplain := hp.plain (.operator op.operator) (by simp [items])
    rw [Item.isPlain, op.isMath_operator] at hplain
    cases hplain
  | @unary op o _ hsingle hnumber ih =>
    have hsign : ∃ sign : Operator, (sign = .sub ∨ sign = .bitNot) ∧ op.symbol = sign.symbol ∧
        ∀ t ts o', t.kind = .operator sign → o.equals o' = true → Unary ts o' →
          Unary (t :: ts) (.unary op o') := by
      cases op with
      | neg =>
        refine ⟨.sub, .inl rfl, rfl, fun t ts o' ht ho' hts => .neg ht hts ?_⟩
        rintro x rfl
        obtain ⟨y, rfl⟩ := eq_number_of_equals ho'
        exact hnumber rfl y rfl
      | bitNot => exact ⟨.bitNot, .inr rfl, rfl, fun t ts o' ht _ hts => .bitNot ht hts⟩
    obtain ⟨sign, hsign, hsymbol, hunary⟩ := hsign
    rw [text, hsymbol, String.toList_append]
    refine ((ih hp).after (leads_sign hsign)).imp fun ts => ?_
    rintro ⟨t, us, rfl, ht, o', ho', hus⟩
    exact ⟨.unary op o', by rw [equals, ho', beq_self_eq_true]; rfl, hunary t us o' ht ho' hus⟩
  | @call name args hname hargs ih =>
    have hitems : ∀ a ∈ args, ∀ i ∈ a.items, i ∈ (Operand.call name args).items := by
      intro a ha i hi
      rw [items]
      exact List.mem_cons_of_mem _ (mem_allItems ha i hi)
    have hwritten := writes_arguments fun a ha => ih a ha (hp.mono (hitems a ha))
    have hword : Word name.toList := hp.word name (.inr (by rw [items]; exact List.mem_cons_self))
    have htext : (text (.call name args)).toList =
        name.toList ++ ('(' :: ((commaText args).toList ++ [')'])) := by
      simp [text]
    rw [htext]
    refine ((writes_word hword).append (hwritten.enclosed .openParen .closeParen)
      fun after => apart_delimiter .openParen _).imp fun ts => ?_
    rintro ⟨_, _, rfl, ⟨offset, rfl⟩, t, us, t', rfl, ht, ⟨args', hequals, hus⟩, ht'⟩
    rw [String.ofList_toList]
    refine ⟨.call name args', by rw [equals, hequals, beq_self_eq_true]; rfl, .primary ?_⟩
    exact .call (isHeld_word hname) ht hus ht'

end Operand

end GuardedFlow
