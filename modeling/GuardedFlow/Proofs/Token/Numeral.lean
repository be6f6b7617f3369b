import GuardedFlow.Proofs.Builder.Completeness
import GuardedFlow.Proofs.Number.Notation
import GuardedFlow.Proofs.Token.Spaced

/-!
# Numerals

A text that stands for a number is one word of an expression as long as there is no sign in it. The
sign of an exponent is an operator like any other sign, and cuts the numeral in three
(`Token.tokenize_numeral`).
-/

namespace GuardedFlow

namespace Number

theorem isAlpha_of_toLower {c : Char} (h : c.toLower.isAlpha = true) : c.isAlpha = true := by
  unfold Char.toLower at h
  split at h
  · next hupper => exact Bool.or_eq_true_iff.2 (.inl (decide_eq_true hupper))
  · exact h

/-- The numbers that are not finite have names. -/
theorem isAlpha_of_parseName? {negative : Bool} {s : List Char} {x : Number}
    (h : parseName? negative s = some x) :
    s.head?.any Char.isAlpha = true := by
  have hname : ∀ name : String, name.toList.head?.any Char.isAlpha = true →
      String.ofList (s.map Char.toLower) = name →
      s.head?.any Char.isAlpha = true := by
    rintro name halpha rfl
    rw [String.toList_ofList, List.head?_map] at halpha
    cases s with
    | nil => cases halpha
    | cons c rest => exact isAlpha_of_toLower halpha
  unfold parseName? at h
  dsimp only at h
  split at h
  · next hnan => exact hname _ (by decide) hnan
  · split at h
    · next hinf => exact hinf.elim (hname _ (by decide)) (hname _ (by decide))
    · cases h

/-- A number that starts with neither a sign nor a letter is in decimal notation. -/
theorem notation_of_parse? {s : String} {x : Number} (h : parse? s = some x)
    (hminus : s.toList.head? ≠ some '-') (hplus : s.toList.head? ≠ some '+')
    (halpha : ¬ s.toList.head?.any Char.isAlpha = true) :
    Decimal.Notation s.toList := by
  have hunsigned : parseUnsigned? false s.toList = some x := by
    unfold parse? at h
    split at h
    · next r hs => exact absurd (congrArg List.head? hs) hminus
    · next r hs => exact absurd (congrArg List.head? hs) hplus
    · exact h
  unfold parseUnsigned? at hunsigned
  split at hunsigned
  · next d hd => exact Decimal.notation_of_parse? hd
  · exact absurd (isAlpha_of_parseName? hunsigned) halpha

end Number

theorem Operand.notation_of_ofWord {s : String} {x : Number} (h : ofWord s = .literal (.number x))
    (hminus : s.toList.head? ≠ some '-') (hplus : s.toList.head? ≠ some '+') :
    Decimal.Notation s.toList := by
  unfold ofWord at h
  split at h
  · cases h
  · split at h
    · cases h
    · split at h
      · cases h
      · split at h
        · next y hy =>
          split at h
          · cases h
          · next halpha => exact Number.notation_of_parse? hy hminus hplus halpha
        · cases h

namespace Token

variable {m s digits : List Char}

theorem plain_of_digits (h : Decimal.Digits digits) : ∀ c ∈ digits, endsWord c = false ∧ c ≠ '!' :=
  fun c hc => endsWord_of_isDigit (h.all c hc)

theorem plain_of_mantissa (h : Decimal.Mantissa m) : ∀ c ∈ m, endsWord c = false ∧ c ≠ '!' := by
  intro c hc
  rcases h.all c hc with hdigit | rfl
  · exact endsWord_of_isDigit hdigit
  · decide

theorem plain_of_letter {e : Char} (he : e = 'e' ∨ e = 'E') : endsWord e = false ∧ e ≠ '!' := by
  rcases he with rfl | rfl <;> decide

/-- A numeral with a sign in it: the sign stands between the letter of the exponent and its
digits. -/
structure Signed (s w : List Char) (op : Operator) (digits : List Char) : Prop where
  split : s = w ++ (op.symbol.toList ++ digits)
  letter : ∃ m e, w = m ++ [e] ∧ Decimal.Mantissa m ∧ (e = 'e' ∨ e = 'E')
  sign : op = .sub ∨ op = .add
  digits : Decimal.Digits digits

theorem Signed.word_left {w : List Char} {op : Operator} (h : Signed s w op digits) : Word w := by
  obtain ⟨m, e, rfl, hm, he⟩ := h.letter
  refine word_of_forall (List.append_ne_nil_of_left_ne_nil hm.ne_nil _)
    (List.forall_mem_append.2 ⟨plain_of_mantissa hm, ?_⟩)
  exact List.forall_mem_singleton.2 (plain_of_letter he)

theorem Signed.word_right {w : List Char} {op : Operator} (h : Signed s w op digits) :
    Word digits :=
  word_of_forall h.digits.ne_nil (plain_of_digits h.digits)

/-- A numeral has no sign in it, or one in its exponent. -/
theorem word_or_signed (h : Decimal.Notation s) :
    (Word s ∧ '-' ∉ s ∧ '+' ∉ s) ∨ ∃ w op digits, Signed s w op digits := by
  have hunsigned : ∀ {s : List Char}, s ≠ [] → (∀ c ∈ s, endsWord c = false ∧ c ≠ '!') →
      Word s ∧ '-' ∉ s ∧ '+' ∉ s :=
    fun hne hplain => ⟨word_of_forall hne hplain, fun hmem => absurd (hplain _ hmem).1 (by decide),
      fun hmem => absurd (hplain _ hmem).1 (by decide)⟩
  obtain @⟨m, rest, hm, hrest⟩ := h
  cases hrest with
  | nil =>
    rw [List.append_nil]
    exact .inl (hunsigned hm.ne_nil (plain_of_mantissa hm))
  | @exponent sign digits e he hsign hdigits =>
    rw [List.append_cons]
    rcases hsign with rfl | rfl | rfl
    · have hne : m ++ [e] ++ digits ≠ [] :=
        List.append_ne_nil_of_left_ne_nil (List.append_ne_nil_of_left_ne_nil hm.ne_nil _) _
      refine .inl (hunsigned hne ?_)
      exact List.forall_mem_append.2 ⟨List.forall_mem_append.2 ⟨plain_of_mantissa hm,
        List.forall_mem_singleton.2 (plain_of_letter he)⟩, plain_of_digits hdigits⟩
    · exact .inr ⟨_, .sub, digits, rfl, ⟨m, e, rfl, hm, he⟩, .inl rfl, hdigits⟩
    · exact .inr ⟨_, .add, digits, rfl, ⟨m, e, rfl, hm, he⟩, .inr rfl, hdigits⟩

/-- A numeral with a sign in it is cut in three. -/
theorem Signed.scan_eq {w : List Char} {op : Operator} (h : Signed s w op digits) :
    scan 0 s = .ok [word (String.ofList w) 0, operator op (Text.byteLength w),
      word (String.ofList digits) (Text.byteLength w + 1)] := by
  have hat : operatorAt? (op.symbol.toList ++ digits) = some op := by
    rcases h.sign with rfl | rfl <;> rfl
  have hapart : Apart (op.symbol.toList ++ digits) := by
    rcases h.sign with rfl | rfl <;> exact apart_cons (by decide) (by decide) digits
  have hsize : op.symbol.utf8ByteSize = 1 := by rcases h.sign with rfl | rfl <;> rfl
  have hlast := (first_of_word h.word_right (Text.byteLength w + 1)).scan_last
  rw [h.split, scan_word h.word_left hapart, Nat.zero_add, Text.utf8ByteSize_ofList,
    scan_operator hat, hsize, hlast]
  rfl

theorem tokenize_comparison {v s : String} (hv : Word v.toList) (hs : Word s.toList) :
    tokenize (v ++ " = " ++ s) =
    .ok [word v 0, operator .eq (v.utf8ByteSize + 1), word s (v.utf8ByteSize + 3)] := by
  have htext : (v ++ " = " ++ s).toList =
      v.toList ++ (' ' :: (Operator.eq.symbol.toList ++ (' ' :: s.toList))) := by
    rw [String.toList_append, String.toList_append, List.append_assoc]
    rfl
  rw [tokenize, htext, scan_word hv (apart_cons (by decide) (by decide) _), scan_blank rfl,
    scan_operator rfl, scan_blank rfl, (first_of_word hs _).scan_last, String.ofList_toList,
    String.ofList_toList, Nat.zero_add]
  rfl

/-- A comparison of two words is read as that of what they stand for. -/
theorem parse_comparison {v s : String} (hv : Word v.toList) (hs : Word s.toList)
    (hvariable : (Operand.ofWord v).mentionsVariable = true) (hnull : Operand.ofWord s ≠ .null) :
    Condition.parse (v ++ " = " ++ s) =
      .ok (.group [.comparison (.ofWord v) (some .eq) (some (.ofWord s))] true) := by
  have hword : ∀ (u : String) (offset : Nat), Grammar.Arithmetic [word u offset] (.ofWord u) :=
    fun u offset =>
    (Grammar.Chain.one (.primary (.word rfl))).arithmetic
  have hatom := Grammar.Atom.comparison (t := operator .eq (v.utf8ByteSize + 1)) (hword v 0) rfl rfl
    (hword s (v.utf8ByteSize + 3)) hvariable fun h => absurd h hnull
  have hread :=
    (Grammar.Disjunction.conjunction (.atom hatom)).delivers Builder.empty
      Builder.start_empty ⟨[], rfl⟩
  rw [Condition.parse, tokenize_comparison hv hs]
  exact hread.ofTokens_eq

/-- **Numerals.** A text that starts with no sign and stands for a number is one word of an
expression, and a comparison with it is one with that number, if there is no sign in it; otherwise
it is two words and the sign between them. -/
theorem tokenize_numeral {s : String} {x : Number} (hx : Operand.ofWord s = .literal (.number x))
    (hminus : s.toList.head? ≠ some '-') (hplus : s.toList.head? ≠ some '+') :
    ('-' ∉ s.toList → '+' ∉ s.toList →
      tokenize s = .ok [word s 0] ∧ ∀ v, Word v.toList → Operand.ofWord v = .var v →
        Condition.parse (v ++ " = " ++ s) =
          .ok (.group [.comparison (.var v) (some .eq) (some (.literal (.number x)))] true)) ∧
    ('-' ∈ s.toList ∨ '+' ∈ s.toList → ∃ w op digits, Signed s.toList w op digits ∧
      tokenize s = .ok [word (String.ofList w) 0, operator op (Text.byteLength w),
        word (String.ofList digits) (Text.byteLength w + 1)]) := by
  rcases word_or_signed (Operand.notation_of_ofWord hx hminus hplus) with ⟨hw, hnone⟩ | ⟨w, op,
    digits, hsigned⟩
  · refine ⟨fun _ _ => ⟨tokenize_of_word hw, fun v hv hvariable => ?_⟩,
      fun hsome => absurd hsome (not_or.2 hnone)⟩
    have hread :=
      parse_comparison hv hw (by rw [hvariable]; rfl) (by rw [hx]; exact Operand.noConfusion)
    rwa [hvariable, hx] at hread
  · refine ⟨fun hno hno' => ?_, fun _ => ⟨w, op, digits, hsigned, hsigned.scan_eq⟩⟩
    rw [hsigned.split] at hno hno'
    rcases hsigned.sign with rfl | rfl
    · exact absurd (List.mem_append_right w List.mem_cons_self) hno
    · exact absurd (List.mem_append_right w List.mem_cons_self) hno'

theorem tokenize_numeral_exponents :
    (∃ x, Operand.ofWord "2.5E3" = .literal (.number x) ∧ tokenize "2.5E3" = .ok [word "2.5E3" 0] ∧
      Condition.parse "x = 2.5E3" =
        .ok (.group [.comparison (.var "x") (some .eq) (some (.literal (.number x)))] true)) ∧
    ∃ w op digits, Signed "1e-5".toList w op digits ∧
      tokenize "1e-5" = .ok [word (String.ofList w) 0, operator op (Text.byteLength w),
        word (String.ofList digits) (Text.byteLength w + 1)] := by
  obtain ⟨x, hx⟩ : ∃ x, Operand.ofWord "2.5E3" = .literal (.number x) := ⟨_, rfl⟩
  obtain ⟨y, hy⟩ : ∃ y, Operand.ofWord "1e-5" = .literal (.number y) := ⟨_, rfl⟩
  obtain ⟨htokens, hread⟩ := (tokenize_numeral hx (by decide) (by decide)).1 (by decide) (by decide)
  exact ⟨⟨x, hx, htokens, hread "x" ⟨by decide, by decide⟩ rfl⟩,
    (tokenize_numeral hy (by decide) (by decide)).2 (.inl (by decide))⟩

/-- A number with a signed exponent is not one word. -/
theorem not_tokenize_numeral_whole : ¬ ∀ (s : String) (x : Number),
    Operand.ofWord s = .literal (.number x) →
    s.toList.head? ≠ some '-' → s.toList.head? ≠ some '+' → ∃ t, tokenize s = .ok [t] ∧
      t.kind = .word ∧ t.text = s := by
  intro h
  obtain ⟨t, ht, -⟩ := h "1e-5" _ rfl (by decide) (by decide)
  have hthree : (tokenize "1e-5").toOption.map List.length = some 3 := by decide +kernel
  rw [ht] at hthree
  cases hthree

end Token

end GuardedFlow
