import GuardedFlow.Proofs.Result
import GuardedFlow.Token.Lexer

/-!
# Scanning

What `Token.scan` does at the start of a text, one lemma for each kind of token, and what a word is
(`Token.Word`): it is taken whole wherever something follows that ends it (`Token.scan_word`).
-/

namespace GuardedFlow.Token

variable {offset : Nat} {c : Char} {s rest after w : List Char} {op : Operator} {d : Delimiter}
    {ts : List Token}

/-! ## Where words end -/

/-- Whether an operator starts with a character, whatever comes after it. -/
def isSymbol (c : Char) : Bool := "=><+-*/%&|^~".toList.contains c

/-- Whether a character is none of a word, whatever comes after it. -/
def endsWord (c : Char) : Bool :=
  Text.isBlank c || isQuote c || c == ',' || (Delimiter.ofChar? c).isSome || isSymbol c

/-- An operator is told by its first character, an exclamation mark by its second one. -/
theorem isSome_operatorAt? (c : Char) (rest : List Char) :
    (operatorAt? (c :: rest)).isSome = (isSymbol c || (c == '!' && rest.head? == some '=')) := by
  rw [Bool.eq_iff_iff]
  cases rest <;> simp [operatorAt?, Operator.longestFirst, Operator.symbol, isSymbol,
    List.isPrefixOf] <;> grind

theorem breaksWord_cons (c : Char) (rest : List Char) :
    breaksWord (c :: rest) = (endsWord c || (c == '!' && rest.head? == some '=')) := by
  rw [breaksWord, isSome_operatorAt?, endsWord, Bool.or_assoc]
  simp only [Bool.or_assoc]

/-- What a text has to start with to end the word before it, one with an exclamation mark at its end
included. -/
structure Apart (after : List Char) : Prop where
  breaks : breaksWord after = true
  head : after.head? ≠ some '='

theorem apart_nil : Apart [] := ⟨rfl, nofun⟩

theorem apart_cons (hc : endsWord c = true) (heq : c ≠ '=') (rest : List Char) :
    Apart (c :: rest) := by
  refine ⟨?_, ?_⟩
  · rw [breaksWord_cons, hc]
    rfl
  · rw [List.head?_cons]
    exact fun h => heq (Option.some.inj h)

theorem ofChar?_char (d : Delimiter) : Delimiter.ofChar? d.char = some d := by
  cases d <;> decide

theorem apart_delimiter (d : Delimiter) (rest : List Char) : Apart (d.char :: rest) := by
  have hends : endsWord d.char = true := by simp [endsWord, ofChar?_char]
  have hne : d.char ≠ '=' := by cases d <;> decide
  exact apart_cons hends hne rest

/-! ## Words -/

/-- The characters of one word. -/
structure Word (w : List Char) : Prop where
  ne_nil : w ≠ []
  unbroken : wordAt w = w

theorem wordAt_cons_append_eq {u : List Char} (h : wordAt (c :: u ++ after) = c :: u) :
    breaksWord (c :: (u ++ after)) = false ∧ wordAt (u ++ after) = u := by
  rw [List.cons_append, wordAt] at h
  split at h
  · cases h
  · next hbreaks => exact ⟨Bool.eq_false_iff.2 hbreaks, (List.cons.inj h).2⟩

theorem wordAt_cons_eq {u : List Char} (h : wordAt (c :: u) = c :: u) :
    breaksWord (c :: u) = false ∧ wordAt u = u := by
  have hnil : wordAt (c :: u ++ []) = c :: u := by rwa [List.append_nil]
  have hsplit := wordAt_cons_append_eq hnil
  rwa [List.append_nil] at hsplit

theorem breaksWord_append {u : List Char} (h : breaksWord (c :: u) = false) (hafter : Apart after) :
    breaksWord (c :: (u ++ after)) = false := by
  rw [breaksWord_cons, Bool.or_eq_false_iff] at h ⊢
  refine ⟨h.1, ?_⟩
  cases u with
  | nil =>
    rw [List.nil_append, beq_eq_false_iff_ne.2 hafter.head]
    exact Bool.and_false _
  | cons c' u => exact h.2

/-- A word ends where something else starts. -/
theorem wordAt_append (hw : wordAt w = w) (hafter : Apart after) : wordAt (w ++ after) = w := by
  induction w with
  | nil =>
    cases after with
    | nil => rfl
    | cons c rest => exact if_pos hafter.breaks
  | cons c u ih =>
    obtain ⟨hbreaks, hu⟩ := wordAt_cons_eq hw
    rw [List.cons_append, wordAt,
      if_neg (Bool.eq_false_iff.1 (breaksWord_append hbreaks hafter)), ih hu]

theorem wordAt_append_drop (s : List Char) : wordAt s ++ s.drop (wordAt s).length = s := by
  induction s with
  | nil => rfl
  | cons c rest ih =>
    rw [wordAt]
    split
    · rfl
    · rw [List.length_cons, List.drop_succ_cons, List.cons_append, ih]

theorem head?_wordAt (h : (wordAt s).head? = some c) : s.head? = some c := by
  cases s with
  | nil => exact h
  | cons c' rest =>
    rw [wordAt] at h
    split at h
    · cases h
    · exact h

/-- What is taken for a word is one without what follows it, too. -/
theorem wordAt_wordAt (s : List Char) : wordAt (wordAt s) = wordAt s := by
  induction s with
  | nil => rfl
  | cons c rest ih =>
    rw [wordAt]
    split
    · rfl
    · next hbreaks =>
      have hword : breaksWord (c :: wordAt rest) = false := by
        have hbreaks := (Bool.not_eq_true _).mp hbreaks
        rw [breaksWord_cons, Bool.or_eq_false_iff, Bool.and_eq_false_iff] at hbreaks ⊢
        refine ⟨hbreaks.1, hbreaks.2.imp_right fun hhead => ?_⟩
        exact beq_eq_false_iff_ne.2 fun h => beq_eq_false_iff_ne.1 hhead (head?_wordAt h)
      rw [wordAt, if_neg (Bool.eq_false_iff.1 hword), ih]

/-- Characters of which none ends a word, whatever comes after it. -/
theorem word_of_forall {w : List Char} (hne : w ≠ []) (h : ∀ c ∈ w, endsWord c = false ∧ c ≠ '!') :
    Word w := by
  refine ⟨hne, ?_⟩
  clear hne
  induction w with
  | nil => rfl
  | cons c w ih =>
    obtain ⟨⟨hends, hne⟩, hw⟩ := List.forall_mem_cons.1 h
    have hbreaks : breaksWord (c :: w) = false := by
      rw [breaksWord_cons, hends, beq_eq_false_iff_ne.2 hne]
      rfl
    rw [wordAt, if_neg (Bool.eq_false_iff.1 hbreaks), ih hw]

theorem endsWord_of_isDigit {c : Char} (h : c.isDigit = true) : endsWord c = false ∧ c ≠ '!' := by
  have hdigit : ∀ d < 10, endsWord (Nat.digitChar d) = false ∧ Nat.digitChar d ≠ '!' := by decide
  have hrange : 48 ≤ c.toNat ∧ c.toNat ≤ 57 := by
    simpa [Char.isDigit, UInt32.le_iff_toNat_le] using h
  have hchar : Nat.digitChar (c.toNat - 48) = c := by
    apply Char.toNat_inj.1
    rw [Nat.toNat_digitChar_of_lt_ten (by omega)]
    omega
  rw [← hchar]
  exact hdigit (c.toNat - 48) (by omega)

/-! ## One token -/

theorem scan_nil (offset : Nat) : scan offset [] = .ok [] := by
  rw [scan]

theorem scan_blank (hc : Text.isBlank c = true) (rest : List Char) :
    scan offset (c :: rest) = scan (offset + c.utf8Size) rest := by
  rw [scan, if_pos hc]

theorem scan_comma (rest : List Char) :
    scan offset (',' :: rest) = (scan (offset + 1) rest).map (separator offset :: ·) := by
  rw [scan, if_neg (by decide), if_neg (by decide), if_pos rfl]

theorem scan_delimiter (d : Delimiter) (rest : List Char) :
    scan offset (d.char :: rest) = (scan (offset + 1) rest).map (delimiter d offset :: ·) := by
  have hblank : ¬ Text.isBlank d.char = true := by cases d <;> decide
  have hquote : ¬ isQuote d.char = true := by cases d <;> decide
  have hcomma : d.char ≠ ',' := by cases d <;> decide
  rw [scan, if_neg hblank, if_neg hquote, if_neg hcomma, ofChar?_char]

theorem scan_operator (h : operatorAt? (op.symbol.toList ++ after) = some op) :
    scan offset (op.symbol.toList ++ after) =
      (scan (offset + op.symbol.utf8ByteSize) after).map (operator op offset :: ·) := by
  have hsymbol : ∃ c u, op.symbol.toList = c :: u ∧ ¬ Text.isBlank c = true ∧ ¬ isQuote c =
      true ∧ c ≠ ',' ∧
      Delimiter.ofChar? c = none ∧ op.symbol.length - 1 = u.length := by
    cases op <;> exact ⟨_, _, rfl, by decide, by decide, by decide, by decide, by decide⟩
  obtain ⟨c, u, hsymbol, hblank, hquote, hcomma, hdelimiter, hlength⟩ := hsymbol
  rw [hsymbol, List.cons_append] at h ⊢
  rw [scan, if_neg hblank, if_neg hquote, if_neg hcomma, hdelimiter, h]
  simp only [hlength, List.drop_left]

theorem scan_quoted {raw text : List Char} (hc : isQuote c = true)
    (h : readQuoted c rest = some (raw, text, after)) :
    scan offset (c :: rest) = (scan (offset + (Text.byteLength raw + 2)) after).map
      (⟨.quoted, String.ofList text, offset, Text.byteLength raw + 2⟩ :: ·) := by
  have hblank : ¬ Text.isBlank c = true := by
    rcases Bool.or_eq_true_iff.1 hc with hc | hc
    · rw [eq_of_beq hc]
      decide
    · rw [eq_of_beq hc]
      decide
  rw [scan, if_neg hblank, if_pos hc]
  split
  · next hnone => cases hnone.symm.trans h
  · next hsome =>
    cases hsome.symm.trans h
    rfl

theorem scan_wordAt (hne : w ≠ []) (hw : wordAt (w ++ after) = w) :
    scan offset (w ++ after) =
      (scan (offset + (String.ofList w).utf8ByteSize) after).map
        (word (String.ofList w) offset :: ·) := by
  obtain ⟨c, u, rfl⟩ := List.exists_cons_of_ne_nil hne
  obtain ⟨hbreaks, hword⟩ := wordAt_cons_append_eq hw
  simp only [breaksWord, Bool.or_eq_false_iff, Option.isSome_eq_false_iff,
    Option.isNone_iff_eq_none, beq_eq_false_iff_ne] at hbreaks
  obtain ⟨⟨⟨⟨hblank, hquote⟩, hcomma⟩, hdelimiter⟩, hoperator⟩ := hbreaks
  rw [List.cons_append, scan, if_neg (Bool.eq_false_iff.1 hblank),
    if_neg (Bool.eq_false_iff.1 hquote), if_neg hcomma, hdelimiter, hoperator]
  simp only [hword, List.drop_left]

theorem scan_word (hw : Word w) (hafter : Apart after) :
    scan offset (w ++ after) =
      (scan (offset + (String.ofList w).utf8ByteSize) after).map
        (word (String.ofList w) offset :: ·) :=
  scan_wordAt hw.ne_nil (wordAt_append hw.unbroken hafter)

end GuardedFlow.Token
