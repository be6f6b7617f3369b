import GuardedFlow.Proofs.Token.Quoting
import GuardedFlow.Proofs.Token.Scan

/-!
# The first token of a text

`Token.First offset t inside after` says when a scan takes the characters `inside` of a text for the
token `t`, given the ones after them. A text is empty, starts with a blank, with a first token, or
with a quote that is never closed; `Token.scan_induction` is the induction along these cases. What
comes after a character that separates tokens whatever stands before it (`Token.Separates`) has no
influence on the tokens before it (`Token.Separates.first_append_iff`).
-/

namespace GuardedFlow

namespace Text

theorem byteLength_append (s u : List Char) :
    byteLength (s ++ u) = byteLength s + byteLength u := by
  induction s with
  | nil => exact (Nat.zero_add _).symm
  | cons c s ih => exact (congrArg (c.utf8Size + ·) ih).trans (Nat.add_assoc _ _ _).symm

theorem byteLength_cons (c : Char) (s : List Char) :
    byteLength (c :: s) = c.utf8Size + byteLength s := rfl

theorem byteLength_pos {s : List Char} (h : s ≠ []) : 0 < byteLength s := by
  obtain ⟨c, u, rfl⟩ := List.exists_cons_of_ne_nil h
  exact Nat.add_pos_left c.utf8Size_pos _

theorem utf8ByteSize_ofList (s : List Char) : (String.ofList s).utf8ByteSize = byteLength s := by
  induction s with
  | nil => rfl
  | cons c s ih =>
    rw [String.ofList_cons, String.utf8ByteSize_append, String.utf8ByteSize_singleton, ih,
      byteLength_cons]

end Text

namespace Token

variable {offset : Nat} {c quote : Char} {s inside rest after : List Char} {op : Operator}
    {t : Token} {ts : List Token}
  {e : LexError}

/-! ## Operators and words -/

theorem operatorAt?_eq_none_iff :
    operatorAt? s = none ↔ ∀ op : Operator, ¬ op.symbol.toList <+: s := by
  have hall : ∀ op, op ∈ Operator.longestFirst := fun op => by cases op <;> decide
  simp [operatorAt?, List.find?_eq_none, hall]

/-- The operator at the start of a text is there, and no longer one is. -/
theorem longest_of_operatorAt? (h : operatorAt? s = some op) : op.symbol.toList <+: s ∧
    ∀ op' : Operator, op'.symbol.toList <+: s → op'.symbol.length ≤ op.symbol.length := by
  have hall : ∀ op, op ∈ Operator.longestFirst := fun op => by cases op <;> decide
  have hsorted : Operator.longestFirst.Pairwise fun o o' =>
    o'.symbol.length ≤ o.symbol.length := by decide
  obtain ⟨hop, shorter, longer, hsplit, hfirst⟩ := List.find?_eq_some_iff_append.1 h
  refine ⟨List.isPrefixOf_iff_prefix.1 hop, fun op' hop' => ?_⟩
  have hmem := hall op'
  rw [hsplit] at hmem hsorted
  rcases List.mem_append.1 hmem with hmem | hmem
  · have hnot := hfirst op' hmem
    rw [List.isPrefixOf_iff_prefix.2 hop'] at hnot
    cases hnot
  · rcases List.mem_cons.1 hmem with rfl | hmem
    · exact Nat.le_refl _
    · exact List.rel_of_pairwise_cons (List.pairwise_append.1 hsorted).2.1 hmem

theorem ofChar?_eq_none_iff : Delimiter.ofChar? c = none ↔ ∀ d : Delimiter, c ≠ d.char := by
  have hall : ∀ d : Delimiter,
      d ∈ [Delimiter.openParen, .closeParen, .openBracket, .closeBracket, .openBrace,
        .closeBrace] := fun d => by
    cases d <;> decide
  constructor
  · intro h d hd
    have hnot := List.find?_eq_none.1 h d (hall d)
    exact hnot (beq_iff_eq.2 hd.symm)
  · intro h
    exact List.find?_eq_none.2 fun d _ hd => h d (beq_iff_eq.1 hd).symm

/-- A character of a word is no blank, quote, comma or delimiter, and no operator starts with it. -/
structure InWord (c : Char) (rest : List Char) : Prop where
  blank : Text.isBlank c = false
  quote : isQuote c = false
  comma : c ≠ ','
  delimiter : ∀ d : Delimiter, c ≠ d.char
  operator : ∀ op : Operator, ¬ op.symbol.toList <+: c :: rest

theorem inWord_iff : InWord c rest ↔ breaksWord (c :: rest) = false := by
  rw [breaksWord]
  simp only [Bool.or_eq_false_iff, Option.isSome_eq_false_iff, Option.isNone_iff_eq_none,
    beq_eq_false_iff_ne, ofChar?_eq_none_iff, operatorAt?_eq_none_iff]
  constructor
  · exact fun h => ⟨⟨⟨⟨h.blank, h.quote⟩, h.comma⟩, h.delimiter⟩, h.operator⟩
  · rintro ⟨⟨⟨⟨hblank, hquote⟩, hcomma⟩, hdelimiter⟩, hoperator⟩
    exact ⟨hblank, hquote, hcomma, hdelimiter, hoperator⟩

/-- All characters of what is taken for a word are characters of a word. -/
theorem inWord_of_wordAt {u v : List Char} (h : wordAt (u ++ c :: v ++ after) = u ++ c :: v) :
    InWord c (v ++ after) := by
  induction u with
  | nil => exact inWord_iff.2 (wordAt_cons_append_eq h).1
  | cons c' u ih => exact ih (wordAt_cons_append_eq h).2

theorem breaksWord_of_wordAt {w : List Char} (h : wordAt (w ++ after) = w) :
    breaksWord after = true := by
  induction w with
  | nil =>
    cases after with
    | nil => rfl
    | cons c rest =>
      rw [List.nil_append, wordAt] at h
      split at h
      · assumption
      · cases h
  | cons c w ih => exact ih (wordAt_cons_append_eq h).2

/-! ## The first token -/

/-- A text starts with a token: the characters that it covers, and the ones after them. -/
inductive First (offset : Nat) : Token → List Char → List Char → Prop where
  | word {w after : List Char} (hne : w ≠ []) (hw : wordAt (w ++ after) = w) :
      First offset (word (String.ofList w) offset) w after
  | quoted {quote : Char} {raw after : List Char} (hquote : isQuote quote = true)
      (hraw : escapes raw = false) (hunclosed : Unclosed quote raw) :
      First offset ⟨.quoted, String.ofList (unescape raw), offset, Text.byteLength raw + 2⟩
        (quote :: (raw ++ [quote])) after
  | operator {op : Operator} {after : List Char}
      (hop : operatorAt? (op.symbol.toList ++ after) = some op) :
      First offset (operator op offset) op.symbol.toList after
  | delimiter (d : Delimiter) {after : List Char} : First offset (delimiter d offset) [d.char] after
  | separator {after : List Char} : First offset (separator offset) [','] after

theorem isQuote_iff : isQuote c = true ↔ c = '"' ∨ c = '\'' := by
  rw [isQuote, Bool.or_eq_true_iff, beq_iff_eq, beq_iff_eq]

theorem ne_backslash_of_isQuote (h : isQuote c = true) : c ≠ '\\' := by
  rcases isQuote_iff.1 h with rfl | rfl <;> decide

theorem utf8Size_of_isQuote (h : isQuote c = true) : c.utf8Size = 1 := by
  rcases isQuote_iff.1 h with rfl | rfl <;> rfl

theorem First.offset_eq (h : First offset t inside after) : t.offset = offset := by
  cases h <;> rfl

theorem First.ne_nil (h : First offset t inside after) : inside ≠ [] := by
  cases h with
  | word hne _ => exact hne
  | @operator op => cases op <;> decide
  | _ => exact List.cons_ne_nil _ _

theorem First.length_eq (h : First offset t inside after) : t.length = Text.byteLength inside := by
  cases h with
  | word => exact Text.utf8ByteSize_ofList _
  | quoted hquote =>
    rw [Text.byteLength_cons, Text.byteLength_append, Text.byteLength_cons,
      utf8Size_of_isQuote hquote, ← Nat.add_assoc]
    exact congrArg (· + 1) (Nat.add_comm _ 1)
  | @operator op => cases op <;> rfl
  | delimiter d => cases d <;> rfl
  | separator => rfl

theorem First.stop_eq (h : First offset t inside after) :
    t.stop = offset + Text.byteLength inside := by
  rw [stop, h.offset_eq, h.length_eq]

/-- A first token is taken. -/
theorem First.scan_eq (h : First offset t inside after) :
    scan offset (inside ++ after) = (scan t.stop after).map (t :: ·) := by
  cases h with
  | word hne hw => exact scan_wordAt hne hw
  | @quoted quote raw _ hquote hraw hunclosed =>
    have hread : readQuoted quote (raw ++ [quote] ++ after) = some (raw, unescape raw, after) := by
      rw [List.append_assoc]
      exact (readQuoted_eq_some_iff (ne_backslash_of_isQuote hquote)).2 ⟨rfl, hraw, hunclosed, rfl⟩
    exact scan_quoted hquote hread
  | operator hop => exact scan_operator hop
  | delimiter d => exact scan_delimiter d after
  | separator => exact scan_comma after

theorem scan_unclosed (hquote : isQuote quote = true) (h : Unclosed quote rest) :
    scan offset (quote :: rest) = .error ⟨quote, offset⟩ := by
  have hblank : ¬ Text.isBlank quote = true := by
    rcases isQuote_iff.1 hquote with rfl | rfl <;> decide
  have hread := (readQuoted_eq_none_iff (ne_backslash_of_isQuote hquote)).2 h
  rw [scan, if_neg hblank, if_pos hquote]
  split
  · rfl
  · next hsome => cases hread.symm.trans hsome

/-- Induction along a text: it ends, or starts with a blank, a token or a quote that is never
closed. -/
theorem scan_induction {motive : Nat → List Char → Prop} (nil : ∀ offset, motive offset [])
    (blank : ∀ offset c rest, Text.isBlank c = true → motive (offset + c.utf8Size) rest →
      motive offset (c :: rest))
    (token : ∀ offset t inside after, First offset t inside after → motive t.stop after →
      motive offset (inside ++ after))
    (unclosed : ∀ offset quote rest, isQuote quote = true → Unclosed quote rest →
      motive offset (quote :: rest)) :
    ∀ offset s, motive offset s := by
  intro offset s
  fun_induction scan offset s with
  | case1 offset => exact nil offset
  | case2 offset c rest hblank ih => exact blank offset c rest hblank ih
  | case3 offset c rest _ hquote hread =>
    exact unclosed offset c rest hquote
      (unclosed_of_readQuoted (ne_backslash_of_isQuote hquote) hread)
  | case4 offset c rest _ hquote raw text after hread length ih =>
    obtain ⟨rfl, hraw, hunclosed, rfl⟩ :=
      (readQuoted_eq_some_iff (ne_backslash_of_isQuote hquote)).1 hread
    have hfirst := token offset _ _ after (.quoted hquote hraw hunclosed) ih
    rwa [List.cons_append, List.append_assoc] at hfirst
  | case5 offset rest _ _ ih => exact token offset _ _ rest .separator ih
  | case6 offset c rest _ _ _ d hd ih =>
    have hchar := List.find?_some hd
    obtain rfl : d.char = c := beq_iff_eq.1 hchar
    exact token offset _ _ rest (.delimiter d) ih
  | case7 offset c rest _ _ _ _ op hop ih =>
    obtain ⟨after, hafter⟩ := (longest_of_operatorAt? hop).1
    have hdrop : rest.drop (op.symbol.length - 1) = after := by
      have hlength := congrArg (List.drop op.symbol.toList.length) hafter
      rw [List.drop_left] at hlength
      rw [hlength]
      cases op <;> rfl
    rw [hdrop] at ih
    rw [← hafter] at hop ⊢
    exact token offset _ _ after (.operator hop) ih
  | case8 offset c rest hblank hquote hcomma hdelimiter hoperator more text ih =>
    have hbreaks : ¬ breaksWord (c :: rest) = true := by
      simp [breaksWord, hblank, hquote, hcomma, hdelimiter, hoperator]
    have hsplit := wordAt_append_drop rest
    have hword : wordAt ((c :: more) ++ rest.drop more.length) = c :: more := by
      rw [List.cons_append, hsplit]
      exact if_neg hbreaks
    have hfirst := token offset _ _ _ (.word (List.cons_ne_nil c more) hword) ih
    rwa [List.cons_append, hsplit] at hfirst

theorem Word.of_wordAt {w : List Char} (hne : w ≠ []) (hw : wordAt (w ++ after) = w) : Word w := by
  have hunbroken := wordAt_wordAt (w ++ after)
  rw [hw] at hunbroken
  exact ⟨hne, hunbroken⟩

/-- What a scan takes for a word is one. -/
theorem word_of_scan :
    ∀ offset s ts, scan offset s = .ok ts → ∀ t ∈ ts, t.kind = .word → Word t.text.toList := by
  refine scan_induction ?_ ?_ ?_ ?_
  · intro offset ts h
    rw [scan_nil] at h
    cases h
    exact fun t ht => absurd ht List.not_mem_nil
  · intro offset c rest hc ih ts h
    exact ih ts (scan_blank hc rest ▸ h)
  · intro offset t inside after hfirst ih ts h
    rw [hfirst.scan_eq] at h
    obtain ⟨us, hus, rfl⟩ := map_eq_ok.1 h
    refine List.forall_mem_cons.2 ⟨fun hkind => ?_, ih us hus⟩
    cases hfirst with
    | word hne hw =>
      rw [word, String.toList_ofList]
      exact .of_wordAt hne hw
    | _ => cases hkind
  · intro offset quote rest hquote hunclosed ts h
    rw [scan_unclosed hquote hunclosed] at h
    cases h

/-! ## Separators -/

/-- A character that is none of a word and none of an operator. -/
structure Separates (c : Char) : Prop where
  ends : endsWord c = true
  symbol : isSymbol c = false

theorem separates_of_isQuote (h : isQuote c = true) : Separates c := by
  rcases isQuote_iff.1 h with rfl | rfl <;> exact ⟨by decide, by decide⟩

theorem separates_of_isBlank (h : Text.isBlank c = true) : Separates c := by
  refine ⟨by rw [endsWord, h]; rfl, ?_⟩
  rw [Bool.eq_false_iff]
  intro hsymbol
  have hnone : ("=><+-*/%&|^~".toList.all fun c => !Text.isBlank c) = true := by decide
  have hnot := List.all_eq_true.1 hnone c (List.contains_iff_mem.1 hsymbol)
  rw [h] at hnot
  cases hnot

/-- An operator is not cut off by a separator. -/
theorem Separates.operatorAt?_append (hc : Separates c) (hs : s ≠ []) :
    operatorAt? (s ++ c :: rest) = operatorAt? s := by
  have hsymbol : ∀ op : Operator,
      (∃ x, op.symbol.toList = [x]) ∨
      ∃ x y, op.symbol.toList = [x, y] ∧ isSymbol y = true := fun op => by
    cases op <;> first | exact .inl ⟨_, rfl⟩ | exact .inr ⟨_, _, rfl, rfl⟩
  have hop : ∀ op : Operator, op.symbol.toList.isPrefixOf (s ++ c :: rest) =
      op.symbol.toList.isPrefixOf s := by
    intro op
    obtain ⟨a, u, rfl⟩ := List.exists_cons_of_ne_nil hs
    rcases hsymbol op with ⟨x, hx⟩ | ⟨x, y, hxy, hy⟩
    · rw [hx, List.cons_append, List.isPrefixOf, List.isPrefixOf]
      rfl
    · have hne : (y == c) = false := by
        refine beq_eq_false_iff_ne.2 ?_
        rintro rfl
        rw [hc.symbol] at hy
        cases hy
      cases u with
      | nil => simp [hxy, List.isPrefixOf, hne]
      | cons b u => simp [hxy, List.isPrefixOf]
  exact congrArg Operator.longestFirst.find? (funext hop)

theorem Separates.breaksWord_append (hc : Separates c) (hs : s ≠ []) :
    breaksWord (s ++ c :: rest) = breaksWord s := by
  obtain ⟨a, u, rfl⟩ := List.exists_cons_of_ne_nil hs
  rw [List.cons_append, breaksWord, ← List.cons_append, hc.operatorAt?_append hs, breaksWord]

theorem Separates.wordAt_append (hc : Separates c) (s : List Char) :
    wordAt (s ++ c :: rest) = wordAt s := by
  induction s with
  | nil =>
    rw [List.nil_append, wordAt.eq_def]
    simp only [breaksWord_cons, hc.ends, Bool.true_or, ↓reduceIte, wordAt]
  | cons a s ih =>
    rw [List.cons_append, wordAt, wordAt, ← List.cons_append,
      hc.breaksWord_append (List.cons_ne_nil a s), ih]

/-- What comes after a separator has no influence on a token before it. -/
theorem Separates.first_append_iff (hc : Separates c) :
    First offset t inside (after ++ c :: rest) ↔ First offset t inside after := by
  constructor
  · intro h
    generalize hall : after ++ c :: rest = all at h
    cases h with
    | word hne hw =>
      rw [← hall, ← List.append_assoc, hc.wordAt_append] at hw
      exact .word hne hw
    | quoted hquote hraw hunclosed => exact .quoted hquote hraw hunclosed
    | @operator op _ hop =>
      have hne : op.symbol.toList ++ after ≠ [] :=
        List.append_ne_nil_of_left_ne_nil (by cases op <;> decide) after
      rw [← hall, ← List.append_assoc, hc.operatorAt?_append hne] at hop
      exact .operator hop
    | delimiter d => exact .delimiter d
    | separator => exact .separator
  · intro h
    cases h with
    | word hne hw =>
      refine .word hne ?_
      rw [← List.append_assoc, hc.wordAt_append, hw]
    | quoted hquote hraw hunclosed => exact .quoted hquote hraw hunclosed
    | @operator op _ hop =>
      have hne : op.symbol.toList ++ after ≠ [] :=
        List.append_ne_nil_of_left_ne_nil (by cases op <;> decide) after
      refine .operator ?_
      rw [← List.append_assoc, hc.operatorAt?_append hne, hop]
    | delimiter d => exact .delimiter d
    | separator => exact .separator

end Token

end GuardedFlow
