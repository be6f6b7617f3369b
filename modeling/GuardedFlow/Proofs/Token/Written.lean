import GuardedFlow.Proofs.Token.Quoting
import GuardedFlow.Proofs.Token.Scan

/-!
# Texts that write tokens

A text writes tokens of a kind if it is scanned as such tokens wherever something follows that ends
a word (`Token.Writes`). Some texts are scanned as one token whatever follows (`Token.Leads`). Texts
are put together from these with `Token.Writes.after` and `Token.Writes.append`.
-/

namespace GuardedFlow.Token

/-- Whatever follows a text, it is scanned as one token of a kind, and then the rest is scanned. -/
def Leads (u : List Char) (P : Token → Prop) : Prop :=
  ∀ offset rest, ∃ t stop, P t ∧ scan offset (u ++ rest) = (scan stop rest).map (t :: ·)

/-- Before anything that ends a word, a text is scanned as tokens of a kind, and then the rest is
scanned. -/
def Writes (s : List Char) (Q : List Token → Prop) : Prop :=
  ∀ offset after, Apart after → ∃ ts stop, Q ts ∧
    scan offset (s ++ after) = (scan stop after).map (ts ++ ·)

variable {s s' u w : List Char} {P : Token → Prop} {Q Q' : List Token → Prop}

/-! ## One token -/

theorem leads_delimiter (d : Delimiter) : Leads [d.char] fun t => t.kind = .delimiter d :=
  fun offset rest =>
  ⟨delimiter d offset, offset + 1, rfl, scan_delimiter d rest⟩

theorem leads_comma : Leads [',', ' '] fun t => t.kind = .separator := by
  intro offset rest
  refine ⟨separator offset, offset + 1 + ' '.utf8Size, rfl, ?_⟩
  rw [List.cons_append, scan_comma, List.cons_append, List.nil_append, scan_blank (by decide)]

theorem leads_operator (op : Operator) :
    Leads (' ' :: (op.symbol.toList ++ [' '])) fun t => t.kind = .operator op := by
  intro offset rest
  have hop : operatorAt? (op.symbol.toList ++ ' ' :: rest) = some op := by cases op <;> rfl
  have hblank : ∀ offset, scan offset (' ' :: rest) = scan (offset + ' '.utf8Size) rest := fun _ =>
    scan_blank (by decide) rest
  refine ⟨operator op (offset + ' '.utf8Size),
    offset + ' '.utf8Size + op.symbol.utf8ByteSize + ' '.utf8Size, rfl, ?_⟩
  rw [List.cons_append, List.append_assoc, scan_blank (by decide), List.cons_append,
    List.nil_append, scan_operator hop, hblank]

theorem leads_sign {op : Operator} (hop : op = .sub ∨ op = .bitNot) :
    Leads op.symbol.toList fun t => t.kind = .operator op := by
  intro offset rest
  have hat : operatorAt? (op.symbol.toList ++ rest) = some op := by
    rcases hop with rfl | rfl
    · rfl
    · rfl
  exact ⟨operator op offset, _, rfl, scan_operator hat⟩

/-! ## Tokens in a row -/

theorem Writes.imp (h : Writes s Q) (hQ : ∀ ts, Q ts → Q' ts) : Writes s Q' := by
  intro offset after hafter
  obtain ⟨ts, stop, hts, hscan⟩ := h offset after hafter
  exact ⟨ts, stop, hQ ts hts, hscan⟩

theorem writes_nil : Writes [] (· = []) := by
  intro offset after _
  exact ⟨[], offset, rfl, (map_nil_append _).symm⟩

theorem writes_word (hw : Word w) :
    Writes w fun ts => ∃ offset, ts = [word (String.ofList w) offset] :=
  fun offset _ hafter => ⟨_, _, ⟨offset, rfl⟩, scan_word hw hafter⟩

/-- A text after one that is scanned as one token. -/
theorem Writes.after (h : Writes s Q) (hu : Leads u P) :
    Writes (u ++ s) fun ts => ∃ t us, ts = t :: us ∧ P t ∧ Q us := by
  intro offset after hafter
  obtain ⟨t, stop, ht, hscan⟩ := hu offset (s ++ after)
  obtain ⟨us, stop', hus, hscan'⟩ := h stop after hafter
  refine ⟨t :: us, stop', ⟨t, us, rfl, ht, hus⟩, ?_⟩
  rw [List.append_assoc, hscan, hscan']
  exact map_map_append _ [t] us

theorem Leads.writes (hu : Leads u P) : Writes u fun ts => ∃ t, ts = [t] ∧ P t := by
  have h := writes_nil.after hu
  rw [List.append_nil] at h
  refine h.imp fun ts => ?_
  rintro ⟨t, us, rfl, ht, rfl⟩
  exact ⟨t, rfl, ht⟩

/-- A text before one that ends a word. -/
theorem Writes.append (h : Writes s Q) (h' : Writes s' Q') (hapart : ∀ after, Apart (s' ++ after)) :
    Writes (s ++ s') fun ts => ∃ us us', ts = us ++ us' ∧ Q us ∧ Q' us' := by
  intro offset after hafter
  obtain ⟨us, stop, hus, hscan⟩ := h offset (s' ++ after) (hapart after)
  obtain ⟨us', stop', hus', hscan'⟩ := h' stop after hafter
  refine ⟨us ++ us', stop', ⟨us, us', rfl, hus, hus'⟩, ?_⟩
  rw [List.append_assoc, hscan, hscan']
  exact map_map_append _ us us'

/-- A text between two delimiters. -/
theorem Writes.enclosed (h : Writes s Q) (opening closing : Delimiter) :
    Writes (opening.char :: (s ++ [closing.char])) fun ts => ∃ t us t', ts = t :: (us ++ [t']) ∧
      t.kind = .delimiter opening ∧ Q us ∧ t'.kind = .delimiter closing := by
  have hclosed :=
    h.append (leads_delimiter closing).writes fun after => apart_delimiter closing after
  refine (hclosed.after (leads_delimiter opening)).imp fun ts => ?_
  rintro ⟨t, _, rfl, ht, us, _, rfl, hus, t', rfl, ht'⟩
  exact ⟨t, us, t', rfl, ht, hus, ht'⟩

/-- Two texts with an operator between them. -/
theorem Writes.between (h : Writes s Q) (h' : Writes s' Q') (op : Operator) :
    Writes (s ++ (' ' :: (op.symbol.toList ++ [' ']) ++ s')) fun ts =>
      ∃ us t us', ts = us ++ t :: us' ∧ Q us ∧
      t.kind = .operator op ∧ Q' us' := by
  have hblank : ∀ after, Apart (' ' :: (op.symbol.toList ++ [' ']) ++ s' ++ after) := fun after =>
    apart_cons (by decide) (by decide) _
  refine (h.append (h'.after (leads_operator op)) hblank).imp fun ts => ?_
  rintro ⟨us, _, rfl, hus, t, us', rfl, ht, hus'⟩
  exact ⟨us, t, us', rfl, hus, ht, hus'⟩

/-! ## Quoted texts -/

/-- The characters that read back when they are written between quotes. -/
def Quotable (c : Char) : Prop := Text.escapeChar c = [c] ∨ c = '"' ∨ c = '\\'

instance (c : Char) : Decidable (Quotable c) :=
  inferInstanceAs (Decidable (Text.escapeChar c = [c] ∨ c = '"' ∨ c = '\\'))

theorem Quotable.escapeChar_eq {c : Char} (h : Quotable c) : Text.escapeChar c = escapeQuote c := by
  by_cases hc : c = '"' ∨ c = '\\'
  · rw [escapeQuote, if_pos hc]
    rcases hc with rfl | rfl <;> decide
  · rw [escapeQuote, if_neg hc]
    exact h.resolve_right hc

theorem readQuoted_escaped (hs : ∀ c ∈ s, Quotable c) (after : List Char) :
    readQuoted '"' (s.flatMap Text.escapeChar ++ '"' :: after) =
      some (s.flatMap Text.escapeChar, s, after) := by
  have hescape : s.flatMap Text.escapeChar = s.flatMap escapeQuote := by
    rw [List.flatMap_def, List.flatMap_def, List.map_congr_left fun c hc => (hs c hc).escapeChar_eq]
  rw [hescape]
  exact readQuoted_escapeQuote s after

theorem writes_quoted (hs : ∀ c ∈ s, Quotable c) :
    Writes (Text.quoteChars s) fun ts => ∃ t, ts = [t] ∧ t.kind = .quoted ∧
      t.text = String.ofList s := by
  intro offset after _
  have hscan := @scan_quoted offset '"' _ _ _ _ (by decide) (readQuoted_escaped hs after)
  rw [Text.quoteChars, List.cons_append, List.append_assoc]
  exact ⟨_, _, ⟨_, rfl, rfl, rfl⟩, hscan⟩

end GuardedFlow.Token
