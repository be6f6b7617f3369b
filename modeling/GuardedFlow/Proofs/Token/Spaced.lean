import GuardedFlow.Proofs.Token.Lossless

/-!
# Tokens with blanks between them

What a token says is its kind and its text (`Token.Content`), whatever its place. Contents that are
written one after the other with blanks between them (`Token.Spaced`) are found again
(`Token.scan_spaced`), and those of any tokens found can be written so (`Token.valid_of_scan`).
-/

namespace GuardedFlow.Token

/-- What a token says. -/
structure Content where
  kind : Kind
  text : String

def content (t : Token) : Content := ⟨t.kind, t.text⟩

namespace Content

/-- A content as it is written: texts between double quotes, with an escape where one is needed. -/
def written (k : Content) : List Char :=
  match k.kind with
  | .word => k.text.toList
  | .quoted => '"' :: (k.text.toList.flatMap escapeQuote ++ ['"'])
  | .operator op => op.symbol.toList
  | .delimiter d => [d.char]
  | .separator => [',']

/-- Contents that tokens have: a word is one by itself, a quoted text is arbitrary, and the others
have the text of their symbol. -/
def Valid (k : Content) : Prop :=
  match k.kind with
  | .word => tokenize k.text = .ok [word k.text 0]
  | .quoted => True
  | .operator op => k.text = op.symbol
  | .delimiter d => k.text = String.singleton d.char
  | .separator => k.text = ","

end Content

/-- The texts that write contents in order with blanks between them. -/
inductive Spaced : List Content → List Char → Prop where
  | nil : Spaced [] []
  | single (k : Content) : Spaced [k] k.written
  | cons (k : Content) {ks : List Content} {blanks s : List Char} (hne : blanks ≠ [])
      (hblanks : ∀ c ∈ blanks, Text.isBlank c = true) (hks : ks ≠ []) (h : Spaced ks s) :
      Spaced (k :: ks) (k.written ++ (blanks ++ s))

variable {offset : Nat} {s inside after : List Char} {t : Token} {ts : List Token} {k : Content}
    {ks : List Content}

/-! ## What is written is found -/

theorem scan_blanks {blanks : List Char} (h : ∀ c ∈ blanks, Text.isBlank c = true) (offset : Nat)
    (s : List Char) :
    scan offset (blanks ++ s) = scan (offset + Text.byteLength blanks) s := by
  induction blanks generalizing offset with
  | nil => rfl
  | cons c blanks ih =>
    obtain ⟨hc, hblanks⟩ := List.forall_mem_cons.1 h
    rw [List.cons_append, scan_blank hc, ih hblanks, Nat.add_assoc]
    rfl

/-- A token at the end of a text is its last one. -/
theorem First.scan_last (h : First offset t inside []) : scan offset inside = .ok [t] := by
  have hscan := h.scan_eq
  rw [List.append_nil, scan_nil] at hscan
  exact hscan

theorem first_of_word {w : List Char} (hw : Word w) (offset : Nat) :
    First offset (word (String.ofList w) offset) w [] :=
  .word hw.ne_nil (by rw [List.append_nil, hw.unbroken])

theorem tokenize_of_word {text : String} (hw : Word text.toList) :
    tokenize text = .ok [word text 0] := by
  have hscan := (first_of_word hw 0).scan_last
  rwa [String.ofList_toList] at hscan

theorem first_written (hk : k.Valid) (offset : Nat) :
    ∃ t, First offset t k.written [] ∧ t.content = k := by
  obtain ⟨kind, text⟩ := k
  cases kind with
  | word =>
    refine ⟨_, first_of_word (word_of_scan _ _ _ hk _ List.mem_cons_self rfl) offset, ?_⟩
    rw [String.ofList_toList]
    rfl
  | quoted =>
    have hread := readQuoted_escapeQuote text.toList []
    obtain ⟨-, hraw, hunclosed, htext⟩ := (readQuoted_eq_some_iff (by decide)).1 hread
    refine ⟨_, .quoted rfl hraw hunclosed, ?_⟩
    rw [content, ← htext, String.ofList_toList]
  | operator op =>
    obtain rfl : text = op.symbol := hk
    exact ⟨_, .operator (by cases op <;> rfl), rfl⟩
  | delimiter d =>
    obtain rfl : text = String.singleton d.char := hk
    exact ⟨_, .delimiter d, rfl⟩
  | separator =>
    obtain rfl : text = "," := hk
    exact ⟨_, .separator, rfl⟩

/-- Contents with blanks between them are found, and nothing else. -/
theorem scan_spaced (h : Spaced ks s) (hks : ∀ k ∈ ks, k.Valid) (offset : Nat) :
    ∃ ts, scan offset s = .ok ts ∧ ts.map content = ks := by
  induction h generalizing offset with
  | nil => exact ⟨[], scan_nil offset, rfl⟩
  | single k =>
    obtain ⟨t, hfirst, rfl⟩ := first_written (hks k List.mem_cons_self) offset
    exact ⟨[t], hfirst.scan_last, rfl⟩
  | @cons k ks blanks s hne hblanks _ _ ih =>
    obtain ⟨hk, hrest⟩ := List.forall_mem_cons.1 hks
    obtain ⟨t, hfirst, rfl⟩ := first_written hk offset
    obtain ⟨ts, hts, rfl⟩ := ih hrest (t.stop + Text.byteLength blanks)
    refine ⟨t :: ts, ?_, rfl⟩
    have hfirst' : First offset t t.content.written (blanks ++ s) := by
      obtain ⟨c, blanks, rfl⟩ := List.exists_cons_of_ne_nil hne
      exact (separates_of_isBlank (hblanks c List.mem_cons_self)).first_append_iff.2 hfirst
    rw [hfirst'.scan_eq, scan_blanks hblanks, hts]
    rfl

/-! ## What is found can be written -/

theorem valid_of_scan (h : scan offset s = .ok ts) : ∀ k ∈ ts.map content, k.Valid := by
  intro k hk
  obtain ⟨t, ht, rfl⟩ := List.mem_map.1 hk
  obtain ⟨_, inside, after, -, -, -, -, hshows⟩ := (lossless_of_scan offset s ts h).covered t ht
  unfold Shows at hshows
  unfold Content.Valid
  split at hshows
  · next hkind =>
    rw [content, hkind]
    exact tokenize_of_word (word_of_scan offset s ts h t ht hkind)
  · next hkind =>
    rw [content, hkind]
    trivial
  · next op hkind =>
    rw [content, hkind]
    exact String.toList_inj.1 (hshows.1.trans hshows.2.1)
  · next d hkind =>
    rw [content, hkind]
    exact String.toList_inj.1
      ((hshows.1.trans hshows.2).trans (String.toList_singleton d.char).symm)
  · next hkind =>
    rw [content, hkind]
    exact String.toList_inj.1 (hshows.1.trans (hshows.2.trans (String.toList_singleton ',').symm))

end GuardedFlow.Token
