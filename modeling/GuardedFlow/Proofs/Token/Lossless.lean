import GuardedFlow.Proofs.Token.First

/-!
# Tokens lose nothing

The tokens of a text stand in it in order and apart, each with the characters that its kind shows
(`Token.Shows`), and what is in none of them is blank (`Token.Lossless`). Words and operators reach
as far as they can. Tokens cannot be found just if a quote is reached that is never closed
(`Token.Unfinished`). `Token.tokenize_lossless` says both of every text.

Places are counted in bytes. A byte at which a character starts is the length of the characters
before it, so a part of a text is given by splitting the text.
-/

namespace GuardedFlow.Token

/-- What stands in a text where a token is: the characters that it covers, and the ones after
them. -/
def Shows (t : Token) (inside after : List Char) : Prop :=
  match t.kind with
  | .word => t.text.toList = inside ∧ ∀ u c v, inside = u ++ c :: v → InWord c (v ++ after)
  | .quoted =>
    ∃ quote raw, isQuote quote = true ∧ inside = quote :: (raw ++ [quote]) ∧ escapes raw = false ∧
      Unclosed quote raw ∧ t.text.toList = unescape raw
  | .operator op => t.text.toList = inside ∧ inside = op.symbol.toList ∧
      ∀ op' : Operator, op'.symbol.toList <+: inside ++ after → op'.symbol.length ≤ op.symbol.length
  | .delimiter d => t.text.toList = inside ∧ inside = [d.char]
  | .separator => t.text.toList = inside ∧ inside = [',']

/-- The tokens of a text that starts at the given byte cover everything in it but blanks. -/
structure Lossless (offset : Nat) (s : List Char) (ts : List Token) : Prop where
  covered : ∀ t ∈ ts, ∃ before inside after, s = before ++ (inside ++ after) ∧
    t.offset = offset + Text.byteLength before ∧
    t.length = Text.byteLength inside ∧ 0 < t.length ∧ t.Shows inside after
  ordered : ts.Pairwise fun t u => t.stop ≤ u.offset
  /-- Two words never touch. -/
  apart : ts.Pairwise fun t u => t.kind = .word → u.kind = .word → t.stop < u.offset
  blank : ∀ before c after, s = before ++ c :: after →
    (∀ t ∈ ts, offset + Text.byteLength before < t.offset ∨
      t.stop ≤ offset + Text.byteLength before) →
    Text.isBlank c = true

/-- A quote of a text is reached and never closed: the text before it is cut into whole tokens, and
no quote of its kind after it is free of a backslash. -/
def Unfinished (offset : Nat) (s : List Char) (e : LexError) : Prop :=
  ∃ before after ts, s = before ++ e.quote :: after ∧ isQuote e.quote = true ∧
    scan offset before = .ok ts ∧
    e.offset = offset + Text.byteLength before ∧ Unclosed e.quote after

variable {offset : Nat} {c : Char} {s inside rest after : List Char} {t : Token} {ts : List Token}
    {e : LexError}

/-! ## What is found -/

theorem First.shows (h : First offset t inside after) : t.Shows inside after := by
  cases h with
  | word hne hw =>
    refine ⟨String.toList_ofList, ?_⟩
    rintro u c v rfl
    exact inWord_of_wordAt hw
  | @quoted quote raw _ hquote hraw hunclosed =>
    exact ⟨quote, raw, hquote, rfl, hraw, hunclosed, String.toList_ofList⟩
  | operator hop => exact ⟨rfl, rfl, (longest_of_operatorAt? hop).2⟩
  | delimiter d => exact ⟨String.toList_singleton _, rfl⟩
  | separator => exact ⟨String.toList_singleton ',', rfl⟩

theorem Lossless.offset_le (h : Lossless offset s ts) (ht : t ∈ ts) : offset ≤ t.offset := by
  obtain ⟨before, inside, after, -, hoffset, -⟩ := h.covered t ht
  omega

/-- A word does not start where another one has just ended. -/
theorem Lossless.lt_offset_of_breaksWord (h : Lossless offset s ts) (hs : breaksWord s = true)
    (ht : t ∈ ts) (hkind : t.kind = .word) : offset < t.offset := by
  obtain ⟨before, inside, after, rfl, hoffset, hlength, hpos, hshows⟩ := h.covered t ht
  cases before with
  | cons c before =>
    have hbefore := Text.byteLength_pos (List.cons_ne_nil c before)
    omega
  | nil =>
    cases inside with
    | nil => exact absurd hlength (Nat.ne_of_gt hpos)
    | cons c v =>
      rw [Shows, hkind] at hshows
      have hword := inWord_iff.1 (hshows.2 [] c v rfl)
      exact absurd hs (Bool.eq_false_iff.1 hword)

theorem lossless_nil : Lossless offset [] [] where
  covered t ht := absurd ht List.not_mem_nil
  ordered := .nil
  apart := .nil
  blank before c after h := by cases before <;> cases h

theorem Lossless.skip (h : Lossless (offset + c.utf8Size) rest ts) (hc : Text.isBlank c = true) :
    Lossless offset (c :: rest) ts where
  covered t ht := by
    obtain ⟨before, inside, after, rfl, hoffset, hshown⟩ := h.covered t ht
    refine ⟨c :: before, inside, after, rfl, ?_, hshown⟩
    rw [hoffset, Text.byteLength_cons, Nat.add_assoc]
  ordered := h.ordered
  apart := h.apart
  blank before c' after hs houtside := by
    cases before with
    | nil =>
      obtain ⟨rfl, -⟩ := List.cons.inj hs
      exact hc
    | cons x before =>
      obtain ⟨rfl, hrest⟩ := List.cons.inj hs
      rw [Text.byteLength_cons, ← Nat.add_assoc] at houtside
      exact h.blank before c' after hrest houtside

theorem Lossless.cons (h : Lossless t.stop after ts) (hfirst : First offset t inside after) :
    Lossless offset (inside ++ after) (t :: ts) where
  covered := by
    refine List.forall_mem_cons.2 ⟨?_, fun u hu => ?_⟩
    · have hpos := hfirst.length_eq ▸ Text.byteLength_pos hfirst.ne_nil
      exact ⟨[], inside, after, rfl, hfirst.offset_eq, hfirst.length_eq, hpos, hfirst.shows⟩
    · obtain ⟨before, inside', after', rfl, hoffset, hshown⟩ := h.covered u hu
      refine ⟨inside ++ before, inside', after', (List.append_assoc ..).symm, ?_, hshown⟩
      rw [hoffset, hfirst.stop_eq, Text.byteLength_append, Nat.add_assoc]
  ordered := List.pairwise_cons.2 ⟨fun _ hu => h.offset_le hu, h.ordered⟩
  apart := by
    refine List.pairwise_cons.2 ⟨fun u hu ht hkind => ?_, h.apart⟩
    cases hfirst with
    | word _ hw => exact h.lt_offset_of_breaksWord (breaksWord_of_wordAt hw) hu hkind
    | _ => cases ht
  blank before c after' hs houtside := by
    have hstop := hfirst.stop_eq
    obtain ⟨ht, hts⟩ := List.forall_mem_cons.1 houtside
    rw [hfirst.offset_eq] at ht
    rcases List.append_eq_append_iff.1 hs with ⟨u, rfl, hafter⟩ | ⟨u, rfl, hafter⟩
    · rw [Text.byteLength_append, ← Nat.add_assoc, ← hstop] at hts
      exact h.blank u c after' hafter hts
    · cases u with
      | nil =>
        rw [List.append_nil] at hstop
        refine h.blank [] c after' hafter.symm fun u hu => ?_
        rw [hstop]
        exact hts u hu
      | cons x u =>
        -- the character is inside the token
        have hpos := Text.byteLength_pos (List.cons_ne_nil x u)
        rw [Text.byteLength_append] at hstop
        omega

/-- What a scan finds. -/
theorem lossless_of_scan : ∀ offset s ts, scan offset s = .ok ts → Lossless offset s ts := by
  refine scan_induction ?_ ?_ ?_ ?_
  · intro offset ts h
    rw [scan_nil] at h
    cases h
    exact lossless_nil
  · intro offset c rest hc ih ts h
    exact (ih ts (scan_blank hc rest ▸ h)).skip hc
  · intro offset t inside after hfirst ih ts h
    rw [hfirst.scan_eq] at h
    obtain ⟨us, hus, rfl⟩ := map_eq_ok.1 h
    exact (ih us hus).cons hfirst
  · intro offset quote rest hquote hunclosed ts h
    rw [scan_unclosed hquote hunclosed] at h
    cases h

/-! ## What is not found -/

/-- A scan of a text goes on with what follows a separator. -/
theorem Separates.scan_append (hc : Separates c) : ∀ offset s ts, scan offset s = .ok ts →
    scan offset (s ++ c :: rest) =
      (scan (offset + Text.byteLength s) (c :: rest)).map (ts ++ ·) := by
  refine scan_induction ?_ ?_ ?_ ?_
  · intro offset ts h
    rw [scan_nil] at h
    cases h
    exact (map_nil_append _).symm
  · intro offset c' s hc' ih ts h
    rw [scan_blank hc'] at h
    rw [List.cons_append, scan_blank hc', ih ts h, Text.byteLength_cons, Nat.add_assoc]
  · intro offset t inside after hfirst ih ts h
    rw [hfirst.scan_eq] at h
    obtain ⟨us, hus, rfl⟩ := map_eq_ok.1 h
    rw [List.append_assoc, (hc.first_append_iff.2 hfirst).scan_eq, ih us hus, hfirst.stop_eq,
      Text.byteLength_append, Nat.add_assoc]
    exact map_map_append _ [t] us
  · intro offset quote s hquote hunclosed ts h
    rw [scan_unclosed hquote hunclosed] at h
    cases h

theorem unfinished_of_scan : ∀ offset s e, scan offset s = .error e → Unfinished offset s e := by
  refine scan_induction ?_ ?_ ?_ ?_
  · intro offset e h
    rw [scan_nil] at h
    cases h
  · intro offset c rest hc ih e h
    rw [scan_blank hc] at h
    obtain ⟨before, after, ts, rfl, hquote, hts, hoffset, hunclosed⟩ := ih e h
    refine ⟨c :: before, after, ts, rfl, hquote, (scan_blank hc before).trans hts, ?_, hunclosed⟩
    rw [hoffset, Text.byteLength_cons, Nat.add_assoc]
  · intro offset t inside after hfirst ih e h
    rw [hfirst.scan_eq] at h
    obtain ⟨before, after', us, rfl, hquote, hus, hoffset, hunclosed⟩ := ih e (map_eq_error.1 h)
    have hfirst' := (separates_of_isQuote hquote).first_append_iff.1 hfirst
    refine ⟨inside ++ before, after', t :: us, (List.append_assoc ..).symm, hquote, ?_,
      ?_, hunclosed⟩
    · rw [hfirst'.scan_eq, hus]
      rfl
    · rw [hoffset, hfirst.stop_eq, Text.byteLength_append, Nat.add_assoc]
  · intro offset quote rest hquote hunclosed e h
    rw [scan_unclosed hquote hunclosed] at h
    cases h
    exact ⟨[], rest, [], rfl, hquote, scan_nil offset, rfl, hunclosed⟩

theorem scan_of_unfinished (h : Unfinished offset s e) : scan offset s = .error e := by
  obtain ⟨before, after, ts, rfl, hquote, hts, hoffset, hunclosed⟩ := h
  rw [(separates_of_isQuote hquote).scan_append offset before ts hts,
    scan_unclosed hquote hunclosed, ← hoffset]
  rfl

/-- **Nothing is lost.** The tokens of a text cover it but for blanks, each as far as it reaches,
and there are none just if a quote is reached that is never closed; the error then names that
quote. -/
theorem tokenize_lossless (s : String) : (∀ ts, tokenize s = .ok ts → Lossless 0 s.toList ts) ∧
    ∀ e, tokenize s = .error e ↔ Unfinished 0 s.toList e :=
  ⟨lossless_of_scan 0 s.toList, fun e => ⟨unfinished_of_scan 0 s.toList e, scan_of_unfinished⟩⟩

def tight : List Token :=
  [word "é!" 0, operator .ne 3, ⟨.quoted, "'", 5, 3⟩, operator .shl 8, operator .eq 10, word "b" 11]

/-- A text without blanks, and one whose last quote is escaped. -/
theorem tokenize_lossless_tight :
    Lossless 0 "é!!=\"'\"<<=b".toList tight ∧ Unfinished 0 "a'b\\'".toList ⟨'\'', 1⟩ := by
  have htight : (tokenize "é!!=\"'\"<<=b").toOption = some tight := by decide +kernel
  have hopen : error? (tokenize "a'b\\'") = some ⟨'\'', 1⟩ := by decide +kernel
  exact ⟨(tokenize_lossless _).1 tight (eq_ok_of_toOption htight),
    ((tokenize_lossless _).2 _).1 (error?_eq_some_iff.1 hopen)⟩

end GuardedFlow.Token
