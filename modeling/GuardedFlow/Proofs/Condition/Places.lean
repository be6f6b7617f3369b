import GuardedFlow.Proofs.Builder.Places

/-!
# The place that an error names

An error of an expression names a place between two characters of it: the quote that is never
closed, the start of a token before which every token was taken, or the end of the last one
(`Condition.place_of_parse`).

The tokens of a text start at different bytes (`Token.Lossless.pairwise_offset_lt`), so a place is
the start of one token at most, and the tokens before it are told by the place.
-/

namespace GuardedFlow

/-- The byte that an error names, if it names one. -/
def SyntaxError.place? : SyntaxError → Option Nat
  | tokens e => some e.offset
  | structural _ place => some place
  | defect _ => none

variable {s : String} {t : Token} {ts : List Token} {place : Nat}

/-- A text can be cut after a part that stands at its front. -/
theorem Text.isValid_of_append {before after : List Char} (h : s.toList = before ++ after) :
    String.Pos.Raw.IsValid s ⟨byteLength before⟩ := by
  refine String.Pos.Raw.isValid_iff_exists_append.2
    ⟨String.ofList before, String.ofList after, ?_, ?_⟩
  · rw [← String.ofList_append, ← h, String.ofList_toList]
  · exact String.Pos.Raw.ext (utf8ByteSize_ofList before).symm

namespace Token

theorem Lossless.isValid_offset (h : Lossless 0 s.toList ts) (ht : t ∈ ts) :
    String.Pos.Raw.IsValid s ⟨t.offset⟩ := by
  obtain ⟨before, inside, after, hs, hoffset, -⟩ := h.covered t ht
  rw [hoffset, Nat.zero_add]
  exact Text.isValid_of_append hs

theorem Lossless.isValid_stop (h : Lossless 0 s.toList ts) (ht : t ∈ ts) :
    String.Pos.Raw.IsValid s ⟨t.stop⟩ := by
  obtain ⟨before, inside, after, hs, hoffset, hlength, -⟩ := h.covered t ht
  rw [stop, hoffset, hlength, Nat.zero_add, ← Text.byteLength_append]
  exact Text.isValid_of_append (hs.trans (List.append_assoc ..).symm)

/-- Tokens start one after the other. -/
theorem Lossless.pairwise_offset_lt {offset : Nat} {s : List Char} (h : Lossless offset s ts) :
    ts.Pairwise fun t u => t.offset < u.offset := by
  refine h.ordered.imp_of_mem fun ht _ hle => ?_
  obtain ⟨-, -, -, -, -, -, hpos, -⟩ := h.covered _ ht
  exact Nat.lt_of_lt_of_le (Nat.lt_add_of_pos_right hpos) hle

end Token

namespace Condition

theorem isValid_lastStop (h : Token.Lossless 0 s.toList ts) :
    String.Pos.Raw.IsValid s ⟨lastStop ts⟩ := by
  rw [lastStop]
  cases hlast : ts.getLast? with
  | none => exact Text.isValid_of_append (List.nil_append s.toList).symm
  | some t => exact h.isValid_stop (List.mem_of_getLast? hlast)

/-- No token starts at the end of the last one. -/
theorem offset_lt_lastStop (h : Token.Lossless 0 s.toList ts) (ht : t ∈ ts) :
    t.offset < lastStop ts := by
  obtain ⟨-, -, -, -, -, -, hpos, -⟩ := h.covered t ht
  have hstop : t.offset < t.stop := Nat.lt_add_of_pos_right hpos
  rcases List.eq_nil_or_concat ts with rfl | ⟨earlier, last, rfl⟩
  · exact absurd ht List.not_mem_nil
  · rw [List.concat_eq_append] at h ht ⊢
    have hlast : lastStop (earlier ++ [last]) = last.stop := by simp [lastStop]
    rw [hlast]
    rcases List.mem_append.1 ht with ht | ht
    · have hbefore := (List.pairwise_append.1 h.pairwise_offset_lt).2.2 t ht last (by simp)
      exact Nat.lt_of_lt_of_le hbefore (Nat.le_add_right ..)
    · exact List.mem_singleton.1 ht ▸ hstop

/-- Where tokens start one after the other, everything before a place that was reached is taken. -/
theorem Reached.exists_feedAll (hts : ts.Pairwise fun t u => t.offset < u.offset)
    (h : Reached ts place) {before after : List Token} (hsplit : ts = before ++ t :: after)
    (ht : t.offset = place) :
    ∃ b, Builder.empty.feedAll before = .ok b := by
  obtain ⟨before', t', after', b, rfl, rfl, hbefore⟩ := h
  have hsame : before' = before := by
    rcases List.append_eq_append_iff.1 hsplit with ⟨between, rfl, hrest⟩ | ⟨between, rfl, hrest⟩
    · cases between with
      | nil => exact (List.append_nil _).symm
      | cons u between =>
        obtain ⟨rfl, rfl⟩ := List.cons.inj hrest
        have hlt := (List.pairwise_cons.1 (List.pairwise_append.1 hts).2.1).1 t (by simp)
        exact absurd ht (Nat.ne_of_gt hlt)
    · cases between with
      | nil => exact List.append_nil _
      | cons u between =>
        obtain ⟨rfl, rfl⟩ := List.cons.inj hrest
        have hlt := (List.pairwise_append.1 hts).2.2 t (by simp) t' (by simp)
        exact absurd ht (Nat.ne_of_lt hlt)
  exact ⟨b, hsame ▸ hbefore⟩

theorem Reached.isValid (hts : Token.Lossless 0 s.toList ts) (h : Reached ts place) :
    String.Pos.Raw.IsValid s ⟨place⟩ := by
  obtain ⟨before, t, after, -, rfl, rfl, -⟩ := h
  exact hts.isValid_offset (by simp)

/-- A problem with the tokens of a text is at one of them that was reached, or at the end. -/
theorem reached_of_ofTokens {problem : Problem}
    (h : ofTokens ts = .error (.structural problem place)) :
    Reached ts place ∨ place = lastStop ts := by
  rcases at_of_ofTokens h with ⟨_, hreached, hat⟩ | hat <;> cases hat
  · exact .inl hreached
  · exact .inr rfl

/-- An error of an expression comes from its quotes or from its tokens. -/
theorem parse_eq_error {e : SyntaxError} (h : parse s = .error e) :
    (∃ lexError, e = .tokens lexError ∧ Token.Unfinished 0 s.toList lexError) ∨
      ∃ ts, Token.tokenize s = .ok ts ∧ Token.Lossless 0 s.toList ts ∧ ofTokens ts = .error e := by
  unfold parse at h
  cases htokens : Token.tokenize s with
  | error lexError =>
    rw [htokens] at h
    cases h
    exact .inl ⟨lexError, rfl, Token.unfinished_of_scan 0 s.toList lexError htokens⟩
  | ok ts =>
    rw [htokens] at h
    exact .inr ⟨ts, rfl, Token.lossless_of_scan 0 s.toList ts htokens, h⟩

theorem isValid_of_parse {e : SyntaxError} (h : parse s = .error e)
    (hplace : e.place? = some place) :
    String.Pos.Raw.IsValid s ⟨place⟩ := by
  rcases parse_eq_error h with ⟨lexError, rfl, before, after, -, hs, -, -, hoffset, -⟩ | ⟨ts, -,
    hlossless, h⟩
  · cases hplace
    rw [hoffset, Nat.zero_add]
    exact Text.isValid_of_append hs
  · rcases at_of_ofTokens h with ⟨_, hreached, problem | d⟩ | problem | d <;> cases hplace
    · exact hreached.isValid hlossless
    · exact isValid_lastStop hlossless

/-- **Places of errors.** The byte that an error of an expression names is in the text, between two
characters of it. A quote that is never closed is named by where it stands. Any other problem is at
the end of the last token or at the start of a token, and then all that stands before that token is
taken. -/
theorem place_of_parse (s : String) :
    (∀ e place, parse s = .error e → e.place? = some place →
      place ≤ s.utf8ByteSize ∧ String.Pos.Raw.IsValid s ⟨place⟩) ∧
    (∀ e, parse s = .error (.tokens e) → ∃ before after, s.toList = before ++ e.quote :: after ∧
      Token.isQuote e.quote = true ∧ e.offset = Text.byteLength before) ∧
    ∀ problem place, parse s = .error (.structural problem place) →
      ∃ ts, Token.tokenize s = .ok ts ∧
      ((∃ t ∈ ts, t.offset = place) ∨ place = lastStop ts) ∧
      ∀ before t after, ts = before ++ t :: after → t.offset = place →
        ∀ fed, fed <+: before → ∃ b, Builder.empty.feedAll fed = .ok b := by
  refine ⟨fun e place h hplace => ?_, fun e h => ?_, fun problem place h => ?_⟩
  · have hvalid := isValid_of_parse h hplace
    exact ⟨hvalid.le_rawEndPos, hvalid⟩
  · rcases parse_eq_error h with ⟨_, ⟨⟩, before, after, -, hs, hquote, -, hoffset,
      -⟩ | ⟨ts, -, -, h⟩
    · exact ⟨before, after, hs, hquote, hoffset.trans (Nat.zero_add _)⟩
    · rcases at_of_ofTokens h with ⟨_, -, hat⟩ | hat <;> cases hat
  · rcases parse_eq_error h with ⟨_, ⟨⟩, _⟩ | ⟨ts, htokens, hlossless, h⟩
    refine ⟨ts, htokens, ?_, fun before t after hsplit ht fed hfed => ?_⟩
    · rcases reached_of_ofTokens h with ⟨before, t, after, -, rfl, ht, -⟩ | hlast
      · exact .inl ⟨t, by simp, ht⟩
      · exact .inr hlast
    · have hmem : t ∈ ts := by simp [hsplit]
      rcases reached_of_ofTokens h with hreached | hlast
      · obtain ⟨rest, rfl⟩ := hfed
        obtain ⟨b, hbefore⟩ := hreached.exists_feedAll hlossless.pairwise_offset_lt hsplit ht
        obtain ⟨b', hfed, -⟩ := Builder.feedAll_append.1 hbefore
        exact ⟨b', hfed⟩
      · exact absurd (ht.trans hlast) (Nat.ne_of_lt (offset_lt_lastStop hlossless hmem))

end Condition

end GuardedFlow
