import GuardedFlow.Token.Lexer

/-!
# Where a quoted text ends

A quoted text ends at the first quote of its kind that is not escaped
(`Token.readQuoted_eq_some_iff`), and never if all of them are (`Token.readQuoted_eq_none_iff`). A
character is escaped by a backslash in front of it, if that is not escaped itself (`Token.escapes`).
-/

namespace GuardedFlow.Token

/-- Whether a text escapes the character after it. -/
def escapes (s : List Char) : Bool := s.foldl (fun escaped c => !escaped && c == '\\') false

/-- A text in which every quote of a kind is escaped. -/
def Unclosed (quote : Char) (s : List Char) : Prop :=
  ∀ raw after, s = raw ++ quote :: after → escapes raw = true

/-- A text without its escapes: of a backslash and a quote or backslash after it, the second is
kept. -/
def unescape : List Char → List Char
  | '\\' :: c :: rest =>
    if isQuote c || c == '\\' then c :: unescape rest else '\\' :: c :: unescape rest
  | c :: rest => c :: unescape rest
  | [] => []

/-- A character as it can stand between double quotes. -/
def escapeQuote (c : Char) : List Char := if c = '"' ∨ c = '\\' then ['\\', c] else [c]

variable {quote c : Char} {s rest raw raw' text after after' : List Char}

theorem escapes_cons (hc : c ≠ '\\') (s : List Char) : escapes (c :: s) = escapes s := by
  rw [escapes, List.foldl_cons, beq_eq_false_iff_ne.2 hc]
  rfl

theorem unescape_cons (hc : c ≠ '\\') (s : List Char) : unescape (c :: s) = c :: unescape s := by
  rw [unescape]
  rintro c' rest rfl
  exact absurd rfl hc

theorem readQuoted_plain (hquote : c ≠ quote) (hbackslash : c ≠ '\\') (rest : List Char) :
    readQuoted quote (c :: rest) =
      (readQuoted quote rest).map fun (raw, text, after) => (c :: raw, c :: text, after) := by
  rw [readQuoted, if_neg hquote, if_neg hbackslash]
  rintro c' rest rfl
  exact absurd rfl hbackslash

/-! ## Texts without an end -/

theorem unclosed_nil : Unclosed quote [] := fun raw after h => by
  cases raw <;> cases h

theorem unclosed_escape (hquote : quote ≠ '\\') (h : Unclosed quote s) :
    Unclosed quote ('\\' :: c :: s) := by
  intro raw after hs
  match raw, hs with
  | [], hs => exact absurd (List.cons.inj hs).1.symm hquote
  | [x], hs =>
    obtain rfl : '\\' = x := (List.cons.inj hs).1
    rfl
  | x :: y :: raw, hs =>
    obtain ⟨rfl, htail⟩ := List.cons.inj hs
    exact h raw after (List.cons.inj htail).2

theorem unclosed_cons (hc : c ≠ quote) (hbackslash : c ≠ '\\') (h : Unclosed quote s) :
    Unclosed quote (c :: s) := by
  intro raw after hs
  match raw, hs with
  | [], hs => exact absurd (List.cons.inj hs).1 hc
  | x :: raw, hs =>
    obtain ⟨rfl, htail⟩ := List.cons.inj hs
    rw [escapes_cons hbackslash]
    exact h raw after htail

/-- Two ends of one text are the same. -/
theorem eq_of_closes (h : raw ++ quote :: after = raw' ++ quote :: after')
    (hraw : escapes raw = false) (hunclosed : Unclosed quote raw) (hraw' : escapes raw' = false)
    (hunclosed' : Unclosed quote raw') :
    raw = raw' ∧ after = after' := by
  rcases List.append_eq_append_iff.1 h with ⟨u, hu, hafter⟩ | ⟨u, hu, hafter⟩
  · cases u with
    | nil => exact ⟨by rw [hu, List.append_nil], (List.cons.inj hafter).2⟩
    | cons c u =>
      obtain ⟨rfl, -⟩ := List.cons.inj hafter
      exact absurd (hunclosed' raw u hu) (Bool.eq_false_iff.1 hraw)
  · cases u with
    | nil => exact ⟨by rw [hu, List.append_nil], (List.cons.inj hafter).2.symm⟩
    | cons c u =>
      obtain ⟨rfl, -⟩ := List.cons.inj hafter
      exact absurd (hunclosed raw' u hu) (Bool.eq_false_iff.1 hraw')

/-! ## Reading -/

/-- What is read ends at the first quote that is not escaped. -/
theorem closes_of_readQuoted (hquote : quote ≠ '\\')
    (h : readQuoted quote s = some (raw, text, after)) :
    escapes raw = false ∧ Unclosed quote raw ∧ text = unescape raw := by
  fun_induction readQuoted quote s generalizing raw text after with
  | case1 => cases h
  | case2 c rest ih =>
    simp only [Option.map_eq_some_iff, Prod.mk.injEq] at h
    obtain ⟨⟨r, t, a⟩, hr, rfl, rfl, rfl⟩ := h
    obtain ⟨hescapes, hunclosed, rfl⟩ := ih hr
    exact ⟨hescapes, unclosed_escape hquote hunclosed, by rw [unescape]⟩
  | case3 rest =>
    cases h
    exact ⟨rfl, unclosed_nil, rfl⟩
  | case4 rest => cases h
  | case5 c rest _ hc hbackslash ih =>
    simp only [Option.map_eq_some_iff, Prod.mk.injEq] at h
    obtain ⟨⟨r, t, a⟩, hr, rfl, rfl, rfl⟩ := h
    obtain ⟨hescapes, hunclosed, rfl⟩ := ih hr
    exact ⟨escapes_cons hbackslash r ▸ hescapes, unclosed_cons hc hbackslash hunclosed,
      (unescape_cons hbackslash r).symm⟩

theorem unclosed_of_readQuoted (hquote : quote ≠ '\\') (h : readQuoted quote s = none) :
    Unclosed quote s := by
  fun_induction readQuoted quote s with
  | case1 => exact unclosed_nil
  | case2 c rest ih => exact unclosed_escape hquote (ih (Option.map_eq_none_iff.1 h))
  | case3 rest => cases h
  | case4 rest hrest =>
    -- a backslash at the end escapes nothing
    obtain rfl : rest = [] := List.eq_nil_iff_forall_not_mem.2 fun c hc => by
      obtain ⟨c', rest', rfl⟩ := List.exists_cons_of_ne_nil (List.ne_nil_of_mem hc)
      exact hrest c' rest' rfl rfl
    intro raw after hs
    cases raw with
    | nil => exact absurd (List.cons.inj hs).1.symm hquote
    | cons x raw => cases raw <;> cases (List.cons.inj hs).2
  | case5 c rest _ hc hbackslash ih =>
    exact unclosed_cons hc hbackslash (ih (Option.map_eq_none_iff.1 h))

/-- Nothing is read just if the quote is never closed. -/
theorem readQuoted_eq_none_iff (hquote : quote ≠ '\\') :
    readQuoted quote s = none ↔ Unclosed quote s := by
  refine ⟨unclosed_of_readQuoted hquote, fun h => ?_⟩
  cases hread : readQuoted quote s with
  | none => rfl
  | some result =>
    obtain ⟨raw, text, after⟩ := result
    obtain ⟨hescapes, -⟩ := closes_of_readQuoted hquote hread
    exact absurd (h raw after (readQuoted_eq_some hread)) (Bool.eq_false_iff.1 hescapes)

/-- What is read is the text up to the first quote that is not escaped, and its inside without the
escapes. -/
theorem readQuoted_eq_some_iff (hquote : quote ≠ '\\') :
    readQuoted quote s = some (raw, text, after) ↔
    s = raw ++ quote :: after ∧ escapes raw = false ∧ Unclosed quote raw ∧ text = unescape raw := by
  refine ⟨fun h => ⟨readQuoted_eq_some h, closes_of_readQuoted hquote h⟩, ?_⟩
  rintro ⟨rfl, hescapes, hunclosed, rfl⟩
  cases hread : readQuoted quote (raw ++ quote :: after) with
  | none =>
    have h := (readQuoted_eq_none_iff hquote).1 hread raw after rfl
    exact absurd h (Bool.eq_false_iff.1 hescapes)
  | some result =>
    obtain ⟨raw', text', after'⟩ := result
    obtain ⟨hescapes', hunclosed', rfl⟩ := closes_of_readQuoted hquote hread
    obtain ⟨rfl, rfl⟩ :=
      eq_of_closes (readQuoted_eq_some hread) hescapes hunclosed hescapes' hunclosed'
    rfl

/-! ## Escaping -/

theorem readQuoted_escapeQuote_append (c : Char) (rest : List Char) :
    readQuoted '"' (escapeQuote c ++ rest) =
      (readQuoted '"' rest).map fun (raw, text, after) =>
        (escapeQuote c ++ raw, c :: text, after) := by
  by_cases hc : c = '"' ∨ c = '\\'
  · have hkept : (isQuote c || c == '\\') = true := by rcases hc with rfl | rfl <;> rfl
    rw [escapeQuote, if_pos hc, List.cons_append, List.cons_append, List.nil_append, readQuoted]
    simp only [hkept, ↓reduceIte, List.cons_append, List.nil_append]
  · obtain ⟨hquote, hbackslash⟩ := not_or.1 hc
    rw [escapeQuote, if_neg hc, List.cons_append, List.nil_append,
      readQuoted_plain hquote hbackslash]
    rfl

/-- A text with its double quotes and backslashes escaped is read back. -/
theorem readQuoted_escapeQuote (s after : List Char) :
    readQuoted '"' (s.flatMap escapeQuote ++ '"' :: after) =
      some (s.flatMap escapeQuote, s, after) := by
  induction s with
  | nil => rfl
  | cons c s ih =>
    rw [List.flatMap_cons, List.append_assoc, readQuoted_escapeQuote_append, ih]
    rfl

end GuardedFlow.Token
