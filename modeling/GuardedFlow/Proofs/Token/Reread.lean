import GuardedFlow.Operand.Basic
import GuardedFlow.Proofs.Token.First
import GuardedFlow.Proofs.Token.Written

/-!
# Quoted texts read again

A text that is written between quotes is scanned as one token, whatever is in it
(`Token.tokenize_quoted`). Of the escapes that are written only those of the quote and the backslash
are undone; any other one is read as it stands (`Token.readQuoted_escapeChar`). So the token has the
text just if each of its characters reads back (`Token.flatMap_reread_eq_iff`).
-/

namespace GuardedFlow.Token

/-- What a character between double quotes is read as: itself, or the escape that is written for
it. -/
def reread (c : Char) : List Char := if Quotable c then [c] else Text.escapeChar c

/-- A character with nothing to do between double quotes. -/
def Plain (c : Char) : Prop := c ≠ '"' ∧ c ≠ '\\'

variable {c : Char} {s u after : List Char}

/-! ## Escapes that stay -/

theorem plain_of_mem_toDigits {n : Nat} (hc : c ∈ Nat.toDigits 16 n) : Plain c := by
  have hdigit : ∀ d < 16, Nat.digitChar d ≠ '"' ∧ Nat.digitChar d ≠ '\\' := by decide
  induction n using Nat.strongRecOn with
  | ind n ih =>
    rw [Nat.toDigits_eq_if (by decide)] at hc
    split at hc
    · next hn =>
      rw [List.mem_singleton.1 hc]
      exact hdigit n hn
    · next hn =>
      rcases List.mem_append.1 hc with hc | hc
      · exact ih (n / 16) (by omega) hc
      · rw [List.mem_singleton.1 hc]
        exact hdigit (n % 16) (Nat.mod_lt n (by decide))

/-- An escape that is not undone is a backslash, a letter, and the code point in braces if there is
one. -/
theorem escapeChar_of_not_quotable (hc : ¬ Quotable c) :
    ∃ x rest, Text.escapeChar c = '\\' :: x :: rest ∧ (isQuote x || x == '\\') = false ∧
      ∀ y ∈ rest, Plain y := by
  obtain ⟨hplain, hquote, hbackslash⟩ : Text.escapeChar c ≠ [c] ∧ c ≠ '"' ∧ c ≠ '\\' := by
    simpa only [Quotable, not_or] using hc
  have hnone : ∀ y ∈ ([] : List Char), Plain y := fun y hy => absurd hy List.not_mem_nil
  revert hplain
  unfold Text.escapeChar
  rw [if_neg hquote, if_neg hbackslash]
  split
  · exact fun _ => ⟨'0', [], rfl, rfl, hnone⟩
  split
  · exact fun _ => ⟨'t', [], rfl, rfl, hnone⟩
  split
  · exact fun _ => ⟨'r', [], rfl, rfl, hnone⟩
  split
  · exact fun _ => ⟨'n', [], rfl, rfl, hnone⟩
  split
  · refine fun _ => ⟨'u', '\x7b' :: (Nat.toDigits 16 c.toNat ++ ['\x7d']), rfl, rfl, fun y hy => ?_⟩
    rcases List.mem_cons.1 hy with rfl | hy
    · exact ⟨by decide, by decide⟩
    · rcases List.mem_append.1 hy with hy | hy
      · exact plain_of_mem_toDigits hy
      · rw [List.mem_singleton.1 hy]
        exact ⟨by decide, by decide⟩
  · exact fun hne => absurd rfl hne

theorem readQuoted_append (hu : ∀ c ∈ u, Plain c) (s : List Char) :
    readQuoted '"' (u ++ s) = (readQuoted '"' s).map fun (raw, text, after) =>
      (u ++ raw, u ++ text, after) := by
  induction u with
  | nil => exact Option.map_id_apply.symm
  | cons c u ih =>
    obtain ⟨hc, hu⟩ := List.forall_mem_cons.1 hu
    rw [List.cons_append, readQuoted_plain hc.1 hc.2, ih hu, Option.map_map]
    rfl

/-! ## Reading what is written -/

/-- Each character is read by itself. -/
theorem readQuoted_escapeChar_append (c : Char) (rest : List Char) :
    readQuoted '"' (Text.escapeChar c ++ rest) =
      (readQuoted '"' rest).map fun (raw, text, after) =>
        (Text.escapeChar c ++ raw, reread c ++ text, after) := by
  by_cases hc : Quotable c
  · rw [reread, if_pos hc, hc.escapeChar_eq, readQuoted_escapeQuote_append]
    rfl
  · obtain ⟨x, u, hescape, hkept, hu⟩ := escapeChar_of_not_quotable hc
    rw [reread, if_neg hc, hescape, List.cons_append, List.cons_append, readQuoted,
      readQuoted_append hu, Option.map_map]
    simp only [Function.comp_def, hkept, Bool.false_eq_true, ↓reduceIte, List.cons_append]

theorem readQuoted_escapeChar (s after : List Char) :
    readQuoted '"' (s.flatMap Text.escapeChar ++ '"' :: after) =
      some (s.flatMap Text.escapeChar, s.flatMap reread, after) := by
  induction s with
  | nil => rfl
  | cons c s ih =>
    rw [List.flatMap_cons, List.flatMap_cons, List.append_assoc, readQuoted_escapeChar_append, ih]
    rfl

/-- What is read is what was written just if each character reads back. -/
theorem flatMap_reread_eq_iff : s.flatMap reread = s ↔ ∀ c ∈ s, Quotable c := by
  induction s with
  | nil => exact ⟨fun _ c hc => absurd hc List.not_mem_nil, fun _ => rfl⟩
  | cons c s ih =>
    rw [List.flatMap_cons, List.forall_mem_cons, ← ih]
    by_cases hc : Quotable c
    · rw [reread, if_pos hc, List.singleton_append, List.cons.injEq]
      simp only [hc, true_and]
    · obtain ⟨x, rest, hescape, -⟩ := escapeChar_of_not_quotable hc
      rw [reread, if_neg hc, hescape]
      refine ⟨fun h => ?_, fun h => absurd h.1 hc⟩
      -- an escape starts with a backslash, and a backslash reads back
      obtain ⟨rfl, -⟩ := List.cons.inj h
      exact absurd (.inr (.inr rfl)) hc

/-- **Quoted texts.** What is written for a text is one token from the first quote to the last one,
and the token has the text just if each of its characters reads back. -/
theorem tokenize_quoted (s : String) : ∃ text,
    tokenize (Operand.quoted s).text =
      .ok [⟨.quoted, text, 0, (Operand.quoted s).text.utf8ByteSize⟩] ∧
    (text = s ↔ ∀ c ∈ s.toList, Quotable c) := by
  refine ⟨String.ofList (s.toList.flatMap reread), ?_, ?_⟩
  · have hlength : (Operand.quoted s).text.utf8ByteSize =
        Text.byteLength (s.toList.flatMap Text.escapeChar) + 2 := by
      show (String.ofList (Text.quoteChars s.toList)).utf8ByteSize = _
      rw [Text.utf8ByteSize_ofList, Text.quoteChars, Text.byteLength_cons, Text.byteLength_append]
      show 1 + (Text.byteLength (s.toList.flatMap Text.escapeChar) + 1) = _
      omega
    have hread := readQuoted_escapeChar s.toList []
    show scan 0 (String.ofList (Text.quoteChars s.toList)).toList = _
    rw [String.toList_ofList, Text.quoteChars, scan_quoted rfl hread, scan_nil, hlength]
    rfl
  · rw [← flatMap_reread_eq_iff, ← String.toList_inj, String.toList_ofList]

end GuardedFlow.Token
