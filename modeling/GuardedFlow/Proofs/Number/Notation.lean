import GuardedFlow.Number.Text

/-!
# Decimal notation

The characters of what is read as a number (`Decimal.notation_of_parse?`): digits with points among
them, and an exponent, which is the one place for a sign behind the first character.
-/

namespace GuardedFlow.Decimal

/-- Digits and points. -/
structure Mantissa (m : List Char) : Prop where
  ne_nil : m ≠ []
  all : ∀ c ∈ m, c.isDigit = true ∨ c = '.'

/-- Digits. -/
structure Digits (digits : List Char) : Prop where
  ne_nil : digits ≠ []
  all : ∀ c ∈ digits, c.isDigit = true

/-- Nothing, or an exponent. -/
inductive Ending : List Char → Prop where
  | nil : Ending []
  | exponent {sign digits : List Char} {e : Char} (he : e = 'e' ∨ e = 'E')
      (hsign : sign = [] ∨ sign = ['-'] ∨ sign = ['+']) (hdigits : Digits digits) :
      Ending (e :: (sign ++ digits))

/-- Decimal notation without a sign in front. -/
inductive Notation : List Char → Prop where
  | mk {m rest : List Char} (hm : Mantissa m) (hrest : Ending rest) : Notation (m ++ rest)

variable {s : List Char}

theorem all_isDigit_takeWhile (s : List Char) : ∀ c ∈ s.takeWhile Char.isDigit, c.isDigit = true :=
  List.all_eq_true.1 List.all_takeWhile

theorem exists_of_parseExponent? {e : Int} (h : parseExponent? s = some e) :
    ∃ sign digits, s = sign ++ digits ∧ (sign = [] ∨ sign = ['-'] ∨ sign = ['+']) ∧
      Digits digits := by
  unfold parseExponent? at h
  split at h
  next negative digits hsign =>
    split at h
    · next hdigits =>
      have hdigits : Digits digits := ⟨hdigits.1, List.all_eq_true.1 hdigits.2⟩
      split at hsign
      · cases hsign
        exact ⟨['-'], _, rfl, .inr (.inl rfl), hdigits⟩
      · cases hsign
        exact ⟨['+'], _, rfl, .inr (.inr rfl), hdigits⟩
      · cases hsign
        exact ⟨[], _, rfl, .inl rfl, hdigits⟩
    · cases h

theorem ending_of_parseExponent? {c : Char} {f : Int → Decimal} {d : Decimal}
    (h : (if c = 'e' ∨ c = 'E' then (parseExponent? s).map f else none) = some d) :
    Ending (c :: s) := by
  split at h
  · next hc =>
    obtain ⟨e, he, -⟩ := Option.map_eq_some_iff.1 h
    obtain ⟨sign, digits, rfl, hsign, hdigits⟩ := exists_of_parseExponent? he
    exact .exponent hc hsign hdigits
  · cases h

/-- What is read as a decimal is decimal notation. -/
theorem notation_of_parse? {d : Decimal} (h : parse? s = some d) : Notation s := by
  have hwhole := all_isDigit_takeWhile s
  rw [← List.takeWhile_append_dropWhile (p := Char.isDigit) (l := s)]
  unfold parse? at h
  dsimp only at h
  split at h
  · next r hpoint =>
    dsimp only at h
    have hfraction := all_isDigit_takeWhile r
    have hm : Mantissa (s.takeWhile Char.isDigit ++ '.' :: r.takeWhile Char.isDigit) := by
      refine ⟨by simp, fun c hc => ?_⟩
      rcases List.mem_append.1 hc with hc | hc
      · exact .inl (hwhole c hc)
      · rcases List.mem_cons.1 hc with rfl | hc
        · exact .inr rfl
        · exact .inl (hfraction c hc)
    have hend : Ending (r.dropWhile Char.isDigit) := by
      split at h
      · cases h
      · split at h
        · next hnil => exact hnil ▸ .nil
        · next hcons => exact hcons ▸ ending_of_parseExponent? h
    have hnotation := Notation.mk hm hend
    rwa [List.append_assoc, List.cons_append,
      List.takeWhile_append_dropWhile, ← hpoint] at hnotation
  · dsimp only at h
    split at h
    · cases h
    · next hne =>
      refine .mk ⟨fun hnil => hne ⟨hnil, rfl⟩, fun c hc => .inl (hwhole c hc)⟩ ?_
      split at h
      · next hnil => exact hnil ▸ .nil
      · next hcons => exact hcons ▸ ending_of_parseExponent? h

end GuardedFlow.Decimal
