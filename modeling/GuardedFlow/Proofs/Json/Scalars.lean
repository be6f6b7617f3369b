import GuardedFlow.Json.Printer
import GuardedFlow.Json.Reader
import GuardedFlow.Proofs.Number.Text

/-!
# Texts and numbers that are read back

A text between quotes is read as it was written, whatever follows it (`Json.readText_escaped`). A
number is read up to where a document can end inside another one, and what is read does not depend
on what follows (`Json.readNumber_append`). So nothing more is needed for whole numbers than that
their digits are read (`Json.readNumber_toString`).
-/

namespace GuardedFlow

/-! ## Texts -/

/-- Characters are no surrogates, so each is a unit that stands for itself. -/
theorem Text.ofUnits?_toNat (s : List Char) : ofUnits? (s.map Char.toNat) = some s := by
  have hplain : ∀ c : Char, ¬ (0xD800 ≤ c.toNat ∧ c.toNat < 0xE000) := by
    intro c
    have hvalid : c.toNat < 0xD800 ∨ 0xDFFF < c.toNat ∧ c.toNat < 0x110000 := c.valid
    omega
  induction s with
  | nil => rfl
  | cons c rest ih =>
    have hc := hplain c
    cases rest with
    | nil =>
      rw [List.map_cons, List.map_nil, ofUnits?, if_neg hc, Char.ofNat_toNat]
    | cons next rest =>
      rw [List.map_cons] at ih
      rw [List.map_cons, List.map_cons, ofUnits?, if_neg (by omega), if_neg (by omega), ih,
        Char.ofNat_toNat]
      rfl

namespace Json

variable {units : List Nat} {rest after : List Char}

theorem unit?_control :
    ∀ n < 0x20, unit? '0' '0' (Nat.digitChar (n / 16)) (Nat.digitChar (n % 16)) =
      some n := by decide

theorem readUnits_escapeChar (c : Char) (h : readUnits rest = some (units, after)) :
    readUnits (escapeChar c ++ rest) = some (c.toNat :: units, after) := by
  by_cases hletter : c ∈ ['"', '\\', '\n', '\r', '\t', '\x08', '\x0c']
  · simp only [List.mem_cons, List.not_mem_nil, or_false] at hletter
    rcases hletter with rfl | rfl | rfl | rfl | rfl | rfl | rfl <;> simp [escapeChar,
      readUnits, escaped?, h]
  · simp only [List.mem_cons, List.not_mem_nil, or_false, not_or] at hletter
    obtain ⟨hquote, hbackslash, hn, hr, ht, hb, hf⟩ := hletter
    by_cases hcontrol : c.toNat < 0x20
    · have hescape : escapeChar c =
          ['\\', 'u', '0', '0', Nat.digitChar (c.toNat / 16), Nat.digitChar (c.toNat % 16)] := by
        simp only [escapeChar, hquote, hbackslash, hn, hr, ht, hb, hf, hcontrol, ↓reduceIte]
      simp [hescape, readUnits, unit?_control c.toNat hcontrol, h]
    · have hescape : escapeChar c = [c] := by
        simp only [escapeChar, hquote, hbackslash, hn, hr, ht, hb, hf, hcontrol, ↓reduceIte]
      simp [hescape, readUnits, hbackslash, hcontrol, h]

theorem readUnits_flatMap_escapeChar (s rest : List Char) :
    readUnits (s.flatMap escapeChar ++ '"' :: rest) = some (s.map Char.toNat, rest) := by
  induction s with
  | nil => rfl
  | cons c s ih =>
    rw [List.flatMap_cons, List.append_assoc, readUnits_escapeChar c ih]
    rfl

/-- A text is read back as it was written, whatever follows it. -/
theorem readText_escaped (s : String) (rest : List Char) :
    readText (s.toList.flatMap escapeChar ++ '"' :: rest) = some (some s, rest) := by
  rw [readText, readUnits_flatMap_escapeChar, Option.map_some]
  dsimp only
  rw [Text.ofUnits?_toNat, Option.map_some, String.ofList_toList]

/-! ## Numbers -/

/-- What can follow a document inside another one, or at the end. -/
def Follows (rest : List Char) : Prop := ∀ c ∈ rest.head?, c = ',' ∨ c = ']' ∨ c = '\x7d'

theorem Follows.ne (h : Follows rest) {c : Char} (hc : c ∉ [',', ']', '\x7d']) (s : List Char) :
    rest ≠ c :: s := by
  rintro rfl
  have hhead := h c rfl
  simp only [List.mem_cons, List.not_mem_nil, or_false] at hc
  exact hc hhead

theorem Follows.isDigit (h : Follows rest) : ∀ c ∈ rest.head?, c.isDigit = false := by
  intro c hc
  rcases h c hc with rfl | rfl | rfl <;> rfl

/-- What was left keeps what follows. -/
def followedBy {α : Type} (rest : List Char) (result : α × List Char) : α × List Char :=
  (result.1, result.2 ++ rest)

variable {s : List Char}

theorem readDigits_append (hrest : Follows rest) (s : List Char) :
    readDigits (s ++ rest) = (readDigits s).map (followedBy rest) := by
  have htake : rest.takeWhile Char.isDigit = [] := by
    cases rest with
    | nil => rfl
    | cons c after => exact List.takeWhile_cons_of_neg (Bool.eq_false_iff.1 (hrest.isDigit c rfl))
  have hdrop : rest.dropWhile Char.isDigit = rest := by
    cases rest with
    | nil => rfl
    | cons c after => exact List.dropWhile_cons_of_neg (Bool.eq_false_iff.1 (hrest.isDigit c rfl))
  have htake' : (s ++ rest).takeWhile Char.isDigit = s.takeWhile Char.isDigit := by
    rw [List.takeWhile_append, htake, List.append_nil]
    split
    · next hlength => exact ((List.takeWhile_prefix Char.isDigit).eq_of_length hlength).symm
    · rfl
  have hdrop' : (s ++ rest).dropWhile Char.isDigit = s.dropWhile Char.isDigit ++ rest := by
    rw [List.dropWhile_append, hdrop]
    split
    · next hempty => rw [List.isEmpty_iff.1 hempty, List.nil_append]
    · rfl
  unfold readDigits
  rw [htake', hdrop']
  dsimp only
  split <;> rfl

theorem readWholePart_append (hrest : Follows rest) (s : List Char) :
    readWholePart (s ++ rest) = (readWholePart s).map (followedBy rest) := by
  unfold readWholePart
  rw [readDigits_append hrest]
  cases readDigits s with
  | none => rfl
  | some part =>
    obtain ⟨digits, after⟩ := part
    rw [Option.map_some, followedBy]
    split
    · next heq =>
      cases heq
      rfl
    · next hne =>
      split
      · next heq =>
        cases heq
        exact absurd rfl (hne _ _ _)
      · rfl

theorem readFraction_of_ne (h : ∀ s', s ≠ '.' :: s') : readFraction s = some (none, s) := by
  unfold readFraction
  split
  · next s' => exact absurd rfl (h s')
  · rfl

theorem readFraction_append (hrest : Follows rest) (s : List Char) :
    readFraction (s ++ rest) = (readFraction s).map (followedBy rest) := by
  by_cases hpoint : ∃ s', s = '.' :: s'
  · obtain ⟨s', rfl⟩ := hpoint
    rw [List.cons_append, readFraction, readFraction, readDigits_append hrest, Option.map_map,
      Option.map_map]
    rfl
  · have hne : ∀ s', s ≠ '.' :: s' := not_exists.1 hpoint
    have hne' : ∀ s', s ++ rest ≠ '.' :: s' := by
      cases s with
      | nil => exact hrest.ne (by decide)
      | cons c s =>
        intro s' heq
        exact hne s (by rw [(List.cons.inj heq).1])
    rw [readFraction_of_ne hne, readFraction_of_ne hne']
    rfl

/-- The sign of an exponent, and what follows it. -/
def exponentSign : List Char → Bool × List Char
  | '-' :: r => (true, r)
  | '+' :: r => (false, r)
  | r => (false, r)

theorem readExponent_cons (mark : Char) (s : List Char) : readExponent (mark :: s) =
    if mark = 'e' ∨ mark = 'E' then
      (readDigits (exponentSign s).2).map fun part =>
        (some
          (if (exponentSign s).1 then -(Decimal.ofDigits part.1 : Int)
            else Decimal.ofDigits part.1), part.2)
    else some (none, mark :: s) := by
  rfl

theorem exponentSign_append (hrest : Follows rest) (s : List Char) :
    exponentSign (s ++ rest) = followedBy rest (exponentSign s) := by
  cases s with
  | nil =>
    have hsign : exponentSign rest = (false, rest) := by
      unfold exponentSign
      split
      · next r => exact absurd rfl (hrest.ne (by decide) r)
      · next r => exact absurd rfl (hrest.ne (by decide) r)
      · rfl
    exact hsign
  | cons c s =>
    rw [List.cons_append]
    by_cases hminus : c = '-'
    · subst hminus
      rfl
    · by_cases hplus : c = '+'
      · subst hplus
        rfl
      · simp [exponentSign, hminus, hplus, followedBy]

theorem readExponent_append (hrest : Follows rest) (s : List Char) :
    readExponent (s ++ rest) = (readExponent s).map (followedBy rest) := by
  cases s with
  | nil =>
    cases rest with
    | nil => rfl
    | cons c after =>
      have hmark : ¬ (c = 'e' ∨ c = 'E') := by
        rintro (rfl | rfl)
        · exact hrest.ne (by decide) after rfl
        · exact hrest.ne (by decide) after rfl
      rw [List.nil_append, readExponent_cons, if_neg hmark]
      rfl
  | cons mark s =>
    rw [List.cons_append, readExponent_cons, readExponent_cons, exponentSign_append hrest,
      followedBy, readDigits_append hrest]
    split
    · rw [Option.map_map, Option.map_map]
      rfl
    · rfl

/-- The sign of a number, and what follows it. -/
def sign : List Char → Bool × List Char
  | '-' :: r => (true, r)
  | r => (false, r)

theorem sign_append (hrest : Follows rest) (s : List Char) :
    sign (s ++ rest) = followedBy rest (sign s) := by
  cases s with
  | nil =>
    have hsign : sign rest = (false, rest) := by
      unfold sign
      split
      · next r => exact absurd rfl (hrest.ne (by decide) r)
      · rfl
    exact hsign
  | cons c s =>
    rw [List.cons_append]
    by_cases hminus : c = '-'
    · subst hminus
      rfl
    · simp [sign, hminus, followedBy]

/-- What the parts of a number stand for. -/
def numberOf (negative : Bool) (whole : List Char) (fraction : Option (List Char))
    (exponent : Option Int) : Json :=
  match fraction, exponent with
  | none, none => readWhole negative whole
  | _, _ =>
    match readFloat whole (fraction.getD []) (exponent.getD 0) with
    | some x => number (if negative then x.neg else x)
    | none => unreadable

/-- A number is read part by part. -/
theorem readNumber_parts (s : List Char) : readNumber s =
    match readWholePart (sign s).2 with
    | none => none
    | some (whole, s') =>
      match readFraction s' with
      | none => none
      | some (fraction, s') =>
        match readExponent s' with
        | none => none
        | some (exponent, s') =>
          match fraction, exponent with
          | none, none => some (readWhole (sign s).1 whole, s')
          | _, _ =>
            match readFloat whole (fraction.getD []) (exponent.getD 0) with
            | some x => some (number (if (sign s).1 then x.neg else x), s')
            | none => some (unreadable, s') :=
  rfl

theorem readNumber_eq (s : List Char) : readNumber s = do
    let (whole, s') ← readWholePart (sign s).2
    let (fraction, s') ← readFraction s'
    let (exponent, s') ← readExponent s'
    return (numberOf (sign s).1 whole fraction exponent, s') := by
  rw [readNumber_parts]
  cases readWholePart (sign s).2 with
  | none => rfl
  | some whole =>
    cases hfraction : readFraction whole.2 with
    | none => simp [hfraction]
    | some fraction =>
      cases hexponent : readExponent fraction.2 with
      | none => simp [hfraction, hexponent]
      | some exponent =>
        simp only [hfraction, hexponent, Option.bind_eq_bind, Option.bind_some, numberOf]
        split
        · rfl
        · cases readFloat whole.1 (fraction.1.getD []) (exponent.1.getD 0) <;> rfl

/-- A number is read as if nothing followed it. -/
theorem readNumber_append (hrest : Follows rest) (s : List Char) :
    readNumber (s ++ rest) = (readNumber s).map (followedBy rest) := by
  rw [readNumber_eq, readNumber_eq, sign_append hrest, followedBy, readWholePart_append hrest]
  cases readWholePart (sign s).2 with
  | none => rfl
  | some whole =>
    simp only [Option.map_some, Option.bind_eq_bind, Option.bind_some, followedBy,
      readFraction_append hrest]
    cases readFraction whole.2 with
    | none => rfl
    | some fraction =>
      simp only [Option.map_some, Option.bind_some, followedBy, readExponent_append hrest]
      cases readExponent fraction.2 <;> rfl

/-- A number starts with its sign or a digit. -/
theorem head_of_readNumber {j : Json} (h : readNumber s = some (j, after)) :
    ∃ c s', s = c :: s' ∧ (c = '-' ∨ c.isDigit = true) := by
  cases s with
  | nil => cases h
  | cons c s' =>
    refine ⟨c, s', rfl, Classical.byContradiction fun hc => ?_⟩
    obtain ⟨hminus, hdigit⟩ := not_or.1 hc
    have hsign : sign (c :: s') = (false, c :: s') := by simp [sign, hminus]
    have hdigits : readDigits (c :: s') = none := by
      rw [readDigits, List.takeWhile_cons_of_neg hdigit]
      rfl
    rw [readNumber_eq, hsign, readWholePart, hdigits] at h
    cases h

/-! ## Whole numbers -/

theorem digitsOf_ne_zero_cons {n : Nat} (h : 0 < n) (s : List Char) :
    Decimal.digitsOf n ≠ '0' :: s := by
  have hdigit : ∀ n < 10, 0 < n → Nat.digitChar n ≠ '0' := by decide
  unfold Decimal.digitsOf
  induction n using Nat.strongRecOn generalizing s with
  | _ n ih =>
    by_cases hn : n < 10
    · rw [Nat.toDigits_of_lt_base hn]
      exact fun heq => hdigit n hn h (List.cons.inj heq).1
    · rw [Nat.toDigits_of_base_le (by decide) (Nat.le_of_not_lt hn)]
      intro heq
      obtain ⟨c, r, hfirst⟩ :=
        List.exists_cons_of_ne_nil (Nat.toDigits_ne_nil (b := 10) (n := n / 10))
      rw [hfirst, List.cons_append] at heq
      exact ih (n / 10) (by omega) (by omega) r (hfirst.trans (by rw [(List.cons.inj heq).1]))

/-- The digits of a whole number are read to the end; they start with a zero only if that is all. -/
theorem readWholePart_digitsOf (n : Nat) :
    readWholePart (Decimal.digitsOf n) = some (Decimal.digitsOf n, []) := by
  have hall : ∀ c ∈ Decimal.digitsOf n, c.isDigit = true := Decimal.isDigit_of_mem_digitsOf
  have hne : Decimal.digitsOf n ≠ [] := Nat.toDigits_ne_nil
  have hdigits : readDigits (Decimal.digitsOf n) = some (Decimal.digitsOf n, []) := by
    rw [readDigits, Decimal.takeWhile_isDigit hall, Decimal.dropWhile_isDigit hall]
    exact if_neg (by simp [hne])
  rw [readWholePart, hdigits]
  split
  · next c s' after heq =>
    have heq : Decimal.digitsOf n = '0' :: c :: s' := congrArg Prod.fst (Option.some.inj heq)
    rcases Nat.eq_zero_or_pos n with rfl | hpos
    · cases heq
    · exact absurd heq (digitsOf_ne_zero_cons hpos _)
  · rfl

theorem sign_digitsOf (n : Nat) : sign (Decimal.digitsOf n) = (false, Decimal.digitsOf n) := by
  unfold sign
  split
  · next r heq =>
    have hminus : ('-' : Char).isDigit = true :=
      Decimal.isDigit_of_mem_digitsOf '-' (heq ▸ List.mem_cons_self)
    exact absurd hminus (by decide)
  · rfl

theorem readNumber_digitsOf (n : Nat) :
    readNumber (Decimal.digitsOf n) = some (readWhole false (Decimal.digitsOf n), []) := by
  rw [readNumber_eq, sign_digitsOf, readWholePart_digitsOf]
  rfl

theorem readNumber_minus_digitsOf (n : Nat) :
    readNumber ('-' :: Decimal.digitsOf n) = some (readWhole true (Decimal.digitsOf n), []) := by
  rw [readNumber_eq, sign, readWholePart_digitsOf]
  rfl

/-- A whole number that 64 bits hold is read as it was written. -/
theorem readNumber_toString {i : Int} (hlow : -Nat.pow 2 63 ≤ i) (hhigh : i < Nat.pow 2 64) :
    readNumber (toString i).toList = some (integer i, []) := by
  rw [Int.toString_eq_repr, Int.repr_eq_if]
  split
  · next hpos =>
    have hsmall : i.toNat < significandLimit := (Int.toNat_lt hpos).2 hhigh
    have hwhole : readWhole false (Decimal.digitsOf i.toNat) = integer i := by
      simp only [readWhole, Decimal.ofDigits_digitsOf, hsmall, Bool.false_eq_true, ↓reduceIte,
        Int.toNat_of_nonneg hpos]
    rw [Nat.toList_repr]
    exact (readNumber_digitsOf i.toNat).trans (by rw [hwhole])
  · next hneg =>
    have hne : (-i).toNat ≠ 0 := by omega
    have hsmall : (-i).toNat ≤ Nat.pow 2 63 := by omega
    have hback : -((-i).toNat : Int) = i := by omega
    have hwhole : readWhole true (Decimal.digitsOf (-i).toNat) = integer i := by
      simp only [readWhole, Decimal.ofDigits_digitsOf, hne, hsmall, hback, ↓reduceIte]
    rw [String.toList_append, Nat.toList_repr]
    exact (readNumber_minus_digitsOf (-i).toNat).trans (by rw [hwhole])

end Json

end GuardedFlow
