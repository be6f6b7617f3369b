import GuardedFlow.Operand.Basic
import GuardedFlow.Proofs.Number.Shortest

/-!
# Numbers read back

What is written for a finite number is read as its absolute value (`Number.denotes_magnitudeText`),
since the sign is written apart. Among words it stands for a literal (`Operand.ofWord_of_denotes`).
-/

namespace GuardedFlow

namespace Decimal

variable {digits whole fraction : List Char} {exponent : Int}

/-! ## Digits -/

theorem ofDigits_eq (s : List Char) : ofDigits s = Nat.ofDigitChars 10 s 0 := by
  rw [Nat.ofDigitChars_eq_foldl]
  rfl

theorem ofDigits_digitsOf (n : Nat) : ofDigits (digitsOf n) = n := by
  rw [ofDigits_eq]
  exact Nat.ofDigitChars_ten_toDigits

theorem ofDigits_zeros_append (zeros : Nat) (s : List Char) :
    ofDigits (List.replicate zeros '0' ++ s) = ofDigits s := by
  rw [ofDigits_eq, ofDigits_eq, Nat.ofDigitChars_append, Nat.ofDigitChars_replicate_zero,
    Nat.mul_zero]

theorem ofDigits_append_zeros (s : List Char) (zeros : Nat) :
    ofDigits (s ++ List.replicate zeros '0') = ofDigits s * Nat.pow 10 zeros := by
  rw [ofDigits_eq, ofDigits_eq, Nat.ofDigitChars_append, Nat.ofDigitChars_replicate_zero,
    Nat.mul_comm]
  rfl

theorem isDigit_of_mem_digitsOf {n : Nat} : ∀ c ∈ digitsOf n, c.isDigit = true :=
  fun _ => Nat.isDigit_of_mem_toDigits (by decide) (by decide)

/-! ## Positional notation -/

theorem takeWhile_isDigit {s : List Char} (h : ∀ c ∈ s, c.isDigit = true) :
    s.takeWhile Char.isDigit = s := by
  have happend : (s ++ []).takeWhile Char.isDigit = s ++ [].takeWhile Char.isDigit :=
    List.takeWhile_append_of_pos h
  rwa [List.append_nil, List.takeWhile_nil, List.append_nil] at happend

theorem dropWhile_isDigit {s : List Char} (h : ∀ c ∈ s, c.isDigit = true) :
    s.dropWhile Char.isDigit = [] := by
  have happend : (s ++ []).dropWhile Char.isDigit = [].dropWhile Char.isDigit :=
    List.dropWhile_append_of_pos h
  rwa [List.append_nil, List.dropWhile_nil] at happend

theorem parse?_whole (hwhole : ∀ c ∈ whole, c.isDigit = true) (hne : whole ≠ []) :
    parse? whole = some ⟨ofDigits whole, 0⟩ := by
  have htake : whole.takeWhile Char.isDigit = whole := takeWhile_isDigit hwhole
  have hdrop : whole.dropWhile Char.isDigit = [] := dropWhile_isDigit hwhole
  simp [parse?, htake, hdrop, hne]

theorem parse?_point (hwhole : ∀ c ∈ whole, c.isDigit = true)
    (hfraction : ∀ c ∈ fraction, c.isDigit = true) (hne : whole ≠ []) :
    parse? (whole ++ '.' :: fraction) = some ⟨ofDigits (whole ++ fraction), -fraction.length⟩ := by
  have hpoint : ¬ ('.' : Char).isDigit = true := by decide
  have htake : (whole ++ '.' :: fraction).takeWhile Char.isDigit = whole := by
    rw [List.takeWhile_append_of_pos hwhole, List.takeWhile_cons_of_neg hpoint, List.append_nil]
  have hdrop : (whole ++ '.' :: fraction).dropWhile Char.isDigit = '.' :: fraction := by
    rw [List.dropWhile_append_of_pos hwhole, List.dropWhile_cons_of_neg hpoint]
  have htake' : fraction.takeWhile Char.isDigit = fraction := takeWhile_isDigit hfraction
  have hdrop' : fraction.dropWhile Char.isDigit = [] := dropWhile_isDigit hfraction
  simp [parse?, htake, hdrop, htake', hdrop', hne]

/-- Digits with at most one point, the first character a digit. -/
structure Positional (s : List Char) : Prop where
  head : ∃ c rest, s = c :: rest ∧ c.isDigit = true
  all : ∀ c ∈ s, c.isDigit = true ∨ c = '.'

theorem Positional.of_digits (hdigits : ∀ c ∈ digits, c.isDigit = true) (hne : digits ≠ []) :
    Positional digits := by
  obtain ⟨c, rest, rfl⟩ := List.exists_cons_of_ne_nil hne
  exact ⟨⟨c, rest, rfl, hdigits c List.mem_cons_self⟩, fun c hc => .inl (hdigits c hc)⟩

theorem Positional.of_point (hwhole : ∀ c ∈ whole, c.isDigit = true)
    (hfraction : ∀ c ∈ fraction, c.isDigit = true) (hne : whole ≠ []) :
    Positional (whole ++ '.' :: fraction) := by
  obtain ⟨c, rest, rfl⟩ := List.exists_cons_of_ne_nil hne
  refine ⟨⟨c, rest ++ '.' :: fraction, rfl, hwhole c List.mem_cons_self⟩, fun c' hc' => ?_⟩
  rcases List.mem_append.1 hc' with hc' | hc'
  · exact .inl (hwhole c' hc')
  · rcases List.mem_cons.1 hc' with rfl | hc'
    · exact .inr rfl
    · exact .inl (hfraction c' hc')

theorem isDigit_append_zeros (hdigits : ∀ c ∈ digits, c.isDigit = true) (zeros : Nat) :
    (∀ c ∈ digits ++ List.replicate zeros '0', c.isDigit = true) ∧
      ∀ c ∈ List.replicate zeros '0' ++ digits, c.isDigit = true := by
  have hzeros : ∀ c ∈ List.replicate zeros '0', c.isDigit = true := fun c hc => by
    rw [List.eq_of_mem_replicate hc]
    rfl
  exact ⟨List.forall_mem_append.2 ⟨hdigits, hzeros⟩, List.forall_mem_append.2 ⟨hzeros, hdigits⟩⟩

/-- Characters in positional notation that are read as a number. -/
structure Denotes (s : List Char) (x : Number) : Prop where
  positional : Positional s
  parse : ∃ d, parse? s = some d ∧ d.toNumber false = x

/-- What is written out for a decimal is read as the number that it stands for. -/
theorem denotes_positional (d : Decimal) :
    Denotes (positional (digitsOf d.digits) d.exponent) (d.toNumber false) := by
  obtain ⟨n, exponent⟩ := d
  have hdigits : ∀ c ∈ digitsOf n, c.isDigit = true := isDigit_of_mem_digitsOf
  have hne : digitsOf n ≠ [] := Nat.toDigits_ne_nil
  unfold positional
  by_cases hexponent : 0 ≤ exponent
  · have hall := (isDigit_append_zeros hdigits exponent.toNat).1
    have hne' : digitsOf n ++ List.replicate exponent.toNat '0' ≠ [] :=
      List.append_ne_nil_of_left_ne_nil hne _
    rw [if_pos hexponent]
    refine ⟨.of_digits hall hne', _, parse?_whole hall hne', ?_⟩
    rw [ofDigits_append_zeros, ofDigits_digitsOf, toNumber, toNumber, Number.ofDecimal_shift,
      Int.zero_add, Int.toNat_of_nonneg hexponent]
  · rw [if_neg hexponent]
    simp only
    generalize hplaces : (-exponent).toNat = places
    have hback : -(places : Int) = exponent := by omega
    by_cases hfew : places < (digitsOf n).length
    · have hwhole : ∀ c ∈ (digitsOf n).take ((digitsOf n).length - places), c.isDigit = true :=
        fun c hc => hdigits c (List.mem_of_mem_take hc)
      have hfraction : ∀ c ∈ (digitsOf n).drop ((digitsOf n).length - places), c.isDigit = true :=
        fun c hc => hdigits c (List.mem_of_mem_drop hc)
      have hne' : (digitsOf n).take ((digitsOf n).length - places) ≠ [] := by
        rw [← List.length_pos_iff, List.length_take]
        omega
      have hlength : ((digitsOf n).drop ((digitsOf n).length - places)).length = places := by
        rw [List.length_drop]
        omega
      rw [if_pos hfew]
      refine ⟨.of_point hwhole hfraction hne', _, parse?_point hwhole hfraction hne', ?_⟩
      rw [List.take_append_drop, hlength, ofDigits_digitsOf, hback]
    · have hwhole : ∀ c ∈ ['0'], c.isDigit = true := by simp
      have hfraction := (isDigit_append_zeros hdigits (places - (digitsOf n).length)).2
      have hlength :
          (List.replicate (places - (digitsOf n).length) '0' ++ digitsOf n).length = places := by
        rw [List.length_append, List.length_replicate]
        omega
      rw [if_neg hfew]
      have hne' : ['0'] ≠ [] := List.cons_ne_nil _ _
      refine ⟨.of_point hwhole hfraction hne', _, parse?_point hwhole hfraction hne', ?_⟩
      rw [hlength, show ['0'] = List.replicate 1 '0' from rfl, ofDigits_zeros_append,
        ofDigits_zeros_append, ofDigits_digitsOf, hback]

end Decimal

namespace Number

variable {x : Number}

theorem natAbs_units (negative : Bool) (e : Fin 2047) (f : Fin (Nat.pow 2 52)) :
    (finite negative e f).units.natAbs = magnitude e f := by
  cases negative with
  | false => exact Int.natAbs_natCast _
  | true => exact (Int.natAbs_neg _).trans (Int.natAbs_natCast _)

/-- The units of a whole number. -/
theorem natAbs_toInt? {i : Int} (h : x.toInt? = some i) :
    i.natAbs * unitsPerOne = x.units.natAbs := by
  cases x with
  | finite negative e f =>
    rw [toInt?] at h
    split at h
    · next hmod =>
      cases h
      have hmul : (finite negative e f).units / unitsPerOne * unitsPerOne =
          (finite negative e f).units :=
        Int.ediv_mul_cancel (Int.dvd_of_emod_eq_zero hmod)
      have habs := congrArg Int.natAbs hmul
      rwa [Int.natAbs_mul, Int.natAbs_natCast] at habs
    · cases h
  | _ => cases h

theorem ofDecimal_natCast {n : Nat} (hn : n < wholeLimit) :
    ofDecimal false n 0 = ofUnits (n * unitsPerOne : Nat) := by
  have hlength : (Nat.toDigits 10 n).length ≤ 15 :=
    (Nat.length_toDigits_le_iff (by decide) (by decide)).2 hn
  rcases Nat.eq_zero_or_pos n with rfl | hpos
  · have hunits : ofUnits (0 : Nat) = finite false 0 ⟨0, by decide⟩ :=
      ofUnits_magnitude 0 ⟨0, by decide⟩
    rw [Nat.zero_mul, hunits, ofDecimal, if_pos rfl]
    rfl
  · have hratio : n * Nat.pow 10 (0 : Int).toNat * unitsPerOne = n * unitsPerOne := by
      rw [show Nat.pow 10 (0 : Int).toNat = 1 from rfl, Nat.mul_one]
    unfold ofDecimal
    simp only
    rw [if_neg (Nat.ne_of_gt hpos), if_neg (by omega), if_neg (by omega), hratio, ofUnits_natCast]
    rfl

theorem denotes_shortest {tie : Tie} {e : Fin 2047} {f : Fin (Nat.pow 2 52)}
    (hne : magnitude e f ≠ 0) :
    Decimal.Denotes
      (Decimal.positional (Decimal.digitsOf (Decimal.shortest tie (magnitude e f)).digits)
        (Decimal.shortest tie (magnitude e f)).exponent) (finite false e f) := by
  have h := Decimal.denotes_positional (Decimal.shortest tie (magnitude e f))
  rwa [Decimal.toNumber_shortest (Nat.pos_of_ne_zero hne)] at h

/-- **Magnitudes.** What is written for a finite number is read as its absolute value. -/
theorem denotes_magnitudeText (h : x.isFinite = true) : Decimal.Denotes x.magnitudeText x.abs := by
  cases x with
  | finite negative e f =>
    unfold magnitudeText
    rw [natAbs_units]
    cases hint : (finite negative e f).toInt? with
    | none =>
      refine denotes_shortest fun hzero => ?_
      have hunits : (finite negative e f).units = 0 :=
        Int.natAbs_eq_zero.1 ((natAbs_units negative e f).trans hzero)
      rw [toInt?, hunits, Int.zero_emod, if_pos rfl] at hint
      cases hint
    | some i =>
      have hcount := natAbs_toInt? hint
      rw [natAbs_units] at hcount
      by_cases hlimit : i.natAbs < wholeLimit
      · have hdigits : ∀ c ∈ Decimal.digitsOf i.natAbs, c.isDigit = true :=
          Decimal.isDigit_of_mem_digitsOf
        have hne : Decimal.digitsOf i.natAbs ≠ [] := Nat.toDigits_ne_nil
        simp only [if_pos hlimit]
        refine ⟨.of_digits hdigits hne, _, Decimal.parse?_whole hdigits hne, ?_⟩
        rw [Decimal.ofDigits_digitsOf, Decimal.toNumber, ofDecimal_natCast hlimit, hcount,
          ofUnits_magnitude]
        rfl
      · simp only [if_neg hlimit]
        refine denotes_shortest fun hzero => ?_
        rw [hzero] at hcount
        rcases Nat.mul_eq_zero.1 hcount with hi | hunits
        · exact hlimit (by rw [hi]; decide)
        · exact absurd hunits (by decide +kernel)
  | _ => cases h

theorem parse?_of_denotes {s : List Char} (h : Decimal.Denotes s x) :
    parse? (String.ofList s) = some x := by
  obtain ⟨⟨⟨c, rest, rfl, hc⟩, -⟩, d, hparse, hnumber⟩ := h
  have hread : parseUnsigned? false (c :: rest) = some x := by
    rw [parseUnsigned?, hparse]
    exact congrArg some hnumber
  unfold parse?
  rw [String.toList_ofList]
  split
  · next hminus =>
    cases hminus
    cases hc
  · next hplus =>
    cases hplus
    cases hc
  · exact hread

end Number

theorem Text.isAlpha_eq_false_of_isDigit {c : Char} (h : c.isDigit = true) : c.isAlpha = false := by
  have hle : c.val ≤ '9'.val := of_decide_eq_true (Bool.and_eq_true_iff.1 h).2
  have hupper : c.isUpper = false :=
    decide_eq_false fun h => absurd (UInt32.le_trans h.1 hle) (by decide)
  have hlower : c.isLower = false := Bool.eq_false_iff.2 fun h =>
    absurd (UInt32.le_trans (of_decide_eq_true (Bool.and_eq_true_iff.1 h).1) hle) (by decide)
  exact Bool.or_eq_false_iff.2 ⟨hupper, hlower⟩

/-- A word in positional notation is a literal. -/
theorem Operand.ofWord_of_denotes {s : List Char} {x : Number} (h : Decimal.Denotes s x) :
    ofWord (String.ofList s) = .literal (.number x) := by
  obtain ⟨c, rest, hs, hc⟩ := h.positional.head
  have hletter := Text.isAlpha_eq_false_of_isDigit hc
  have hne : ∀ text : String, text.toList.head?.any Char.isDigit = false →
      String.ofList s ≠ text := by
    rintro text htext rfl
    rw [String.toList_ofList, hs, List.head?_cons, Option.any_some, hc] at htext
    cases htext
  rw [ofWord, if_neg (hne _ rfl), if_neg (hne _ rfl), if_neg (hne _ rfl),
    Number.parse?_of_denotes h]
  simp [hs, hletter]

end GuardedFlow
