import GuardedFlow.Number.Round

/-!
# What rounding keeps

A quotient is rounded by its value alone (`Number.ofRatio_mul`), and what is a number already is not
changed (`Number.ofUnits_magnitude`). So a decimal may be written with any count of trailing zeros
(`Number.ofDecimal_shift`).
-/

namespace GuardedFlow.Number

variable {negative : Bool} {num den digits : Nat} {exponent : Int}

/-! ## Quotients -/

theorem nearest_mul {factor : Nat} (hfactor : 0 < factor) :
    nearest (num * factor) (den * factor) = nearest num den := by
  have hlt : ∀ a b : Nat, a * factor < b * factor ↔ a < b := fun a b => Nat.mul_lt_mul_right hfactor
  unfold nearest
  simp only [Nat.mul_div_mul_right num den hfactor, Nat.mul_mod_mul_right, ← Nat.mul_assoc 2, hlt]

theorem nearest_mul_self {count : Nat} (hden : 0 < den) : nearest (count * den) den = count := by
  unfold nearest
  simp only [Nat.mul_div_cancel count hden, Nat.mul_mod_left]
  exact if_pos hden

/-- Equal quotients are rounded alike. -/
theorem ofRatio_mul {factor : Nat} (hfactor : 0 < factor) :
    ofRatio negative (num * factor) (den * factor) = ofRatio negative num den := by
  have hscale : scale (num * factor) (den * factor) = scale num den := by
    rw [scale, scale, Nat.mul_div_mul_right num den hfactor]
  unfold ofRatio
  simp only [hscale, Nat.mul_right_comm den factor, nearest_mul hfactor]

/-! ## Whole units -/

theorem ofRank_rank (e : Fin 2047) (f : Fin (Nat.pow 2 52)) :
    ofRank negative (e.val * Nat.pow 2 52 + f.val) = finite negative e f := by
  have hdiv : (e.val * Nat.pow 2 52 + f.val) / Nat.pow 2 52 = e.val := by
    rw [Nat.add_comm, Nat.add_mul_div_right _ _ (by decide), Nat.div_eq_of_lt f.isLt, Nat.zero_add]
  have hmod : (e.val * Nat.pow 2 52 + f.val) % Nat.pow 2 52 = f.val := by
    rw [Nat.add_comm, Nat.add_mul_mod_self_right, Nat.mod_eq_of_lt f.isLt]
  unfold ofRank
  simp only [hdiv, hmod, e.isLt, dif_pos]

theorem log2_significand {f : Nat} (hf : f < Nat.pow 2 52) (k : Nat) :
    ((Nat.pow 2 52 + f) * Nat.pow 2 k).log2 = 52 + k := by
  have hpos : 0 < Nat.pow 2 k := Nat.two_pow_pos k
  have hne : (Nat.pow 2 52 + f) * Nat.pow 2 k ≠ 0 :=
    Nat.mul_ne_zero (Nat.ne_of_gt (Nat.lt_of_lt_of_le (by decide) (Nat.le_add_right _ f)))
      (Nat.ne_of_gt hpos)
  refine (Nat.log2_eq_iff hne).2 ⟨?_, ?_⟩
  · rw [Nat.pow_add]
    exact Nat.mul_le_mul_right _ (Nat.le_add_right _ f)
  · rw [Nat.add_right_comm, Nat.pow_add]
    have hlt : Nat.pow 2 52 + f < Nat.pow 2 53 :=
      Nat.lt_of_lt_of_eq (Nat.add_lt_add_left hf _) (by decide)
    exact Nat.mul_lt_mul_of_pos_right hlt hpos

/-- **Exactness.** A magnitude is the number that it is the magnitude of. -/
theorem ofUnits_magnitude (e : Fin 2047) (f : Fin (Nat.pow 2 52)) :
    ofUnits (magnitude e f) = finite false e f := by
  have hcount : ofUnits (magnitude e f) = ofRatio false (magnitude e f) 1 := by
    have hnonneg : ¬ ((magnitude e f : Int) < 0) := Int.not_lt.2 (Int.natCast_nonneg _)
    rw [ofUnits, decide_eq_false hnonneg, Int.natAbs_natCast]
  rw [hcount, ← ofRank_rank]
  by_cases he : e.val = 0
  · -- below the least exponent there is one unit to each rank
    have hscale : scale f.val 1 = 0 := by
      rw [scale, Nat.div_one]
      by_cases hf : f.val = 0
      · rw [hf]
        rfl
      · have hlog : f.val.log2 < 52 := (Nat.log2_lt hf).2 f.isLt
        omega
    have hnearest : nearest f.val 1 = f.val := by
      have h : nearest (f.val * 1) 1 = f.val := nearest_mul_self Nat.one_pos
      rwa [Nat.mul_one] at h
    have hden : 1 * Nat.pow 2 0 = 1 := rfl
    rw [magnitude, if_pos he, ofRatio, hscale, he, hden, hnearest, Nat.zero_mul]
  · have hscale : scale ((Nat.pow 2 52 + f.val) * Nat.pow 2 (e.val - 1)) 1 = e.val - 1 := by
      rw [scale, Nat.div_one, log2_significand f.isLt]
      omega
    have hrank : (e.val - 1) * Nat.pow 2 52 + (Nat.pow 2 52 + f.val) =
        e.val * Nat.pow 2 52 + f.val := by
      rw [← Nat.add_assoc, ← Nat.succ_mul, Nat.succ_eq_add_one,
        Nat.sub_add_cancel (Nat.pos_of_ne_zero he)]
    have hpos : 0 < Nat.pow 2 (e.val - 1) := Nat.two_pow_pos _
    rw [magnitude, if_neg he, ofRatio, hscale, Nat.one_mul, nearest_mul_self hpos, hrank]

/-! ## Decimals -/

theorem length_toDigits_mul_ten (hdigits : digits ≠ 0) :
    (Nat.toDigits 10 (digits * 10)).length = (Nat.toDigits 10 digits).length + 1 := by
  have h :=
    Nat.toDigits_append_toDigits (by decide : 1 < 10) (Nat.pos_of_ne_zero hdigits)
      (by decide : 0 < 10)
  rw [Nat.add_zero, Nat.mul_comm, Nat.toDigits_zero] at h
  rw [← h, List.length_append]
  rfl

/-- A trailing zero counts as one in the exponent. -/
theorem ofDecimal_mul_ten :
    ofDecimal negative (digits * 10) exponent = ofDecimal negative digits (exponent + 1) := by
  by_cases hdigits : digits = 0
  · simp only [ofDecimal, hdigits, Nat.zero_mul, if_true]
  · have hten : digits * 10 ≠ 0 := Nat.mul_ne_zero hdigits (by decide)
    have hlength : ((Nat.toDigits 10 (digits * 10)).length : Int) + exponent =
        (Nat.toDigits 10 digits).length + (exponent + 1) := by
      rw [length_toDigits_mul_ten hdigits]
      omega
    have hratio :
        ofRatio negative (digits * 10 * Nat.pow 10 exponent.toNat * unitsPerOne)
          (Nat.pow 10 (-exponent).toNat) =
        ofRatio negative (digits * Nat.pow 10 (exponent + 1).toNat * unitsPerOne)
          (Nat.pow 10 (-(exponent + 1)).toNat) := by
      by_cases hexponent : 0 ≤ exponent
      · have hsucc : (exponent + 1).toNat = exponent.toNat + 1 := by omega
        have hneg : (-exponent).toNat = (-(exponent + 1)).toNat := by omega
        have hpow : Nat.pow 10 (exponent.toNat + 1) = 10 * Nat.pow 10 exponent.toNat :=
          Nat.pow_succ'
        rw [hsucc, hneg, hpow, Nat.mul_assoc digits]
      · have hzero : (exponent + 1).toNat = exponent.toNat := by omega
        have hneg : (-exponent).toNat = (-(exponent + 1)).toNat + 1 := by omega
        have hpow : Nat.pow 10 ((-(exponent + 1)).toNat + 1) =
            Nat.pow 10 (-(exponent + 1)).toNat * 10 := rfl
        rw [hzero, hneg, hpow, Nat.mul_right_comm digits, Nat.mul_right_comm _ 10]
        exact ofRatio_mul (by decide)
    unfold ofDecimal
    simp only [if_neg hdigits, if_neg hten, hlength, hratio]

/-- Trailing zeros count in the exponent. -/
theorem ofDecimal_shift (zeros : Nat) :
    ofDecimal negative (digits * Nat.pow 10 zeros) exponent =
      ofDecimal negative digits (exponent + zeros) := by
  induction zeros generalizing exponent with
  | zero => simp [Nat.pow_eq]
  | succ zeros ih =>
    have hpow : digits * Nat.pow 10 (zeros + 1) = digits * Nat.pow 10 zeros * 10 :=
      (Nat.mul_assoc _ _ _).symm
    have hexponent : exponent + 1 + zeros = exponent + (zeros + 1 : Nat) := by omega
    rw [hpow, ofDecimal_mul_ten, ih, hexponent]

end GuardedFlow.Number
