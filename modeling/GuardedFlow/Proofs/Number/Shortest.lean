import GuardedFlow.Number.Decimal
import GuardedFlow.Proofs.Number.Round

/-!
# Shortest decimals read back

Whatever grid the search for a short decimal stops at, the decimal is read as the number it was made
from (`Decimal.toNumber_shortest`): what is found on a grid has been read already, the exact decimal
is rounded to the number itself, and dropping trailing zeros changes nothing.
-/

namespace GuardedFlow

namespace Number

variable {size : Nat}

/-! ## Exact decimals

The exponents of the format are variables here, so that no power is computed on the way. -/

theorem magnitude_lt_of_le (k : Nat) (e : Fin 2047) (f : Fin (Nat.pow 2 52)) (hk : e.val - 1 ≤ k) :
    magnitude e f < Nat.pow 2 53 * Nat.pow 2 k := by
  have hpos : ∀ n : Nat, 0 < Nat.pow 2 n := fun n => Nat.two_pow_pos n
  unfold magnitude
  split
  · exact Nat.lt_of_lt_of_le (Nat.lt_trans f.isLt (by decide)) (Nat.le_mul_of_pos_right _ (hpos k))
  · have hlt : Nat.pow 2 52 + f.val < Nat.pow 2 53 :=
      Nat.lt_of_lt_of_eq (Nat.add_lt_add_left f.isLt _) (by decide)
    have hle : Nat.pow 2 (e.val - 1) ≤ Nat.pow 2 k := Nat.pow_le_pow_right (by decide) hk
    exact Nat.mul_lt_mul_of_lt_of_le hlt hle (hpos _)

theorem lt_length_toDigits {n lower : Nat} (hlower : 0 < lower) (h : Nat.pow 10 lower ≤ n) :
    lower < (Nat.toDigits 10 n).length := by
  refine Nat.lt_of_not_le fun hshort => ?_
  have hlt : n < Nat.pow 10 lower := (Nat.length_toDigits_le_iff (by decide) hlower).1 hshort
  exact absurd h (Nat.not_le.2 hlt)

theorem ofUnits_natCast (size : Nat) : ofUnits size = ofRatio false size 1 := by
  have hnonneg : ¬ ((size : Int) < 0) := Int.not_lt.2 (Int.natCast_nonneg _)
  rw [ofUnits, decide_eq_false hnonneg, Int.natAbs_natCast]

/-- The decimal expansion of a count of units is rounded to the count itself. -/
theorem ofDecimal_mul_five_pow (n k : Nat) (hunits : unitsPerOne = Nat.pow 2 n) (hn : 400 < n)
    (hpos : 0 < size) (hsize : size < Nat.pow 2 53 * Nat.pow 2 k)
    (hlower : Nat.pow 10 (n - 400) ≤ Nat.pow 5 n)
    (hupper : Nat.pow 2 53 * Nat.pow 2 k * Nat.pow 5 n ≤ Nat.pow 10 (n + 400)) :
    ofDecimal false (size * Nat.pow 5 n) (-n) = ofUnits size := by
  have hfive : 0 < Nat.pow 5 n := Nat.pow_pos (by decide)
  have hten : 0 < Nat.pow 10 n := Nat.pow_pos (by decide)
  have hlong : n - 400 < (Nat.toDigits 10 (size * Nat.pow 5 n)).length :=
    lt_length_toDigits (Nat.sub_pos_of_lt hn) (Nat.le_trans hlower (Nat.le_mul_of_pos_left _ hpos))
  have hshort : (Nat.toDigits 10 (size * Nat.pow 5 n)).length ≤ n + 400 :=
    (Nat.length_toDigits_le_iff (by decide) (Nat.add_pos_right n (by decide))).2
      (Nat.lt_of_lt_of_le (Nat.mul_lt_mul_of_pos_right hsize hfive) hupper)
  have hnum : size * Nat.pow 5 n * Nat.pow 10 (-(n : Int)).toNat * unitsPerOne =
      size * Nat.pow 10 n := by
    have hpow : Nat.pow 10 n = Nat.pow 5 n * Nat.pow 2 n := Nat.mul_pow 5 2 n
    have hzero : (-(n : Int)).toNat = 0 := by omega
    rw [hzero, hunits, hpow, show Nat.pow 10 0 = 1 from rfl, Nat.mul_one, Nat.mul_assoc]
  have hden : Nat.pow 10 (-(-(n : Int))).toNat = 1 * Nat.pow 10 n := by
    rw [Int.neg_neg, Int.toNat_natCast, Nat.one_mul]
  unfold ofDecimal
  simp only
  rw [if_neg (Nat.ne_of_gt (Nat.mul_pos hpos hfive)), if_neg (by omega), if_neg (by omega), hnum,
    hden, ofRatio_mul hten, ofUnits_natCast]

end Number

namespace Decimal

variable {tie : Tie} {size : Nat} {exponent : Int} {negative : Bool} {d : Decimal}

theorem toNumber_onGrid (h : onGrid tie size exponent = some d) :
    d.toNumber false = Number.ofUnits size := by
  unfold onGrid at h
  simp only at h
  split at h
  · cases h
  · next hlower _ =>
    cases h
    exact of_decide_eq_true hlower
  · next _ hupper =>
    cases h
    exact of_decide_eq_true hupper
  · next hlower hupper =>
    -- whichever neighbour is taken, both have been read
    have hlower := of_decide_eq_true hlower
    have hupper := of_decide_eq_true hupper
    split at h
    · cases h
      exact hlower
    · cases h
      exact hupper
    · cases h
      exact hupper
    · cases h
      unfold toNumber
      split
      · exact hlower
      · exact hupper

theorem toNumber_strip (fuel : Nat) (d : Decimal) :
    (strip fuel d).toNumber negative = d.toNumber negative := by
  induction fuel generalizing d with
  | zero => rfl
  | succ fuel ih =>
    rw [strip]
    split
    · next h =>
      have hdigits : d.digits / 10 * 10 = d.digits :=
        Nat.div_mul_cancel (Nat.dvd_of_mod_eq_zero h.2)
      rw [ih, toNumber, toNumber, ← Number.ofDecimal_mul_ten, hdigits]
    · rfl

theorem exact_eq (size : Nat) : exact size = ⟨size * Nat.pow 5 1074, -(1074 : Nat)⟩ := rfl

/-- The exponents of the least and of the greatest magnitude, and what they have to do with powers
of ten. -/
theorem exists_exponents : ∃ n k : Nat, 400 < n ∧ (∀ e : Fin 2047, e.val - 1 ≤ k) ∧
    Number.unitsPerOne = Nat.pow 2 n ∧ Nat.pow 10 (n - 400) ≤ Nat.pow 5 n ∧
    Nat.pow 2 53 * Nat.pow 2 k * Nat.pow 5 n ≤ Nat.pow 10 (n + 400) ∧
    ∀ size, exact size = ⟨size * Nat.pow 5 n, -n⟩ := by
  have hn : 400 < 1074 := by decide
  have hk : ∀ e : Fin 2047, e.val - 1 ≤ 2045 :=
    fun e => Nat.sub_le_of_le_add (Nat.le_of_lt_succ e.isLt)
  have hunits : Number.unitsPerOne = Nat.pow 2 1074 := by decide +kernel
  have hlower : Nat.pow 10 (1074 - 400) ≤ Nat.pow 5 1074 := by decide +kernel
  have hupper : Nat.pow 2 53 * Nat.pow 2 2045 * Nat.pow 5 1074 ≤ Nat.pow 10 (1074 + 400) := by
    decide +kernel
  have hexact := exact_eq
  -- the powers are compared above, and must not be computed again where the facts are put together
  generalize 1074 = n at hn hunits hlower hupper hexact
  generalize 2045 = k at hk hupper
  exact ⟨n, k, hn, hk, hunits, hlower, hupper, hexact⟩

theorem toNumber_exact {e : Fin 2047} {f : Fin (Nat.pow 2 52)}
    (hpos : 0 < Number.magnitude e f) :
    (exact (Number.magnitude e f)).toNumber false = Number.ofUnits (Number.magnitude e f) := by
  obtain ⟨n, k, hn, hk, hunits, hlower, hupper, hexact⟩ := exists_exponents
  rw [hexact]
  exact Number.ofDecimal_mul_five_pow n k hunits hn hpos (Number.magnitude_lt_of_le k e f (hk e))
    hlower hupper

/-- **Shortest decimals.** What is found for a positive magnitude is read as that magnitude. -/
theorem toNumber_shortest {e : Fin 2047} {f : Fin (Nat.pow 2 52)}
    (hpos : 0 < Number.magnitude e f) :
    (shortest tie (Number.magnitude e f)).toNumber false = .finite false e f := by
  unfold shortest
  simp only
  rw [toNumber_strip, ← Number.ofUnits_magnitude]
  cases hfound : (List.range 17).findSome? fun n =>
      onGrid tie (Number.magnitude e f) (leading (Number.magnitude e f) - (n + 1 : Nat)) with
  | none => exact toNumber_exact hpos
  | some d =>
    obtain ⟨n, -, hgrid⟩ := List.exists_of_findSome?_eq_some hfound
    exact toNumber_onGrid hgrid

end Decimal

end GuardedFlow
