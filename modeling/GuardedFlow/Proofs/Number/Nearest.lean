import GuardedFlow.Proofs.Number.Text

/-!
# Whole numbers are rounded to the nearest

A whole number that no value is equal to becomes the nearest one (`Number.nearest_iff_eq_ofInt`).
What is near is said of all finite values (`Number.Nearest`), whatever their scale: those of the
scale that is rounded at are the multiples of a power of two, and of a smaller scale none is nearer
than the least of these (`Number.dvd_magnitude_or_lt`).
-/

namespace GuardedFlow.Number

variable {num den n e : Nat} {x y : Number} {i : Int}

/-- How far a number is from a whole number, in units. -/
def distance (x : Number) (i : Int) : Nat := (x.units - i * unitsPerOne).natAbs

/-- `x` is the number nearest to the whole number `i`: no finite number is nearer, of two that are
as near it is the one with the even significand, and it has the sign of `i`, where nothing has the
positive one. -/
structure Nearest (x : Number) (i : Int) : Prop where
  isFinite : x.isFinite = true
  distance_le : ∀ y : Number, y.isFinite = true → x.distance i ≤ y.distance i
  even_of_tie : ∀ y : Number, y.isFinite = true → y.units ≠ x.units →
    y.distance i = x.distance i → x.rank % 2 = 0
  isNegative_eq : x.isNegative = decide (i < 0)

/-! ## Multiples

How far a count is from another one is written out as `((a : Int) - b).natAbs`. -/

/-- The quotient is rounded to one of its two neighbours, by the remainder. -/
theorem nearest_cases (num den : Nat) :
    (nearest num den = num / den ∧
      (2 * (num % den) < den ∨ 2 * (num % den) = den ∧ num / den % 2 = 0)) ∨
      (nearest num den = num / den + 1 ∧
        (den < 2 * (num % den) ∨ 2 * (num % den) = den ∧ num / den % 2 = 1)) := by
  unfold nearest
  simp only
  split
  · next hlow => exact .inl ⟨rfl, .inl hlow⟩
  · split
    · next hhigh => exact .inr ⟨rfl, .inl hhigh⟩
    · split
      · next heven => exact .inl ⟨rfl, .inr ⟨by omega, heven⟩⟩
      · next hodd => exact .inr ⟨rfl, .inr ⟨by omega, by omega⟩⟩

/-- No multiple is nearer, and another one is as near only if the quotient is even. -/
theorem nearest_spec (num : Nat) (hden : 0 < den) (n : Nat) :
    ((nearest num den * den : Nat) - (num : Int)).natAbs ≤ ((n * den : Nat) - (num : Int)).natAbs ∧
      (n ≠ nearest num den →
        ((n * den : Nat) - (num : Int)).natAbs =
          ((nearest num den * den : Nat) - (num : Int)).natAbs →
        nearest num den % 2 = 0) := by
  have hnum : num / den * den + num % den = num := Nat.div_add_mod' num den
  have hmod : num % den < den := Nat.mod_lt _ hden
  have hsucc : (num / den + 1) * den = num / den * den + den := Nat.succ_mul _ _
  -- where the multiple stands: below the two neighbours, at one of them, or above them
  have hplace : n * den + den ≤ num / den * den ∨ n = num / den ∨ n = num / den + 1 ∨
      num / den * den + den + den ≤ n * den := by
    rcases Nat.lt_trichotomy n (num / den) with hlt | heq | hgt
    · exact .inl (Nat.succ_mul n den ▸ Nat.mul_le_mul_right den hlt)
    · exact .inr (.inl heq)
    · rcases Nat.lt_or_eq_of_le (Nat.succ_le_of_lt hgt) with hlt | heq
      · refine .inr (.inr (.inr ?_))
        rw [← hsucc, ← Nat.succ_mul]
        exact Nat.mul_le_mul_right den hlt
      · exact .inr (.inr (.inl heq.symm))
  have hcases := nearest_cases num den
  generalize nearest num den = q at *
  generalize num / den = below at *
  generalize num % den = rest at *
  have hdistance : ∀ a : Nat, ((a : Int) - num).natAbs = a - num + (num - a) := fun a => by omega
  simp only [hdistance]
  rcases hcases with ⟨rfl, hside⟩ | ⟨rfl, hside⟩ <;>
    rcases hplace with hlt | rfl | rfl | hgt <;> omega

/-! ## Scales -/

/-- Magnitudes of smaller exponents are below all significands that fill the scale. -/
theorem magnitude_lt_scale {k e f : Nat} (hf : f < Nat.pow 2 52) (he : e ≤ k) :
    magnitude e f < Nat.pow 2 52 * Nat.pow 2 k := by
  have hpos : ∀ n : Nat, 0 < Nat.pow 2 n := fun n => Nat.two_pow_pos n
  unfold magnitude
  split
  · exact Nat.lt_of_lt_of_le hf (Nat.le_mul_of_pos_right _ (hpos k))
  · next hne =>
    have hsignificand : Nat.pow 2 52 + f < Nat.pow 2 52 * 2 := by omega
    have hscale : 2 * Nat.pow 2 (e - 1) ≤ Nat.pow 2 k :=
      Nat.le_trans (Nat.le_of_eq (Nat.mul_comm _ _))
        (Nat.pow_le_pow_right Nat.two_pos (show e - 1 + 1 ≤ k by omega))
    calc (Nat.pow 2 52 + f) * Nat.pow 2 (e - 1)
        < Nat.pow 2 52 * 2 * Nat.pow 2 (e - 1) := Nat.mul_lt_mul_of_pos_right hsignificand (hpos _)
      _ = Nat.pow 2 52 * (2 * Nat.pow 2 (e - 1)) := Nat.mul_assoc _ _ _
      _ ≤ Nat.pow 2 52 * Nat.pow 2 k := Nat.mul_le_mul_left _ hscale

/-- At a scale a magnitude is a multiple of the scale's power of two, or below all significands that
fill it. -/
theorem dvd_magnitude_or_lt (k e : Nat) {f : Nat} (hf : f < Nat.pow 2 52) :
    Nat.pow 2 k ∣ magnitude e f ∨ k ≠ 0 ∧ magnitude e f < Nat.pow 2 52 * Nat.pow 2 k := by
  by_cases hk : k = 0
  · subst hk
    exact .inl (Nat.one_dvd _)
  · rcases Nat.lt_or_ge k e with hlt | hge
    · rw [magnitude, if_neg (Nat.ne_of_gt (Nat.zero_lt_of_lt hlt))]
      exact .inl (Nat.dvd_mul_left_of_dvd (Nat.pow_dvd_pow 2 (Nat.le_sub_one_of_lt hlt)) _)
    · exact .inr ⟨hk, magnitude_lt_scale hf hge⟩

/-- The fields of a rank that is made from a significand and its scale have the magnitude of the
two, also where the significand has been rounded up to the next power of two. -/
theorem magnitude_of_significand {k q : Nat} (hq : q ≤ Nat.pow 2 53)
    (hk : k = 0 ∨ Nat.pow 2 52 ≤ q) :
    magnitude ((k * Nat.pow 2 52 + q) / Nat.pow 2 52) ((k * Nat.pow 2 52 + q) % Nat.pow 2 52) =
      q * Nat.pow 2 k := by
  have hpos : 0 < Nat.pow 2 52 := Nat.two_pow_pos 52
  have hdouble : Nat.pow 2 53 = Nat.pow 2 52 + Nat.pow 2 52 := by decide
  rw [Nat.mul_add_mod', Nat.add_comm, Nat.add_mul_div_right _ _ hpos]
  rcases Nat.lt_or_ge q (Nat.pow 2 52) with hlow | hhigh
  · obtain rfl : k = 0 := hk.resolve_right (Nat.not_le.2 hlow)
    rw [Nat.div_eq_of_lt hlow, Nat.mod_eq_of_lt hlow]
    exact (Nat.mul_one q).symm
  · obtain ⟨f, rfl⟩ := Nat.exists_eq_add_of_le hhigh
    have hne : (f / Nat.pow 2 52).succ + k ≠ 0 := Nat.ne_of_gt (Nat.add_pos_left (Nat.succ_pos _) k)
    rw [Nat.add_mod_left, Nat.add_div_left _ hpos]
    rcases Nat.lt_or_eq_of_le (show f ≤ Nat.pow 2 52 by omega) with hlt | rfl
    · have hexponent : (f / Nat.pow 2 52).succ + k - 1 = k := by rw [Nat.div_eq_of_lt hlt]; omega
      rw [Nat.mod_eq_of_lt hlt, magnitude, if_neg hne, hexponent]
    · have hexponent : (Nat.pow 2 52 / Nat.pow 2 52).succ + k - 1 = k + 1 := by
        rw [Nat.div_self hpos]; omega
      have hscale : Nat.pow 2 (k + 1) = 2 * Nat.pow 2 k := Nat.pow_succ'
      rw [Nat.mod_self, magnitude, if_neg hne, hexponent, hscale,
        Nat.add_zero, ← Nat.mul_assoc, Nat.mul_two]

/-- The significand of a count of units fits in 53 bits, and fills them where the count is scaled
down. -/
theorem nearest_scale (size : Nat) :
    nearest size (Nat.pow 2 (scale size 1)) ≤ Nat.pow 2 53 ∧
      (scale size 1 = 0 ∨ Nat.pow 2 52 * Nat.pow 2 (scale size 1) ≤ size ∧
        Nat.pow 2 52 ≤ nearest size (Nat.pow 2 (scale size 1))) := by
  have hpos : 0 < Nat.pow 2 (scale size 1) := Nat.two_pow_pos _
  have hscale : scale size 1 = size.log2 - 52 := by rw [scale, Nat.div_one]
  have hlow : nearest size (Nat.pow 2 (scale size 1)) = size / Nat.pow 2 (scale size 1) ∨
      nearest size (Nat.pow 2 (scale size 1)) = size / Nat.pow 2 (scale size 1) + 1 :=
    (nearest_cases _ _).imp And.left And.left
  have hupper : size / Nat.pow 2 (scale size 1) < Nat.pow 2 53 := by
    refine Nat.div_lt_of_lt_mul (Nat.lt_of_lt_of_le Nat.lt_log2_self ?_)
    have hadd : Nat.pow 2 (scale size 1) * Nat.pow 2 53 = Nat.pow 2 (scale size 1 + 53) :=
      (Nat.pow_add 2 _ 53).symm
    rw [hadd]
    exact Nat.pow_le_pow_right Nat.two_pos (by omega)
  refine ⟨by omega, ?_⟩
  by_cases hzero : scale size 1 = 0
  · exact .inl hzero
  · have hfull : Nat.pow 2 52 * Nat.pow 2 (scale size 1) ≤ size := by
      have hadd : Nat.pow 2 52 * Nat.pow 2 (scale size 1) = Nat.pow 2 (52 + scale size 1) :=
        (Nat.pow_add 2 52 _).symm
      have hlog : 52 + scale size 1 = size.log2 := by omega
      have hne : size ≠ 0 := by
        rintro rfl
        exact hzero rfl
      rw [hadd, hlog]
      exact Nat.log2_self_le hne
    have hquotient : Nat.pow 2 52 ≤ size / Nat.pow 2 (scale size 1) :=
      (Nat.le_div_iff_mul_le hpos).2 hfull
    exact .inr ⟨hfull, by omega⟩

/-- No magnitude is nearer to the count than the one with the given fields, and another one is as
near only if the fraction is even. -/
def NearestMagnitude (size e f : Nat) : Prop :=
  ∀ (e' : Nat) {f' : Nat}, f' < Nat.pow 2 52 →
    ((magnitude e f : Int) - size).natAbs ≤ ((magnitude e' f' : Int) - size).natAbs ∧
      (magnitude e' f' ≠ magnitude e f →
        ((magnitude e' f' : Int) - size).natAbs = ((magnitude e f : Int) - size).natAbs → f % 2 = 0)

/-- A nearest multiple is a nearest magnitude: what is no multiple is below the least of them that
fills its scale. -/
theorem nearestMagnitude_significand {size k q : Nat} (hq : q ≤ Nat.pow 2 53)
    (hfill : k = 0 ∨ Nat.pow 2 52 * Nat.pow 2 k ≤ size ∧ Nat.pow 2 52 ≤ q)
    (hnearest : nearest size (Nat.pow 2 k) = q) :
    NearestMagnitude size ((k * Nat.pow 2 52 + q) / Nat.pow 2 52)
    ((k * Nat.pow 2 52 + q) % Nat.pow 2 52) := by
  have hpos : 0 < Nat.pow 2 k := Nat.two_pow_pos k
  have hspec := nearest_spec size hpos
  have heven : (k * Nat.pow 2 52 + q) % Nat.pow 2 52 % 2 = q % 2 := by
    have htwo : 2 ∣ Nat.pow 2 52 := ⟨Nat.pow 2 51, by decide⟩
    rw [Nat.mul_add_mod', Nat.mod_mod_of_dvd _ htwo]
  intro e' f' hf'
  rw [heven, magnitude_of_significand hq (hfill.imp_right And.right)]
  rw [hnearest] at hspec
  rcases dvd_magnitude_or_lt k e' hf' with ⟨n, hn⟩ | ⟨hk, hlt⟩
  · rw [hn, Nat.mul_comm _ n]
    refine ⟨(hspec n).1, fun hne => (hspec n).2 ?_⟩
    rintro rfl
    exact hne rfl
  · have hfull : Nat.pow 2 52 * Nat.pow 2 k ≤ size := (hfill.resolve_left hk).1
    have hleast := (hspec (Nat.pow 2 52)).1
    generalize Nat.pow 2 52 * Nat.pow 2 k = least at *
    omega

/-- A count of units in range is rounded to the nearest magnitude. -/
theorem exists_ofRatio (negative : Bool) {size : Nat} (hsize : size.log2 ≤ 2096) :
    ∃ (e : Fin 2047) (f : Fin (Nat.pow 2 52)), ofRatio negative size 1 = finite negative e f ∧
      NearestMagnitude size e f := by
  obtain ⟨hq, hfill⟩ := nearest_scale size
  have hscale : scale size 1 ≤ 2044 := by rw [scale, Nat.div_one]; omega
  have hrank :
      (scale size 1 * Nat.pow 2 52 + nearest size (Nat.pow 2 (scale size 1))) / Nat.pow 2 52 <
        2047 := by
    refine Nat.div_lt_of_lt_mul ?_
    have hdouble : Nat.pow 2 53 = Nat.pow 2 52 + Nat.pow 2 52 := by decide
    have hpos : 0 < Nat.pow 2 52 := Nat.two_pow_pos 52
    have hle : scale size 1 * Nat.pow 2 52 ≤ 2044 * Nat.pow 2 52 := Nat.mul_le_mul_right _ hscale
    omega
  refine ⟨⟨_, hrank⟩, ⟨_, Nat.mod_lt _ (Nat.two_pow_pos 52)⟩, ?_,
    nearestMagnitude_significand hq hfill rfl⟩
  rw [ofRatio, Nat.one_mul, ofRank, dif_pos hrank]

/-! ## Whole numbers -/

theorem rank_mod_two (negative : Bool) (e : Fin 2047) (f : Fin (Nat.pow 2 52)) :
    (finite negative e f).rank % 2 = f.val % 2 := by
  have htwo : 2 ∣ Nat.pow 2 52 := ⟨Nat.pow 2 51, by decide⟩
  rw [rank, Nat.add_mod, Nat.mod_eq_zero_of_dvd (Nat.dvd_mul_left_of_dvd htwo _),
    Nat.zero_add, Nat.mod_mod]

theorem neg_units_iff (i : Int) : i * unitsPerOne < 0 ↔ i < 0 := by
  have hpos : (0 : Int) < unitsPerOne := Int.natCast_pos.2 (by decide +kernel)
  refine ⟨fun h => Int.not_le.1 fun hi => ?_, fun hi => Int.mul_neg_of_neg_of_pos hi hpos⟩
  exact Int.not_le.2 h (Int.mul_nonneg hi (Int.le_of_lt hpos))

/-- The units of a whole number of at most 64 bits are far from the greatest magnitude. -/
theorem log2_units (hi : i.natAbs ≤ Nat.pow 2 64) : (i * unitsPerOne).natAbs.log2 ≤ 2096 := by
  obtain ⟨n, hn, hunits⟩ : ∃ n, n ≤ 1074 ∧ unitsPerOne = Nat.pow 2 n :=
    ⟨1074, by decide, by decide +kernel⟩
  rw [Int.natAbs_mul, Int.natAbs_natCast, hunits]
  by_cases hzero : i.natAbs * Nat.pow 2 n = 0
  · rw [hzero]
    decide
  · have hlt : i.natAbs * Nat.pow 2 n < Nat.pow 2 (65 + n) := by
      have hadd : Nat.pow 2 (65 + n) = Nat.pow 2 65 * Nat.pow 2 n := Nat.pow_add 2 65 n
      rw [hadd]
      exact Nat.mul_lt_mul_of_pos_right (Nat.lt_of_le_of_lt hi (by decide)) (Nat.two_pow_pos n)
    have hlog := (Nat.log2_lt hzero).2 hlt
    omega

theorem units_of_sign (i : Int) (e : Fin 2047) (f : Fin (Nat.pow 2 52)) :
    (finite (decide (i < 0)) e f).units = if i < 0 then -(magnitude e f : Int)
      else magnitude e f := by
  rw [units]
  simp only [decide_eq_true_eq]

/-- On the side of a whole number a number is as far from it as the magnitudes are. -/
theorem distance_of_sign (i : Int) (e : Fin 2047) (f : Fin (Nat.pow 2 52)) :
    (finite (decide (i < 0)) e f).distance i =
      ((magnitude e f : Int) - (i * unitsPerOne).natAbs).natAbs := by
  have hside := neg_units_iff i
  rw [distance, units_of_sign]
  generalize i * unitsPerOne = t at *
  split <;> omega

/-- On either side it is no nearer. -/
theorem le_distance (i : Int) (negative : Bool) (e : Fin 2047) (f : Fin (Nat.pow 2 52)) :
    ((magnitude e f : Int) - (i * unitsPerOne).natAbs).natAbs ≤
      (finite negative e f).distance i := by
  have hsize := natAbs_units negative e f
  rw [distance]
  generalize i * unitsPerOne = t
  omega

/-- The number of a whole number is a nearest one. -/
theorem nearest_ofInt (hi : i.natAbs ≤ Nat.pow 2 64) : (ofInt i).Nearest i := by
  obtain ⟨e, f, heq, hnear⟩ := exists_ofRatio (i * unitsPerOne < 0) (log2_units hi)
  have hvalue : ofInt i = finite (decide (i < 0)) e f := by
    rw [← decide_eq_decide.2 (neg_units_iff i)]; exact heq
  rw [hvalue]
  refine ⟨rfl, fun y hy => ?_, fun y hy hne htie => ?_, rfl⟩
  · cases y with
    | finite negative e' f' =>
      rw [distance_of_sign]
      exact Nat.le_trans (hnear e' f'.isLt).1 (le_distance i negative e' f')
    | _ => cases hy
  · cases y with
    | finite negative e' f' =>
      obtain ⟨hle, heven⟩ := hnear e' f'.isLt
      have hother := le_distance i negative e' f'
      have hsame := distance_of_sign i e f
      rw [rank_mod_two]
      refine heven (fun heq => ?_) (Nat.le_antisymm (htie.trans hsame ▸ hother) hle)
      -- the other number would be the opposite one, so both would be nearest to zero, and zero is
      -- nearer
      have hopposite : (finite negative e' f').units = -(finite (decide (i < 0)) e f).units := by
        have hsizes : (finite negative e' f').units.natAbs =
            (finite (decide (i < 0)) e f).units.natAbs := by
          rw [natAbs_units, natAbs_units, heq]
        exact (Int.natAbs_eq_natAbs_iff.1 hsizes).resolve_left hne
      have hsize := natAbs_units (decide (i < 0)) e f
      have hzero := (hnear 0 (Nat.two_pow_pos 52)).1
      have hnone : magnitude 0 0 = 0 := rfl
      unfold distance at htie
      rw [hopposite] at htie hne
      generalize (finite (decide (i < 0)) e f).units = u at *
      generalize i * unitsPerOne = t at *
      have ht : t = 0 := by omega
      subst ht
      omega
    | _ => cases hy

/-! ## No other number

Magnitudes ascend with their ranks, so between two that are as near and both have an even
significand there is one that is nearer. -/

theorem magnitude_lt_of_rank_lt {e' f f' : Nat} (hf : f < Nat.pow 2 52) (hf' : f' < Nat.pow 2 52)
    (h : e * Nat.pow 2 52 + f < e' * Nat.pow 2 52 + f') : magnitude e f < magnitude e' f' := by
  have hpos : ∀ n : Nat, 0 < Nat.pow 2 n := fun n => Nat.two_pow_pos n
  rcases Nat.lt_trichotomy e e' with hlt | rfl | hgt
  · have hlower : Nat.pow 2 52 * Nat.pow 2 (e' - 1) ≤ magnitude e' f' := by
      rw [magnitude, if_neg (Nat.ne_of_gt (Nat.zero_lt_of_lt hlt))]
      exact Nat.mul_le_mul_right _ (Nat.le_add_right _ _)
    exact Nat.lt_of_lt_of_le (magnitude_lt_scale hf (Nat.le_sub_one_of_lt hlt)) hlower
  · have hlt : f < f' := Nat.lt_of_add_lt_add_left h
    unfold magnitude
    split
    · exact hlt
    · exact Nat.mul_lt_mul_of_pos_right (Nat.add_lt_add_left hlt _) (hpos _)
  · have hmul : (e' + 1) * Nat.pow 2 52 ≤ e * Nat.pow 2 52 := Nat.mul_le_mul_right _ hgt
    rw [Nat.succ_mul] at hmul
    omega

/-- Between two ranks that do not follow one another there is a magnitude. -/
theorem exists_magnitude_between (e : Fin 2047) (f : Fin (Nat.pow 2 52)) (e' : Fin 2047)
    (f' : Fin (Nat.pow 2 52))
    (h : e.val * Nat.pow 2 52 + f.val + 1 < e'.val * Nat.pow 2 52 + f'.val) :
    ∃ (e'' : Fin 2047) (f'' : Fin (Nat.pow 2 52)), magnitude e f < magnitude e'' f'' ∧
      magnitude e'' f'' < magnitude e' f' := by
  have hlast : e'.val * Nat.pow 2 52 + f'.val < 2047 * Nat.pow 2 52 := by
    have hmul : (e'.val + 1) * Nat.pow 2 52 ≤ 2047 * Nat.pow 2 52 := Nat.mul_le_mul_right _ e'.isLt
    rw [Nat.succ_mul] at hmul
    exact Nat.lt_of_lt_of_le (Nat.add_lt_add_left f'.isLt _) hmul
  have hexponent : (e.val * Nat.pow 2 52 + f.val + 1) / Nat.pow 2 52 < 2047 := by
    rw [Nat.div_lt_iff_lt_mul (Nat.two_pow_pos 52)]
    exact Nat.lt_trans h hlast
  obtain ⟨e'', f'', hnext⟩ : ∃ (e'' : Fin 2047) (f'' : Fin (Nat.pow 2 52)),
      e''.val * Nat.pow 2 52 + f''.val = e.val * Nat.pow 2 52 + f.val + 1 :=
    ⟨⟨_, hexponent⟩, ⟨_, Nat.mod_lt _ (Nat.two_pow_pos 52)⟩, Nat.div_add_mod' _ _⟩
  refine ⟨e'', f'', magnitude_lt_of_rank_lt f.isLt f''.isLt ?_,
    magnitude_lt_of_rank_lt f''.isLt f'.isLt ?_⟩
  · rw [hnext]
    exact Nat.lt_succ_self _
  · rw [hnext]
    exact h

/-- Of two nearest numbers none comes before the other: their ranks are even, and what is between
them is nearer. -/
theorem Nearest.not_rank_lt (hx : x.Nearest i) (hy : y.Nearest i) : ¬ x.rank < y.rank := by
  intro hlt
  cases x with
  | finite negative e f =>
    cases y with
    | finite negative' e' f' =>
      obtain rfl : negative = decide (i < 0) := hx.isNegative_eq
      obtain rfl : negative' = decide (i < 0) := hy.isNegative_eq
      have hsizes : magnitude e f < magnitude e' f' := magnitude_lt_of_rank_lt f.isLt f'.isLt hlt
      have hne : (finite (decide (i < 0)) e' f').units ≠ (finite (decide (i < 0)) e f).units :=
        fun heq => by
        have hsame := congrArg Int.natAbs heq
        rw [natAbs_units, natAbs_units] at hsame
        exact Nat.ne_of_gt hsizes hsame
      have htie := Nat.le_antisymm (hy.distance_le _ hx.isFinite) (hx.distance_le _ hy.isFinite)
      have hxeven := hx.even_of_tie _ hy.isFinite hne htie
      have hyeven := hy.even_of_tie _ hx.isFinite hne.symm htie.symm
      have hgap : (finite (decide (i < 0)) e f).rank + 1 <
          (finite (decide (i < 0)) e' f').rank := by omega
      obtain ⟨e'', f'', hlow, hhigh⟩ := exists_magnitude_between e f e' f' hgap
      have hcloser := hx.distance_le (finite (decide (i < 0)) e'' f'') rfl
      rw [distance_of_sign, distance_of_sign] at htie hcloser
      generalize (i * unitsPerOne).natAbs = size at *
      omega
    | _ => cases hy.isFinite
  | _ => cases hx.isFinite

/-- The nearest number is the only one. -/
theorem Nearest.unique (hx : x.Nearest i) (hy : y.Nearest i) : x = y := by
  have hrank : x.rank = y.rank :=
    Nat.le_antisymm (Nat.not_lt.1 (hy.not_rank_lt hx)) (Nat.not_lt.1 (hx.not_rank_lt hy))
  have hsign : x.isNegative = y.isNegative := hx.isNegative_eq.trans hy.isNegative_eq.symm
  cases x with
  | finite negative e f =>
    cases y with
    | finite negative' e' f' =>
      obtain rfl : negative = negative' := hsign
      rw [← ofRank_rank e f, ← ofRank_rank e' f']
      exact congrArg (ofRank negative) hrank
    | _ => cases hy.isFinite
  | _ => cases hx.isFinite

/-- **Rounding.** The number of a whole number is the nearest one, and the only one. -/
theorem nearest_iff_eq_ofInt (hi : i.natAbs ≤ Nat.pow 2 64) : x.Nearest i ↔ x = ofInt i :=
  ⟨fun hx => hx.unique (nearest_ofInt hi), fun hx => hx ▸ nearest_ofInt hi⟩

end GuardedFlow.Number
