import GuardedFlow.Predicate.Compile

/-!
# Equality and order agree

Equality is a matter of all values, an order one of two numbers or two texts. Where there is an
order it says whether two values are equal (`Value.equals_iff_of_order`), and there is one unless
one of two numbers has no value (`Value.comparable_iff`). So of less, equal and greater at most one
holds, and just one where there is an order: `Comparator.trichotomy`.
-/

namespace GuardedFlow

/-! ## Values -/

theorem Number.order_eq_none_iff {x y : Number} : x.order y = none ↔ x = .nan ∨ y = .nan := by
  cases x <;> cases y <;> simp [order]

namespace Value

/-- Two numbers, or two texts. -/
inductive Alike : Value → Value → Prop where
  | numbers (x y : Number) : Alike (number x) (number y)
  | texts (s t : String) : Alike (string s) (string t)

/-- Two numbers that both have a value, or two texts. -/
inductive Comparable : Value → Value → Prop where
  | numbers {x y : Number} (hx : x ≠ .nan) (hy : y ≠ .nan) : Comparable (number x) (number y)
  | texts (s t : String) : Comparable (string s) (string t)

variable {v w : Value} {o : Ordering}

theorem Comparable.alike (h : v.Comparable w) : v.Alike w := by
  cases h with
  | numbers => exact .numbers _ _
  | texts => exact .texts _ _

/-- There is an order just between what can be compared. -/
theorem comparable_iff : v.Comparable w ↔ ∃ o, v.order w = some o := by
  constructor
  · intro h
    cases h with
    | @numbers x y hx hy =>
      refine Option.ne_none_iff_exists'.1 fun hnone => ?_
      exact (Number.order_eq_none_iff.1 hnone).elim hx hy
    | texts s t => exact ⟨_, rfl⟩
  · rintro ⟨o, h⟩
    unfold order at h
    split at h
    · next x y =>
      have hvalue : ¬ (x = .nan ∨ y = .nan) := fun hnan => by
        rw [Number.order_eq_none_iff.2 hnan] at h
        cases h
      exact .numbers (fun hx => hvalue (.inl hx)) fun hy => hvalue (.inr hy)
    · exact .texts _ _
    · cases h

/-- Where there is an order it says whether two values are equal. -/
theorem equals_iff_of_order (h : v.order w = some o) : v.equals w = true ↔ o = .eq := by
  cases comparable_iff.2 ⟨o, h⟩ with
  | @numbers x y =>
    replace h : x.order y = some o := h
    show (x.order y == some .eq) = true ↔ o = .eq
    rw [h, beq_iff_eq, Option.some.injEq]
  | texts s t =>
    obtain rfl : compare s t = o := Option.some.inj h
    show (s == t) = true ↔ compare s t = .eq
    rw [beq_iff_eq, Std.compare_eq_iff_eq]

/-- Of what is alike only what can be compared is equal. -/
theorem Alike.comparable_of_equals (halike : v.Alike w) (h : v.equals w = true) :
    v.Comparable w := by
  cases halike with
  | numbers x y =>
    have horder : x.order y = some .eq := eq_of_beq h
    exact comparable_iff.2 ⟨.eq, horder⟩
  | texts s t => exact .texts s t

end Value

/-! ## Comparisons -/

namespace Comparator

open Value

/-- **Trichotomy.** Of less, equal and greater at most one holds, and one does between numbers that
have values and between texts. The comparisons that admit equality are the strict ones or equality
there, and nothing elsewhere. -/
theorem trichotomy (l r : Value) :
    (∀ op ∈ [lt, eq, gt], ∀ op' ∈ [lt, eq, gt], op.holds l r = true →
      op'.holds l r = true → op = op') ∧
    (ge.holds l r = true ↔ gt.holds l r = true ∨ eq.holds l r = true ∧ l.Alike (r.coerce l)) ∧
    (le.holds l r = true ↔ lt.holds l r = true ∨ eq.holds l r = true ∧ l.Alike (r.coerce l)) ∧
    (l.Comparable (r.coerce l) → (∃ op ∈ [lt, eq, gt], op.holds l r = true) ∧
      ge.holds l r = !lt.holds l r ∧ le.holds l r = !gt.holds l r) ∧
    (¬ l.Comparable (r.coerce l) → ∀ op ∈ [gt, ge, lt, le], op.holds l r = false) := by
  cases horder : l.looseOrder r with
  | none =>
    have hlone : ¬ l.Comparable (r.coerce l) := fun h => by
      obtain ⟨o, ho⟩ := comparable_iff.1 h
      rw [looseOrder, ho] at horder
      cases horder
    have hunequal : ¬ (l.looseEquals r = true ∧ l.Alike (r.coerce l)) := fun h =>
      hlone (h.2.comparable_of_equals h.1)
    simp [holds, horder, hlone, hunequal]
  | some o =>
    have hcomparable : l.Comparable (r.coerce l) := comparable_iff.2 ⟨o, horder⟩
    have hequals : l.looseEquals r = true ↔ o = .eq := equals_iff_of_order horder
    cases o <;> simp [holds, horder, hcomparable, hcomparable.alike, hequals]

/-- A text that stands for a number has an order with numbers; two truth values have none. -/
theorem trichotomy_one_below_two :
    let one : Value := .number (.ofInt 1)
    (lt.holds one (.string " 2 ") = true ∧
      ge.holds one (.string " 2 ") = !lt.holds one (.string " 2 ")) ∧
      ge.holds (.bool true) (.bool false) = false := by
  intro one
  obtain ⟨-, -, -, hordered, -⟩ := trichotomy one (.string " 2 ")
  obtain ⟨-, -, -, -, hunordered⟩ := trichotomy (.bool true) (.bool false)
  have horder : one.order ((string " 2 ").coerce one) = some .lt := by decide +kernel
  have hbelow : lt.holds one (.string " 2 ") = true := by decide +kernel
  exact ⟨⟨hbelow, (hordered (comparable_iff.2 ⟨.lt, horder⟩)).2.1⟩,
    hunordered (fun h => nomatch h) ge (by simp)⟩

end Comparator

end GuardedFlow
