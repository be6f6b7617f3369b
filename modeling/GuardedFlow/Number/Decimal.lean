import GuardedFlow.Number.Round

/-!
# Shortest decimals

A finite number is written with the fewest decimal digits that read back to it. `Decimal.shortest`
looks at grids of one to seventeen digits in turn; on each it tests the two neighbours of the exact
value by reading them, and of two that read back it takes the nearer one. How an exact tie is
decided is left to the format that prints (`Tie`).

Whatever is selected reads back, since every candidate is tested by `Number.ofDecimal` itself and
the last resort is the exact value.
-/

namespace GuardedFlow

/-- The value `digits * 10 ^ exponent`. -/
structure Decimal where
  digits : Nat
  exponent : Int
deriving DecidableEq, Repr

/-- Which of two equally near candidates is taken. -/
inductive Tie where
  | toEven
  | awayFromZero
deriving DecidableEq, Repr

namespace Decimal

/-- The number nearest to a decimal of the given sign. -/
def toNumber (d : Decimal) (negative : Bool) : Number :=
  Number.ofDecimal negative d.digits d.exponent

def length (n : Nat) : Nat := (Nat.toDigits 10 n).length

/-- The least `k` with `size` units below `10 ^ k`.

The factor `10 ^ 400` lifts the least magnitude above one, so that the length of the whole part
shows the place of the leading digit. -/
def leading (size : Nat) : Int :=
  (length (size * Nat.pow 10 400 / Number.unitsPerOne) : Int) - 400

/-- The two neighbours of `size` units on the grid of multiples of `10 ^ exponent`, with the
comparison of the value to the middle between them. -/
def neighbours (size : Nat) (exponent : Int) : Nat × Nat × Ordering :=
  let num := size * Nat.pow 10 (-exponent).toNat
  let den := Number.unitsPerOne * Nat.pow 10 exponent.toNat
  let lower := num / den
  (lower, lower + 1, compare (2 * (num % den)) den)

/-- The neighbour of `size` units on one grid that reads back, the nearer one if both do. -/
def onGrid (tie : Tie) (size : Nat) (exponent : Int) : Option Decimal :=
  let target := Number.ofUnits size
  let (lower, upper, middle) := neighbours size exponent
  let reads (digits : Nat) : Bool := Number.ofDecimal false digits exponent = target
  match reads lower, reads upper with
  | false, false => none
  | true, false => some ⟨lower, exponent⟩
  | false, true => some ⟨upper, exponent⟩
  | true, true =>
    match middle, tie with
    | .lt, _ => some ⟨lower, exponent⟩
    | .gt, _ => some ⟨upper, exponent⟩
    | .eq, .awayFromZero => some ⟨upper, exponent⟩
    | .eq, .toEven => some ⟨if lower % 2 = 0 then lower else upper, exponent⟩

/-- The decimal equal to `size` units. -/
def exact (size : Nat) : Decimal := ⟨size * Nat.pow 5 1074, -1074⟩

/-- Moves trailing zeros of the digits into the exponent, as many as the fuel allows. -/
def strip : Nat → Decimal → Decimal
  | 0, d => d
  | fuel + 1, d =>
    if d.digits ≠ 0 ∧ d.digits % 10 = 0 then strip fuel ⟨d.digits / 10, d.exponent + 1⟩ else d

/-- The shortest decimal that reads back to `size` units, without trailing zeros. -/
def shortest (tie : Tie) (size : Nat) : Decimal :=
  let k := leading size
  let found := (List.range 17).findSome? fun (n : Nat) => onGrid tie size (k - (n + 1 : Nat))
  let chosen := found.getD (exact size)
  strip (length chosen.digits) chosen

end Decimal

end GuardedFlow
