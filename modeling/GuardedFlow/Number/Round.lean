import GuardedFlow.Number.Basic

/-!
# Rounding to the nearest number

Every operation on numbers is computed exactly and rounded once. An exact result is a quotient of
natural numbers, counted in units; `Number.ofRatio` gives the nearest value, a tie going to the
value with the even significand, and an infinity where the nearest value would be out of range.
-/

namespace GuardedFlow.Number

/-- The whole number nearest to a quotient; of two equally near ones the even one. -/
def nearest (num den : Nat) : Nat :=
  let quotient := num / den
  let remainder := num % den
  if 2 * remainder < den then quotient
  else if den < 2 * remainder then quotient + 1
  else if quotient % 2 = 0 then quotient
  else quotient + 1

/-- The power of two by which a quotient is scaled down to have a significand of at most 53 bits. -/
def scale (num den : Nat) : Nat := (num / den).log2 - 52

/-- The value nearest to `num / den` units.

The rank of a significand `m` at scale `k` is `k * 2 ^ 52 + m`, also where rounding carries into the
next scale. -/
def ofRatio (negative : Bool) (num den : Nat) : Number :=
  let k := scale num den
  ofRank negative (k * Nat.pow 2 52 + nearest num (den * Nat.pow 2 k))

/-- The value nearest to a whole number of units; no units are positive zero. -/
def ofUnits (count : Int) : Number := ofRatio (count < 0) count.natAbs 1

def ofInt (i : Int) : Number := ofUnits (i * unitsPerOne)

def ofNat (n : Nat) : Number := ofInt n

/-- The value nearest to `digits * 10 ^ exponent`.

Exponents that put the value beyond every finite magnitude, or below half of the least one, are
decided from the count of digits, so that no power of ten grows without bound. -/
def ofDecimal (negative : Bool) (digits : Nat) (exponent : Int) : Number :=
  let length : Int := (Nat.toDigits 10 digits).length
  if digits = 0 then ofRank negative 0
  else if 400 < length + exponent then infinite negative
  else if length + exponent < -400 then ofRank negative 0
  else ofRatio negative (digits * Nat.pow 10 exponent.toNat * unitsPerOne)
    (Nat.pow 10 (-exponent).toNat)

end GuardedFlow.Number
