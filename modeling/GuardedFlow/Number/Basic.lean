
/-!
# Numbers

The numbers of expressions and records are the values of the binary64 format: one NaN, two
infinities, and the finite values, kept as sign, biased exponent and fraction so that every finite
value has exactly one representation except zero, which has two.

A finite value is measured in *units*, where one unit is the least positive value, `2 ^ (-1074)`:
every finite value is a whole number of units (`Number.units`), so comparison and exact arithmetic
take place in `Int`. The fields of a magnitude, read as one natural number, give its *rank*
(`Number.rank`): the position of the magnitude in the ascending list of all magnitudes.

Powers are written with `Nat.pow`, so that they mean the same where `^` is that of a monoid.
-/

namespace GuardedFlow

/-- A value of the binary64 format. -/
inductive Number where
  /-- The value of an operation that has no value. -/
  | nan
  /-- Beyond every finite value, on either side. -/
  | infinite (negative : Bool)
  /-- The biased exponent `0` marks the values below `2 ^ (-1022)`, whose leading bit is not
  implied. -/
  | finite (negative : Bool) (exponent : Fin 2047) (fraction : Fin (Nat.pow 2 52))
deriving DecidableEq, Repr

namespace Number

/-! ## Units and ranks -/

/-- The number of units in one. -/
def unitsPerOne : Nat := Nat.pow 2 1074

/-- The magnitude, in units, of the finite value with the given fields. -/
def magnitude (exponent fraction : Nat) : Nat :=
  if exponent = 0 then fraction else (Nat.pow 2 52 + fraction) * Nat.pow 2 (exponent - 1)

/-- The signed count of units of a finite value; a value that is not finite counts as zero. -/
def units : Number → Int
  | nan => 0
  | infinite _ => 0
  | finite negative exponent fraction =>
    let size : Int := magnitude exponent fraction
    if negative then -size else size

/-- The position of a magnitude among all magnitudes, infinity last. -/
def rank : Number → Nat
  | nan => 0
  | infinite _ => 2047 * Nat.pow 2 52
  | finite _ exponent fraction => exponent * Nat.pow 2 52 + fraction

/-- The value of the given sign whose magnitude has the given rank; ranks past the last finite one
are infinite. -/
def ofRank (negative : Bool) (rank : Nat) : Number :=
  if h : rank / Nat.pow 2 52 < 2047 then
    finite negative ⟨rank / Nat.pow 2 52, h⟩ ⟨rank % Nat.pow 2 52, Nat.mod_lt _ (by decide)⟩
  else infinite negative

def zero : Number := finite false 0 ⟨0, by decide⟩

instance : Inhabited Number := ⟨zero⟩

/-! ## Bit patterns -/

/-- The value of a 64-bit pattern: sign, eleven exponent bits, fifty-two fraction bits. -/
def ofBits (bits : Nat) : Number :=
  let negative := bits / Nat.pow 2 63 % 2 == 1
  let rank := bits % Nat.pow 2 63
  if 2047 * Nat.pow 2 52 < rank then nan else ofRank negative rank

/-- The 64-bit pattern of a value; NaN has the pattern with only the first fraction bit set. -/
def toBits : Number → Nat
  | nan => 2047 * Nat.pow 2 52 + Nat.pow 2 51
  | x@(infinite negative) => (if negative then Nat.pow 2 63 else 0) + x.rank
  | x@(finite negative _ _) => (if negative then Nat.pow 2 63 else 0) + x.rank

/-! ## Sign -/

/-- Whether the sign is set. NaN has none. -/
def isNegative : Number → Bool
  | nan => false
  | infinite negative => negative
  | finite negative _ _ => negative

def neg : Number → Number
  | nan => nan
  | infinite negative => infinite !negative
  | finite negative exponent fraction => finite (!negative) exponent fraction

def abs : Number → Number
  | nan => nan
  | infinite _ => infinite false
  | finite _ exponent fraction => finite false exponent fraction

def isFinite : Number → Bool
  | finite .. => true
  | _ => false

def isZero : Number → Bool
  | finite _ exponent fraction => exponent.val == 0 && fraction.val == 0
  | _ => false

/-! ## Order -/

/-- How two values compare; NaN compares with nothing, and the two zeros are equal. -/
def order : Number → Number → Option Ordering
  | nan, _ => none
  | _, nan => none
  | infinite a, infinite b => some (if a = b then .eq else if a then .lt else .gt)
  | infinite a, finite .. => some (if a then .lt else .gt)
  | finite .., infinite b => some (if b then .gt else .lt)
  | x@(finite ..), y@(finite ..) => some (compare x.units y.units)

/-- Whether two values are numerically equal. NaN equals nothing, itself included. -/
def equals (x y : Number) : Bool := x.order y == some .eq

/-! ## Whole numbers -/

/-- The whole number that a value is, if it is one. -/
def toInt? : Number → Option Int
  | x@(finite ..) => if x.units % unitsPerOne = 0 then some (x.units / unitsPerOne) else none
  | _ => none

end Number

end GuardedFlow
