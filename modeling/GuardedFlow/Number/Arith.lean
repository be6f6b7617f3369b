import GuardedFlow.Number.Round

/-!
# Arithmetic

Each operation takes the exact result on units and rounds it once. The special values follow the
format's rules: what has no value is NaN, and a sum that cancels is positive zero unless both sides
are negative zero.
-/

namespace GuardedFlow.Number

def add : Number → Number → Number
  | nan, _ => nan
  | _, nan => nan
  | infinite a, infinite b => if a = b then infinite a else nan
  | infinite a, finite .. => infinite a
  | finite .., infinite b => infinite b
  | x@(finite ..), y@(finite ..) =>
    if x.isZero && y.isZero then ofRank (x.isNegative && y.isNegative) 0
    else ofUnits (x.units + y.units)

def sub (x y : Number) : Number := x.add y.neg

/-- Product. The sign is negative where the signs differ, also for a zero. -/
def mul : Number → Number → Number
  | nan, _ => nan
  | _, nan => nan
  | infinite a, infinite b => infinite (a != b)
  | infinite a, y@(finite ..) => if y.isZero then nan else infinite (a != y.isNegative)
  | x@(finite ..), infinite b => if x.isZero then nan else infinite (x.isNegative != b)
  | x@(finite ..), y@(finite ..) =>
    ofRatio (x.isNegative != y.isNegative) (x.units.natAbs * y.units.natAbs) unitsPerOne

/-- Quotient. A zero divisor gives an infinity, or NaN for a zero dividend. -/
def div : Number → Number → Number
  | nan, _ => nan
  | _, nan => nan
  | infinite _, infinite _ => nan
  | infinite a, y@(finite ..) => infinite (a != y.isNegative)
  | x@(finite ..), infinite b => ofRank (x.isNegative != b) 0
  | x@(finite ..), y@(finite ..) =>
    let negative := x.isNegative != y.isNegative
    if y.isZero then if x.isZero then nan else infinite negative
    else ofRatio negative (x.units.natAbs * unitsPerOne) y.units.natAbs

/-- Remainder of the quotient truncated toward zero, with the sign of the dividend. -/
def rem : Number → Number → Number
  | nan, _ => nan
  | _, nan => nan
  | infinite _, _ => nan
  | x@(finite ..), infinite _ => x
  | x@(finite ..), y@(finite ..) =>
    if y.isZero then nan
    else ofRatio x.isNegative (x.units.natAbs % y.units.natAbs) 1

end GuardedFlow.Number
