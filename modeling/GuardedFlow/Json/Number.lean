import GuardedFlow.Json.Basic
import GuardedFlow.Number.Arith
import GuardedFlow.Number.Text

/-!
# Numbers in documents

In a document a number is written with the fewest digits that read back, always with a point or an
exponent. It is read with a significand of at most 64 bits, scaled by one product or quotient with a
power of ten: the digits that do not fit are dropped, and the result is not always the nearest
number.
-/

namespace GuardedFlow.Json

/-! ## Writing -/

/-- Digits with a point after the first one, if there are more. -/
def pointAfterFirst : List Char → List Char
  | [] => []
  | [c] => [c]
  | c :: rest => c :: '.' :: rest

/-- The text of a magnitude: positional when the leading digit stands for `10 ^ (-5)` up to `10 ^
15`, with an exponent otherwise. -/
def magnitudeText (size : Nat) : List Char :=
  let d := Decimal.shortest .toEven size
  let digits := Decimal.digitsOf d.digits
  let leading : Int := d.exponent + digits.length - 1
  if -5 ≤ leading ∧ leading ≤ 15 then
    let whole := Decimal.positional digits d.exponent
    if 0 ≤ d.exponent then whole ++ ['.', '0'] else whole
  else
    pointAfterFirst digits ++ 'e' :: (if leading < 0 then '-' else '+') ::
      Decimal.digitsOf leading.natAbs

/-- The text of a number. What is not finite has none and is written `null`. -/
def numberText : Number → String
  | .nan => "null"
  | .infinite _ => "null"
  | x@(.finite negative ..) =>
    let magnitude := if x.isZero then ['0', '.', '0'] else magnitudeText x.units.natAbs
    String.ofList (if negative then '-' :: magnitude else magnitude)

/-! ## Reading -/

/-- Significands stay below this. -/
def significandLimit : Nat := Nat.pow 2 64

/-- Takes further digits into a significand as long as they fit, and gives those that are left. -/
def accumulate (significand : Nat) : List Char → Nat × List Char
  | [] => (significand, [])
  | c :: rest =>
    let next := 10 * significand + (c.toNat - 48)
    if next < significandLimit then accumulate next rest else (significand, c :: rest)

/-- The number with the given significand and decimal exponent, unless it is out of range.

The fuel counts the steps that scale down by `10 ^ 308` before the last one. -/
def scaled : Nat → Number → Int → Option Number
  | 0, _, _ => some .zero
  | fuel + 1, x, exponent =>
    if exponent.natAbs ≤ 308 then
      let power := Number.ofDecimal false 1 exponent.natAbs
      if 0 ≤ exponent then
        let y := x.mul power
        if y.isFinite then some y else none
      else some (x.div power)
    else if x.isZero then some x
    else if 0 ≤ exponent then none
    else scaled fuel (x.div (Number.ofDecimal false 1 308)) (exponent + 308)

/-- A number that is not written as a whole one: its digits before and after the point, and its
exponent. -/
def readFloat (whole fraction : List Char) (exponent : Int) : Option Number :=
  let (significand, droppedWhole) := accumulate 0 whole
  let (significand, droppedFraction) := accumulate significand fraction
  let shift : Int := droppedWhole.length - (fraction.length - droppedFraction.length : Nat)
  if exponent.natAbs < Nat.pow 2 31 then scaled 4 (.ofNat significand) (shift + exponent)
  else if significand ≠ 0 ∧ 0 < exponent then none
  else some .zero

/-- A whole number is kept exactly where 64 bits hold it and becomes a number otherwise. -/
def readWhole (negative : Bool) (digits : List Char) : Json :=
  let value := Decimal.ofDigits digits
  if negative then
    if value = 0 then number Number.zero.neg
    else if value ≤ Nat.pow 2 63 then integer (-value)
    else large
  else if value < significandLimit then integer value
  else large
where
  /-- A number with the given digits that no 64 bits hold. -/
  large : Json :=
    match readFloat digits [] 0 with
    | some x => number (if negative then x.neg else x)
    | none => unreadable

end GuardedFlow.Json
