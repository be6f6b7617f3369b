import GuardedFlow.Number.Decimal

/-!
# Numbers as text

`Number.parse?` reads decimal notation, correctly rounded. `Number.text` is the way numbers are
written in expressions and messages: a whole number below `10 ^ 15` without a fractional part,
anything else with the fewest digits that read back, always positionally.
-/

namespace GuardedFlow

namespace Decimal

/-! ## Reading -/

/-- The value of a run of decimal digits. -/
def ofDigits (digits : List Char) : Nat := digits.foldl (fun n c => 10 * n + (c.toNat - 48)) 0

/-- An optionally signed run of at least one digit, and nothing else. -/
def parseExponent? (s : List Char) : Option Int :=
  let (negative, digits) : Bool × List Char :=
    match s with
    | '-' :: r => (true, r)
    | '+' :: r => (false, r)
    | r => (false, r)
  if digits ≠ [] ∧ digits.all Char.isDigit then
    some (if negative then -(ofDigits digits : Int) else ofDigits digits)
  else none

/-- Digits with an optional point among, before or after them, and an optional exponent. -/
def parse? (s : List Char) : Option Decimal :=
  let whole := s.takeWhile Char.isDigit
  let rest := s.dropWhile Char.isDigit
  let (fraction, rest) : List Char × List Char :=
    match rest with
    | '.' :: r => (r.takeWhile Char.isDigit, r.dropWhile Char.isDigit)
    | r => ([], r)
  if whole = [] ∧ fraction = [] then none
  else
    let digits := ofDigits (whole ++ fraction)
    let places : Int := fraction.length
    match rest with
    | [] => some ⟨digits, -places⟩
    | c :: r =>
      if c = 'e' ∨ c = 'E' then (parseExponent? r).map fun e => ⟨digits, e - places⟩ else none

/-! ## Writing -/

def digitsOf (n : Nat) : List Char := Nat.toDigits 10 n

/-- Digits times a power of ten, written out without an exponent. -/
def positional (digits : List Char) (exponent : Int) : List Char :=
  if 0 ≤ exponent then digits ++ List.replicate exponent.toNat '0'
  else
    let places := (-exponent).toNat
    if places < digits.length then
      digits.take (digits.length - places) ++ '.' :: digits.drop (digits.length - places)
    else '0' :: '.' :: (List.replicate (places - digits.length) '0' ++ digits)

end Decimal

namespace Number

/-- The names of the values that are not finite, in any case of letters. -/
def parseName? (negative : Bool) (s : List Char) : Option Number :=
  let name := String.ofList (s.map Char.toLower)
  if name = "nan" then some nan
  else if name = "inf" ∨ name = "infinity" then some (infinite negative)
  else none

/-- Reads a number without sign. -/
def parseUnsigned? (negative : Bool) (s : List Char) : Option Number :=
  match Decimal.parse? s with
  | some d => some (d.toNumber negative)
  | none => parseName? negative s

/-- Reads an optionally signed number; the whole text must be one. -/
def parse? (s : String) : Option Number :=
  match s.toList with
  | '-' :: r => parseUnsigned? true r
  | '+' :: r => parseUnsigned? false r
  | r => parseUnsigned? false r

/-- `10 ^ 15`: from here on whole numbers are written like any other number. -/
def wholeLimit : Nat := Nat.pow 10 15

/-- The text of the magnitude of a finite value. -/
def magnitudeText (x : Number) : List Char :=
  match x.toInt? with
  | some i =>
    if i.natAbs < wholeLimit then Decimal.digitsOf i.natAbs
    else
      let d := Decimal.shortest .awayFromZero x.units.natAbs
      Decimal.positional (Decimal.digitsOf d.digits) d.exponent
  | none =>
    let d := Decimal.shortest .awayFromZero x.units.natAbs
    Decimal.positional (Decimal.digitsOf d.digits) d.exponent

/-- The text of a number in expressions and messages. Both zeros are written `0`. -/
def text (x : Number) : String :=
  match x with
  | nan => "NaN"
  | infinite negative => if negative then "-inf" else "inf"
  | finite negative .. =>
    String.ofList (if negative && !x.isZero then '-' :: x.magnitudeText else x.magnitudeText)

end Number

end GuardedFlow
