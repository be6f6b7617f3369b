import GuardedFlow.Text.Case.Upper
import GuardedFlow.Text.Case.Lower
import GuardedFlow.Text.Case.Context

/-!
# Upper and lower case

Texts are mapped character by character with the full case mappings, which may lengthen them. One
mapping looks around: a capital sigma at the end of a word becomes the final small sigma.
-/

namespace GuardedFlow.Text

/-- The distance from a code point to its image, zero if no run holds it. -/
def shiftIn (runs : List (Nat × Nat × Nat × Int)) (n : Nat) : Int :=
  match runs.find? fun (first, last, step, _) =>
    first ≤ n && n ≤ last && (n - first) % step == 0 with
  | some (_, _, _, delta) => delta
  | none => 0

/-- The image of one character under runs and sequences. -/
def mapCase (runs : List (Nat × Nat × Nat × Int)) (sequences : List (Nat × List Nat)) (c : Char) :
    List Char :=
  match sequences.find? fun s => s.1 == c.toNat with
  | some (_, codes) => codes.map Char.ofNat
  | none => [Char.ofNat (c.toNat + shiftIn runs c.toNat).toNat]

def upperChar (c : Char) : List Char := mapCase upperRuns upperSequences c

def lowerChar (c : Char) : List Char := mapCase lowerRuns lowerSequences c

/-- Whether the first character that is not passed over has a case. -/
def touchesCased (s : List Char) : Bool :=
  match s.dropWhile isIgnorable with
  | [] => false
  | c :: _ => isCased c

/-- The small sigma that stands between the given surroundings, the ones before it in reverse. -/
def smallSigma (before after : List Char) : Char :=
  if touchesCased before && !touchesCased after then 'ς' else 'σ'

/-- The lower case of a text whose earlier characters, in reverse, are `before`. -/
def lowerAfter (before : List Char) : List Char → List Char
  | [] => []
  | c :: rest =>
    (if c = 'Σ' then [smallSigma before rest] else lowerChar c) ++ lowerAfter (c :: before) rest

def upper (s : String) : String := String.ofList (s.toList.flatMap upperChar)

def lower (s : String) : String := String.ofList (lowerAfter [] s.toList)

end GuardedFlow.Text
