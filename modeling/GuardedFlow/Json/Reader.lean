import GuardedFlow.Json.Number

/-!
# Reading documents

`Json.parse?` reads a whole text as one document. Each reading function takes the characters that
are left and gives what it read together with the rest. A text is either well formed or not; there
is no other report.

Containers can be nested 127 levels deep. What lies deeper, like a number out of range or a text
with an unpaired surrogate, is well formed but has no value: it is read as `Json.unreadable`.
-/

namespace GuardedFlow

/-! ## Texts -/

/-- The characters of a sequence of UTF-16 units, if every surrogate is paired. A character that is
a unit of its own may also stand for itself. -/
def Text.ofUnits? : List Nat → Option (List Char)
  | [] => some []
  | high :: low :: rest =>
    if 0xD800 ≤ high ∧ high < 0xDC00 then
      if 0xDC00 ≤ low ∧ low < 0xE000 then
        (ofUnits? rest).map (Char.ofNat (0x10000 + (high - 0xD800) * 0x400 + (low - 0xDC00)) :: ·)
      else none
    else if 0xDC00 ≤ high ∧ high < 0xE000 then none
    else (ofUnits? (low :: rest)).map (Char.ofNat high :: ·)
  | [unit] => if 0xD800 ≤ unit ∧ unit < 0xE000 then none else some [Char.ofNat unit]

namespace Json

/-- Whether a character may stand between the parts of a document. -/
def isSpace (c : Char) : Bool := c == ' ' || c == '\n' || c == '\t' || c == '\r'

def skipSpace (s : List Char) : List Char := s.dropWhile isSpace

def hexDigit? (c : Char) : Option Nat :=
  if c.isDigit then some (c.toNat - '0'.toNat)
  else if 'a' ≤ c ∧ c ≤ 'f' then some (c.toNat - 'a'.toNat + 10)
  else if 'A' ≤ c ∧ c ≤ 'F' then some (c.toNat - 'A'.toNat + 10)
  else none

/-- The unit that four hexadecimal digits write. -/
def unit? (a b c d : Char) : Option Nat := do
  return 4096 * (← hexDigit? a) + 256 * (← hexDigit? b) + 16 * (← hexDigit? c) + (← hexDigit? d)

/-- The character that a letter after a backslash stands for. -/
def escaped? (c : Char) : Option Char :=
  if c = '"' ∨ c = '\\' ∨ c = '/' then some c
  else if c = 'b' then some '\x08'
  else if c = 'f' then some '\x0c'
  else if c = 'n' then some '\n'
  else if c = 'r' then some '\r'
  else if c = 't' then some '\t'
  else none

/-- The units of a text up to its closing quote, and what follows. -/
def readUnits : List Char → Option (List Nat × List Char)
  | [] => none
  | '"' :: rest => some ([], rest)
  | '\\' :: 'u' :: a :: b :: c :: d :: rest =>
    match unit? a b c d with
    | some unit => (readUnits rest).map fun (units, after) => (unit :: units, after)
    | none => none
  | '\\' :: c :: rest =>
    match escaped? c with
    | some e => (readUnits rest).map fun (units, after) => (e.toNat :: units, after)
    | none => none
  | c :: rest =>
    if c.toNat < 0x20 ∨ c = '\\' then none
    else (readUnits rest).map fun (units, after) => (c.toNat :: units, after)

/-- A text after its opening quote, `none` as the text if it has an unpaired surrogate. -/
def readText (s : List Char) : Option (Option String × List Char) :=
  (readUnits s).map fun (units, after) => ((Text.ofUnits? units).map String.ofList, after)

/-! ## Numbers -/

def readDigits (s : List Char) : Option (List Char × List Char) :=
  let digits := s.takeWhile Char.isDigit
  if digits.isEmpty then none else some (digits, s.dropWhile Char.isDigit)

/-- The whole part of a number: a zero alone, or digits that start with another one. -/
def readWholePart (s : List Char) : Option (List Char × List Char) :=
  match readDigits s with
  | some ('0' :: _ :: _, _) => none
  | part => part

/-- The digits after a point, if there is one. -/
def readFraction (s : List Char) : Option (Option (List Char) × List Char) :=
  match s with
  | '.' :: rest => (readDigits rest).map fun (digits, after) => (some digits, after)
  | _ => some (none, s)

/-- The exponent after its mark, if there is one. -/
def readExponent (s : List Char) : Option (Option Int × List Char) :=
  match s with
  | mark :: rest =>
    if mark = 'e' ∨ mark = 'E' then
      let (negative, rest) : Bool × List Char :=
        match rest with
        | '-' :: r => (true, r)
        | '+' :: r => (false, r)
        | r => (false, r)
      (readDigits rest).map fun (digits, after) =>
        let size : Int := Decimal.ofDigits digits
        (some (if negative then -size else size), after)
    else some (none, s)
  | [] => some (none, s)

def readNumber (s : List Char) : Option (Json × List Char) :=
  let (negative, s) : Bool × List Char :=
    match s with
    | '-' :: r => (true, r)
    | r => (false, r)
  match readWholePart s with
  | none => none
  | some (whole, s) =>
    match readFraction s with
    | none => none
    | some (fraction, s) =>
      match readExponent s with
      | none => none
      | some (exponent, s) =>
        match fraction, exponent with
        | none, none => some (readWhole negative whole, s)
        | _, _ =>
          match readFloat whole (fraction.getD []) (exponent.getD 0) with
          | some x => some (number (if negative then x.neg else x), s)
          | none => some (unreadable, s)

/-! ## Documents -/

/-- The level from which on containers are not read. -/
def levelLimit : Nat := 128

/-- The container that stands at a level, if containers are read there. -/
def atLevel (level : Nat) (j : Json) : Json := if level < levelLimit then j else unreadable

/-- The object with the given members, unless one of the keys has no value. -/
def ofMembers (members : List (Option String × Json)) : Json :=
  match members.mapM fun (key, j) => key.map fun k => (k, j) with
  | some members => object members
  | none => unreadable

/-- What follows a word that stands for itself. -/
def afterWord (word : String) (s : List Char) : Option (List Char) :=
  if word.toList.isPrefixOf s then some (s.drop word.length) else none

mutual

/-- A document that starts at the first character or after blanks; its containers stand at the given
level. The fuel bounds the calls, of which each pair reads a character. -/
def readDocument (fuel level : Nat) (s : List Char) : Option (Json × List Char) :=
  match fuel with
  | 0 => none
  | fuel + 1 =>
    match skipSpace s with
    | [] => none
    | '[' :: rest =>
      match skipSpace rest with
      | ']' :: rest => some (atLevel level (array []), rest)
      | rest =>
        (readItems fuel (level + 1) rest).map fun (items, after) =>
          (atLevel level (array items), after)
    | '\x7b' :: rest =>
      match skipSpace rest with
      | '\x7d' :: rest => some (atLevel level (object []), rest)
      | rest =>
        (readMembers fuel (level + 1) rest).map fun (members, after) =>
          (atLevel level (ofMembers members), after)
    | '"' :: rest =>
      (readText rest).map fun (text, after) => ((text.map string).getD unreadable, after)
    | 'n' :: rest => (afterWord "ull" rest).map fun after => (null, after)
    | 't' :: rest => (afterWord "rue" rest).map fun after => (bool true, after)
    | 'f' :: rest => (afterWord "alse" rest).map fun after => (bool false, after)
    | s => readNumber s
termination_by structural fuel

/-- Items up to the closing bracket, at least one. -/
def readItems (fuel level : Nat) (s : List Char) : Option (List Json × List Char) :=
  match fuel with
  | 0 => none
  | fuel + 1 =>
    match readDocument fuel level s with
    | none => none
    | some (j, rest) =>
      match skipSpace rest with
      | ']' :: rest => some ([j], rest)
      | ',' :: rest => (readItems fuel level rest).map fun (items, after) => (j :: items, after)
      | _ => none
termination_by structural fuel

/-- Members up to the closing brace, at least one. -/
def readMembers (fuel level : Nat) (s : List Char) :
    Option (List (Option String × Json) × List Char) :=
  match fuel with
  | 0 => none
  | fuel + 1 =>
    match skipSpace s with
    | '"' :: rest =>
      match readText rest with
      | none => none
      | some (key, rest) =>
        match skipSpace rest with
        | ':' :: rest =>
          match readDocument fuel level rest with
          | none => none
          | some (j, rest) =>
            match skipSpace rest with
            | '\x7d' :: rest => some ([(key, j)], rest)
            | ',' :: rest =>
              (readMembers fuel level rest).map fun (members, after) => ((key, j) :: members, after)
            | _ => none
        | _ => none
    | _ => none
termination_by structural fuel

end

/-- The document that a whole text writes. -/
def parse? (s : String) : Option Json :=
  let s := s.toList
  match readDocument (2 * s.length + 2) 1 s with
  | some (j, rest) => if (skipSpace rest).isEmpty then some j else none
  | none => none

end Json

end GuardedFlow
