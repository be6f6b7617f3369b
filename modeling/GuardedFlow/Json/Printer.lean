import GuardedFlow.Json.Number

/-!
# Writing documents

A document is written on one line without blanks (`Json.compact`) or over several lines, indented by
two spaces a level (`Json.pretty`). In a text only the quote, the backslash and the control
characters are escaped.
-/

namespace GuardedFlow.Json

/-! ## Texts -/

/-- A character as it is written between quotes. -/
def escapeChar (c : Char) : List Char :=
  if c = '"' then ['\\', '"']
  else if c = '\\' then ['\\', '\\']
  else if c = '\n' then ['\\', 'n']
  else if c = '\r' then ['\\', 'r']
  else if c = '\t' then ['\\', 't']
  else if c = '\x08' then ['\\', 'b']
  else if c = '\x0c' then ['\\', 'f']
  else if c.toNat < 0x20 then
    ['\\', 'u', '0', '0', Nat.digitChar (c.toNat / 16), Nat.digitChar (c.toNat % 16)]
  else [c]

def quote (s : String) : String := String.ofList ('"' :: (s.toList.flatMap escapeChar ++ ['"']))

/-! ## On one line -/

mutual

/-- A document on one line. -/
def compact : Json → String
  | null => "null"
  | bool b => if b then "true" else "false"
  | integer i => toString i
  | number x => numberText x
  | string s => quote s
  | array items => "[" ++ compactItems items ++ "]"
  | object members => "\x7b" ++ compactMembers members ++ "\x7d"
  | unreadable => "null"
termination_by structural j => j

def compactItems : List Json → String
  | [] => ""
  | [j] => j.compact
  | j :: rest => j.compact ++ "," ++ compactItems rest
termination_by structural l => l

def compactMembers : List (String × Json) → String
  | [] => ""
  | [(key, j)] => quote key ++ ":" ++ j.compact
  | (key, j) :: rest => quote key ++ ":" ++ j.compact ++ "," ++ compactMembers rest
termination_by structural l => l

end

/-! ## Over several lines -/

/-- A line break and the blanks in front of a line of the given level. -/
def newLine (level : Nat) : String := String.ofList ('\n' :: List.replicate (2 * level) ' ')

mutual

/-- A document whose first line starts at the given level. -/
def prettyAt (level : Nat) : Json → String
  | array [] => "[]"
  | array items => "[" ++ prettyItems (level + 1) items ++ newLine level ++ "]"
  | object [] => "\x7b\x7d"
  | object members => "\x7b" ++ prettyMembers (level + 1) members ++ newLine level ++ "\x7d"
  | j => j.compact
termination_by structural j => j

def prettyItems (level : Nat) : List Json → String
  | [] => ""
  | [j] => newLine level ++ j.prettyAt level
  | j :: rest => newLine level ++ j.prettyAt level ++ "," ++ prettyItems level rest
termination_by structural l => l

def prettyMembers (level : Nat) : List (String × Json) → String
  | [] => ""
  | [(key, j)] => newLine level ++ quote key ++ ": " ++ j.prettyAt level
  | (key, j) :: rest =>
    newLine level ++ quote key ++ ": " ++ j.prettyAt level ++ "," ++ prettyMembers level rest
termination_by structural l => l

end

/-- A document over several lines. -/
def pretty (j : Json) : String := j.prettyAt 0

end GuardedFlow.Json
