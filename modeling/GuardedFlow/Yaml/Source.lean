/-!
# Characters with their places

Block structure is told by columns, so a text is read as a list of characters that each know their
line and column. A carriage return, alone or with a line feed, and the next-line character count as
a line feed; the line and the paragraph separator end a line and stay what they are.
-/

namespace GuardedFlow.Yaml

/-- A character at its place, which is also counted from the start of the text. -/
structure Spot where
  char : Char
  line : Nat
  column : Nat
  index : Nat

/-- What is left of a text. -/
abbrev Source := List Spot

/-- Whether a character ends a line. -/
def isLineEnd (c : Char) : Bool := c == '\n' || c == '\u2028' || c == '\u2029'

/-- A text in which every other way to end a line is a line feed. -/
def withLineFeeds : List Char → List Char
  | [] => []
  | '\r' :: '\n' :: rest => '\n' :: withLineFeeds rest
  | '\r' :: rest => '\n' :: withLineFeeds rest
  | '\u0085' :: rest => '\n' :: withLineFeeds rest
  | c :: rest => c :: withLineFeeds rest

/-- The characters of a text that starts at the given place. -/
def locate (line column index : Nat) : List Char → Source
  | [] => []
  | c :: rest =>
    ⟨c, line, column, index⟩ ::
      (if isLineEnd c then locate (line + 1) 0 (index + 1) rest
        else locate line (column + 1) (index + 1) rest)

/-- Whether a character may stand in a document at all. -/
def isAllowed (c : Char) : Bool :=
  let n := c.toNat
  c == '\t' || c == '\n' || c == '\r' || n == 0x85 || (0x20 ≤ n && n ≤ 0x7E) ||
    (0xA0 ≤ n && n ≤ 0xFFFD)
    || 0x10000 ≤ n

/-- The characters of a whole text, unless one is not allowed. -/
def Source.ofText? (s : String) : Option Source :=
  let cs := s.toList
  if cs.all isAllowed then some (locate 0 0 0 (withLineFeeds cs)) else none

/-- Whether a character separates on one line. -/
def isBlank (c : Char) : Bool := c == ' ' || c == '\t'

/-- Whether a text is at its end, at a blank or at the end of a line. -/
def atBreak : Source → Bool
  | [] => true
  | s :: _ => isBlank s.char || isLineEnd s.char

/-- Whether a text starts with the mark between documents that is made of the given character. -/
def atMark (mark : Char) : Source → Bool
  | a :: b :: c :: rest =>
    a.column == 0 && a.char == mark && b.char == mark && c.char == mark && atBreak rest
  | _ => false

/-- Whether a text starts with a mark before or after a document. -/
def atAnyMark (s : Source) : Bool := atMark '-' s || atMark '.' s

/-- A text from the next thing that is neither blank, comment nor line end, and whether a key may
start there. In a block a key may start on every new line, and where one may start a tab is no
blank. A byte order mark may stand at the start of each line, where it takes up its column. -/
def skipSpace (inFlow : Bool) : (keyAllowed inComment : Bool) → Source → Bool × Source
  | keyAllowed, _, [] => (keyAllowed, [])
  | keyAllowed, inComment, s :: rest =>
    if isLineEnd s.char then skipSpace inFlow (keyAllowed || !inFlow) false rest
    else if s.column == 0 && s.char == '\uFEFF' then skipSpace inFlow keyAllowed false rest
    else if inComment || s.char == ' ' || (s.char == '\t' && (inFlow || !keyAllowed)) then
      skipSpace inFlow keyAllowed inComment rest
    else if s.char == '#' then skipSpace inFlow keyAllowed true rest
    else (keyAllowed, s :: rest)

end GuardedFlow.Yaml
