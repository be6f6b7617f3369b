import GuardedFlow.Json.Reader
import GuardedFlow.Yaml.Source

/-!
# Scalars in block notation

Scalars are plain or stand between quotes. A scalar may go on over several lines: a single line end
becomes a blank, of several ones the first is dropped, and blanks around a line end count for
nothing. After a line end that is escaped the others are all kept.
-/

namespace GuardedFlow.Yaml

/-! ## Folding -/

/-- A part of a scalar as it is written. -/
inductive Piece where
  /-- A character that stands for itself, blanks included that were escaped. -/
  | char (c : Char)
  | blank (c : Char)
  | lineEnd (c : Char)
  /-- A line end that was escaped. -/
  | splice

namespace Piece

def ofChar (c : Char) : Piece :=
  if isLineEnd c then lineEnd c else if isBlank c then blank c else char c

def lineEnd? : Piece → Option Char
  | lineEnd c => some c
  | _ => none

def blank? : Piece → Option Char
  | blank c => some c
  | _ => none

end Piece

/-- What a run of blanks and line ends stands for. An escaped line end can only stand in front. -/
def foldRun (run : List Piece) : List Char :=
  match run, run.filterMap Piece.lineEnd? with
  | .splice :: _, ends => ends
  | _, [] => run.filterMap Piece.blank?
  | _, ['\n'] => [' ']
  | _, '\n' :: more => more
  | _, ends => ends

/-- The text of a scalar after a run of blanks and line ends, which is given backwards. -/
def fold (run : List Piece) : List Piece → List Char
  | [] => foldRun run.reverse
  | .char c :: rest => foldRun run.reverse ++ c :: fold [] rest
  | .splice :: rest => foldRun run.reverse ++ fold [.splice] rest
  | p :: rest => fold (p :: run) rest

/-! ## Between quotes -/

/-- The pieces up to a closing single quote, which is written twice inside. No line may look like
the mark of a document. -/
def readSingle : Source → Option (List Piece × Source)
  | [] => none
  | s :: rest =>
    if atAnyMark (s :: rest) then none
    else if s.char = '\'' then
      match rest with
      | t :: after =>
        if t.char = '\'' then (readSingle after).map fun (ps, r) => (.char '\'' :: ps, r)
        else some ([], t :: after)
      | [] => some ([], [])
    else (readSingle rest).map fun (ps, r) => (Piece.ofChar s.char :: ps, r)

/-- The characters with a letter after a backslash. -/
def escapes : List (Char × Char) :=
  [('0', '\x00'), ('a', '\x07'), ('b', '\x08'), ('t', '\t'), ('\t', '\t'), ('n', '\n'),
    ('v', '\x0b'), ('f', '\x0c'), ('r', '\r'), ('e', '\x1b'), (' ', ' '), ('"', '"'), ('/', '/'),
    ('\\', '\\'), ('N', '\u0085'), ('_', '\u00a0'), ('L', '\u2028'), ('P', '\u2029')]

/-- The number of hexadecimal digits after a letter that introduces a code point. -/
def codeLength (c : Char) : Nat :=
  if c = 'x' then 2 else if c = 'u' then 4 else if c = 'U' then 8 else 0

/-- The character with the code point that the digits write. -/
def ofCode? (digits : List Char) : Option Char := do
  let values ← digits.mapM Json.hexDigit?
  let n := values.foldl (fun n d => 16 * n + d) 0
  if h : n.isValidChar then some (Char.ofNatAux n h) else none

/-- The pieces up to a closing double quote. The fuel bounds the pieces. -/
def readDouble : Nat → Source → Option (List Piece × Source)
  | 0, _ => none
  | _, [] => none
  | fuel + 1, s :: rest =>
    if atAnyMark (s :: rest) then none
    else if s.char = '"' then some ([], rest)
    else if s.char = '\\' then
      match rest with
      | [] => none
      | t :: after =>
        if isLineEnd t.char then (readDouble fuel after).map fun (ps, r) => (.splice :: ps, r)
        else
          let length := codeLength t.char
          let escaped : Option Char :=
            if length = 0 then (escapes.find? fun e => e.1 == t.char).map Prod.snd
            else if after.length < length then none
            else ofCode? ((after.take length).map Spot.char)
          match escaped with
          | none => none
          | some c => (readDouble fuel (after.drop length)).map fun (ps, r) => (.char c :: ps, r)
    else (readDouble fuel rest).map fun (ps, r) => (Piece.ofChar s.char :: ps, r)

/-- Whether a text starts with a quote. -/
def atQuote : Source → Bool
  | s :: _ => s.char == '\'' || s.char == '"'
  | [] => false

/-- A scalar between quotes, with what follows. -/
def readQuoted? (s : Source) : Option (String × Source) :=
  match s with
  | [] => none
  | q :: rest =>
    let pieces :=
      if q.char = '\'' then readSingle rest
      else if q.char = '"' then readDouble (rest.length + 1) rest
      else none
    pieces.map fun (ps, after) => (String.ofList (fold [] ps), after)

/-! ## Plain -/

/-- The characters that mean something in a flow collection. -/
def isFlowMark (c : Char) : Bool := c == ',' || c == '[' || c == ']' || c == '\x7b' || c == '\x7d'

/-- Whether a plain scalar can start here, where no other mark does. -/
def startsPlain : Source → Bool
  | [] => false
  | s :: rest =>
    if s.char = '-' ∨ s.char = '?' ∨ s.char = ':' then !atBreak rest
    else
      !(isBlank s.char || isLineEnd s.char || isFlowMark s.char ||
        "#&*!|>'\"%@\x60".toList.contains s.char)

/-- Whether a plain scalar ends before the next word, which comes after a run of blanks and line
ends: at a mark of a document, at a comment, and in a block at a line that starts in front of the
least column. -/
def endsBefore (inFlow : Bool) (least : Nat) (s : Spot) (rest : Source) : Bool :=
  atAnyMark (s :: rest) || s.char == '#' || (!inFlow && s.column < least)

/-- Whether a plain scalar ends inside a word. -/
def endsAt (inFlow : Bool) (s : Spot) (rest : Source) : Bool :=
  (s.char == ':' && atBreak rest) || (inFlow && isFlowMark s.char)

/-- Whether a colon inside a flow collection touches a mark. -/
def misplacedColon (inFlow : Bool) (s : Spot) (rest : Source) : Bool :=
  inFlow && s.char == ':' && rest.head?.any fun t => t.char == '?' || isFlowMark t.char

/-- The pieces of a plain scalar after a run of blanks and line ends, with the blanks and line ends
behind it and what follows them. No tab may help to reach the least column. -/
def readPlain? (inFlow : Bool) (least : Nat) (run : List Piece) :
    Source → Option (List Piece × List Piece × Source)
  | [] => some ([], run, [])
  | s :: rest =>
    let broken := run.any fun p => p.lineEnd?.isSome
    if isBlank s.char || isLineEnd s.char then
      if broken && s.char == '\t' && s.column < least then none
      else readPlain? inFlow least (Piece.ofChar s.char :: run) rest
    else if !run.isEmpty && endsBefore inFlow least s rest then some ([], run, s :: rest)
    else if misplacedColon inFlow s rest then none
    else if endsAt inFlow s rest then some ([], run, s :: rest)
    else
      (readPlain? inFlow least [] rest).map fun (ps, after) =>
        (run.reverse ++ .char s.char :: ps, after)

end GuardedFlow.Yaml
