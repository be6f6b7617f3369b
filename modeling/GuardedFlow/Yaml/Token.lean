import GuardedFlow.Yaml.Scalar

/-!
# Tokens in block notation

What is written as columns and colons is told by tokens: a block collection has a start and an end,
and a key has a mark in front of it. Whether a scalar or a flow collection is a key is only known at
the colon behind it, so each level of brackets remembers the last place where a key may have
started. A key stands on one line and takes at most 1024 characters up to its colon.
-/

namespace GuardedFlow.Yaml

/-- A token of a document. -/
inductive Token where
  | documentStart
  | documentEnd
  | sequenceStart
  | mappingStart
  | blockEnd
  /-- The dash in front of an item. -/
  | item
  /-- The mark in front of a key, written or not. -/
  | key
  /-- The colon in front of a value. -/
  | value
  | openBracket
  | closeBracket
  | openBrace
  | closeBrace
  | comma
  | scalar (text : String) (isPlain : Bool)
deriving DecidableEq, Repr

/-- A place where a key may have started. -/
structure KeyStart where
  line : Nat
  column : Nat
  index : Nat
  /-- Whether only a key can stand there, since the line starts in the column of an open block. -/
  isRequired : Bool
  /-- How many tokens stand in front. -/
  position : Nat

/-- Whether a colon here is too far away to follow a key. -/
def KeyStart.isOver (k : KeyStart) (s : Spot) : Bool := k.line < s.line || k.index + 1024 < s.index

/-- What is known of a text up to some place. -/
structure Layout where
  /-- The columns of the open block collections, from the innermost. -/
  columns : List Nat := []
  /-- Where the last key may have started inside the innermost brackets. -/
  keyStart : Option KeyStart := none
  /-- The same for each level outside of these. -/
  outerKeyStarts : List (Option KeyStart) := []
  /-- Whether a key may start here. -/
  keyAllowed : Bool := true
  tokens : Array Token := #[]

namespace Layout

def inFlow (l : Layout) : Bool := !l.outerKeyStarts.isEmpty

/-- The least column for further lines of a scalar. -/
def least (l : Layout) : Nat := (l.columns.head?.map (· + 1)).getD 0

/-- A layout with one more token. -/
def push (l : Layout) (t : Token) : Layout := { l with tokens := l.tokens.push t }

/-- A layout with a token that stands in front of others. -/
def insert (l : Layout) (position : Nat) (t : Token) : Layout :=
  { l with tokens := l.tokens.extract 0 position ++ #[t] ++
    l.tokens.extract position l.tokens.size }

/-! ## Blocks -/

/-- Closes the block collections that start behind a column. -/
def closeBlocks (l : Layout) (column : Nat) : Layout :=
  if l.inFlow then l
  else
    { l with
      columns := l.columns.dropWhile (column < ·)
      tokens := l.tokens ++ Array.replicate (l.columns.takeWhile (column < ·)).length .blockEnd }

def closeAll (l : Layout) : Layout :=
  if l.inFlow then l
  else { l with columns := [], tokens := l.tokens ++ Array.replicate l.columns.length .blockEnd }

/-- Opens a block collection in a column, unless it is open already. -/
def openBlock (l : Layout) (column position : Nat) (start : Token) : Layout :=
  if l.inFlow || l.columns.head?.any (column ≤ ·) then l
  else { l.insert position start with columns := column :: l.columns }

/-! ## Keys -/

/-- Forgets the places that are too far away for a key; one that had to be a key is an error. -/
def forget? (l : Layout) (s : Spot) : Option Layout :=
  if (l.keyStart :: l.outerKeyStarts).any fun start => start.any fun k =>
    k.isRequired && k.isOver s then none
  else
    let fresh (start : Option KeyStart) := start.filter fun k => !k.isOver s
    some { l with keyStart := fresh l.keyStart, outerKeyStarts := l.outerKeyStarts.map fresh }

/-- Forgets the last place where a key may have started. -/
def dropKey? (l : Layout) : Option Layout :=
  if l.keyStart.any KeyStart.isRequired then none else some { l with keyStart := none }

/-- Remembers a place where a key may start. -/
def markKey? (l : Layout) (s : Spot) : Option Layout :=
  if l.keyAllowed then
    l.dropKey?.map fun l =>
      { l with
        keyStart := some
          ⟨s.line, s.column, s.index, !l.inFlow && l.columns.head? == some s.column,
            l.tokens.size⟩ }
  else some l

/-! ## Steps -/

/-- Reads the mark before or after a document. -/
def document? (l : Layout) (t : Token) : Option Layout :=
  l.closeAll.dropKey?.map fun l => { l.push t with keyAllowed := false }

/-- Reads an opening bracket. -/
def openFlow? (l : Layout) (s : Spot) (t : Token) : Option Layout :=
  (l.markKey? s).map fun l =>
    { l.push t with
      keyStart := none, outerKeyStarts := l.keyStart :: l.outerKeyStarts, keyAllowed := true }

/-- Reads a closing bracket. -/
def closeFlow? (l : Layout) (t : Token) : Option Layout :=
  l.dropKey?.map fun l =>
    { l.push t with
      keyStart := l.outerKeyStarts.head?.join, outerKeyStarts := l.outerKeyStarts.tail,
      keyAllowed := false }

def comma? (l : Layout) : Option Layout :=
  l.dropKey?.map fun l => { l.push .comma with keyAllowed := true }

/-- Reads the dash in front of an item. -/
def item? (l : Layout) (s : Spot) : Option Layout :=
  if !l.inFlow && !l.keyAllowed then none
  else (l.openBlock s.column l.tokens.size .sequenceStart).dropKey?.map fun l =>
    { l.push .item with keyAllowed := true }

/-- Reads the written mark in front of a key. -/
def key? (l : Layout) (s : Spot) : Option Layout :=
  if !l.inFlow && !l.keyAllowed then none
  else (l.openBlock s.column l.tokens.size .mappingStart).dropKey?.map fun l =>
    { l.push .key with keyAllowed := !l.inFlow }

/-- Reads the colon in front of a value, which tells that a key started where one may have. -/
def value? (l : Layout) (s : Spot) : Option Layout :=
  match l.keyStart with
  | some k =>
    let l := (l.insert k.position .key).openBlock k.column k.position .mappingStart
    some { l.push .value with keyStart := none, keyAllowed := false }
  | none =>
    if !l.inFlow && !l.keyAllowed then none
    else
      let l := l.openBlock s.column l.tokens.size .mappingStart
      some { l.push .value with keyAllowed := !l.inFlow }

/-- Reads a scalar between quotes. -/
def quoted? (l : Layout) (s : Spot) (rest : Source) : Option (Layout × Source) := do
  let l ← l.markKey? s
  let (text, after) ← readQuoted? (s :: rest)
  return ({ l.push (.scalar text false) with keyAllowed := false }, after)

/-- Reads a plain scalar. A key may start behind it on another line. -/
def plain? (l : Layout) (s : Spot) (rest : Source) : Option (Layout × Source) := do
  let l ← l.markKey? s
  let (pieces, run, after) ← readPlain? l.inFlow l.least [] (s :: rest)
  let text := String.ofList (fold [] pieces)
  return ({ l.push (.scalar text true) with keyAllowed := run.any fun p => p.lineEnd?.isSome },
    after)

/-- Reads the token that starts here. -/
def step? (l : Layout) (s : Spot) (rest : Source) : Option (Layout × Source) :=
  let one (l : Option Layout) : Option (Layout × Source) := l.map fun l => (l, rest)
  let alone := l.inFlow || atBreak rest
  if s.column = 0 ∧ s.char = '%' then none
  else if atMark '-' (s :: rest) then (l.document? .documentStart).map fun l => (l, rest.drop 2)
  else if atMark '.' (s :: rest) then (l.document? .documentEnd).map fun l => (l, rest.drop 2)
  else if s.char = '[' then one (l.openFlow? s .openBracket)
  else if s.char = '\x7b' then one (l.openFlow? s .openBrace)
  else if s.char = ']' then one (l.closeFlow? .closeBracket)
  else if s.char = '\x7d' then one (l.closeFlow? .closeBrace)
  else if s.char = ',' then one l.comma?
  else if s.char = '-' ∧ atBreak rest then one (l.item? s)
  else if s.char = '?' ∧ alone then one (l.key? s)
  else if s.char = ':' ∧ alone then one (l.value? s)
  else if atQuote (s :: rest) then l.quoted? s rest
  else if startsPlain (s :: rest) then l.plain? s rest
  else none

/-- Reads all tokens. Each takes a character, so the fuel of one more than there are characters
suffices. -/
def scan? : Nat → Layout → Source → Option (List Token)
  | 0, _, _ => none
  | fuel + 1, l, source =>
    match skipSpace l.inFlow l.keyAllowed false source with
    | (_, []) =>
      if l.keyStart.any KeyStart.isRequired then none else some l.closeAll.tokens.toList
    | (keyAllowed, s :: rest) => do
      let l ← forget? { l with keyAllowed } s
      let (l, after) ← (l.closeBlocks s.column).step? s rest
      scan? fuel l after

end Layout

def tokens? (text : String) : Option (List Token) := do
  let source ← Source.ofText? text
  Layout.scan? (source.length + 1) {} source

end GuardedFlow.Yaml
