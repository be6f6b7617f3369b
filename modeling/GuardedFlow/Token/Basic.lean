import GuardedFlow.Text.Quoted

/-!
# Tokens

The units an expression is read in: words, quoted texts, operators, delimiters and commas. Every
token carries the text it stands for and its place in the source, counted in bytes of UTF-8.
-/

namespace GuardedFlow

/-- The operator symbols. -/
inductive Operator where
  | eq | ne | gt | ge | lt | le
  | and | or
  | add | sub | mul | div | mod
  | bitAnd | bitOr | bitXor | shl | shr | bitNot
deriving DecidableEq, Repr

namespace Operator

def symbol : Operator → String
  | eq => "="
  | ne => "!="
  | gt => ">"
  | ge => ">="
  | lt => "<"
  | le => "<="
  | and => "&&"
  | or => "||"
  | add => "+"
  | sub => "-"
  | mul => "*"
  | div => "/"
  | mod => "%"
  | bitAnd => "&"
  | bitOr => "|"
  | bitXor => "^"
  | shl => "<<"
  | shr => ">>"
  | bitNot => "~"

/-- All operators, longer symbols first, so that the first match is the longest one. -/
def longestFirst : List Operator :=
  [ne, ge, le, shl, shr, and, or, eq, gt, lt, add, sub, mul, div, mod, bitAnd, bitOr,
    bitXor, bitNot]

/-- Whether an operator compares two operands. -/
def isComparison : Operator → Bool
  | eq | ne | gt | ge | lt | le => true
  | _ => false

/-- Whether an operator joins two conditions. -/
def isLogical : Operator → Bool
  | and | or => true
  | _ => false

/-- Whether an operator builds operands. -/
def isMath (o : Operator) : Bool := !o.isComparison && !o.isLogical

end Operator

/-- The delimiters of groups, calls and value lists. -/
inductive Delimiter where
  | openParen | closeParen | openBracket | closeBracket | openBrace | closeBrace
deriving DecidableEq, Repr

namespace Delimiter

def char : Delimiter → Char
  | openParen => '('
  | closeParen => ')'
  | openBracket => '['
  | closeBracket => ']'
  | openBrace => '\x7b'
  | closeBrace => '\x7d'

/-- The delimiter with a given character. -/
def ofChar? (c : Char) : Option Delimiter :=
  [openParen, closeParen, openBracket, closeBracket, openBrace, closeBrace].find? (·.char == c)

def isOpen : Delimiter → Bool
  | openParen | openBracket | openBrace => true
  | _ => false

/-- The delimiter that closes an opening one; a closing one is its own. -/
def closing : Delimiter → Delimiter
  | openParen => closeParen
  | openBracket => closeBracket
  | openBrace => closeBrace
  | d => d

end Delimiter

namespace Token

/-- The kinds of tokens. -/
inductive Kind where
  /-- A bare word or number. -/
  | word
  /-- A text between quotes; the token's text has the escapes undone. -/
  | quoted
  | operator (o : Operator)
  | delimiter (d : Delimiter)
  /-- A comma. -/
  | separator
deriving DecidableEq, Repr

end Token

/-- A unit of an expression with its place in the source. -/
structure Token where
  kind : Token.Kind
  text : String
  /-- The byte at which the token starts. -/
  offset : Nat
  /-- The number of bytes that the token covers, quotes included. -/
  length : Nat
deriving DecidableEq, Repr

namespace Token

def word (text : String) (offset : Nat) : Token := ⟨.word, text, offset, text.utf8ByteSize⟩

def operator (o : Operator) (offset : Nat) : Token :=
  ⟨.operator o, o.symbol, offset, o.symbol.utf8ByteSize⟩

def delimiter (d : Delimiter) (offset : Nat) : Token :=
  ⟨.delimiter d, String.singleton d.char, offset, 1⟩

def separator (offset : Nat) : Token := ⟨.separator, ",", offset, 1⟩

def operator? (t : Token) : Option Operator :=
  match t.kind with
  | .operator o => some o
  | _ => none

/-- The byte after the token. Places are natural numbers, so that the sum never wraps around: words
of 64 bits agree with them as long as the sum stays below `2 ^ 64`, as it does in every text. -/
def stop (t : Token) : Nat := t.offset + t.length

def Kind.name : Kind → String
  | .word => "Value"
  | .quoted => "QuotedString"
  | .operator _ => "Operator"
  | .delimiter _ => "GroupDelim"
  | .separator => "ListSeparator"

def display (t : Token) : String :=
  match t.kind with
  | .word => "Value(" ++ t.text ++ ")"
  | .quoted => "QuotedString(" ++ Text.quote t.text ++ ")"
  | .operator o => "Operator(" ++ o.symbol ++ ")"
  | .delimiter d => "GroupDelim(" ++ String.singleton d.char ++ ")"
  | .separator => "ListSeparator"

end Token

end GuardedFlow
