import GuardedFlow.Text.Hidden

/-!
# Quoted text

A text is shown between double quotes, with an escape for what would end or hide: the quote and the
backslash, the controls that have a letter, and every hidden character by its code point.
-/

namespace GuardedFlow.Text

/-- A character as it is written between double quotes. -/
def escapeChar (c : Char) : List Char :=
  if c = '\x00' then ['\\', '0']
  else if c = '\t' then ['\\', 't']
  else if c = '\r' then ['\\', 'r']
  else if c = '\n' then ['\\', 'n']
  else if c = '"' then ['\\', '"']
  else if c = '\\' then ['\\', '\\']
  else if isHidden c then ['\\', 'u', '\x7b'] ++ Nat.toDigits 16 c.toNat ++ ['\x7d']
  else [c]

/-- A text between double quotes, before it is packed into a string. -/
def quoteChars (s : List Char) : List Char := '"' :: (s.flatMap escapeChar ++ ['"'])

/-- A text between double quotes. -/
def quote (s : String) : String := String.ofList (quoteChars s.toList)

end GuardedFlow.Text
