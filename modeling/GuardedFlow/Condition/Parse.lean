import GuardedFlow.Condition.Builder.Basic

/-!
# Reading a condition

The condition of a list of tokens, and of the text of an expression.
-/

namespace GuardedFlow.Condition

/-- The byte after the last token, which is where an end that comes too early is reported. It is a
natural number as `Token.stop` is, also for tokens whose places are made up. -/
def lastStop (tokens : List Token) : Nat := (tokens.getLast?.map Token.stop).getD 0

/-- The condition that a list of tokens writes. -/
def ofTokens (tokens : List Token) : Except SyntaxError Condition := do
  let b ← tokens.foldlM Builder.feed Builder.empty
  b.finish (lastStop tokens)

/-- The condition that a text writes. -/
def parse (text : String) : Except SyntaxError Condition :=
  match Token.tokenize text with
  | .ok tokens => ofTokens tokens
  | .error e => .error (.tokens e)

end GuardedFlow.Condition
