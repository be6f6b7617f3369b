import GuardedFlow.Text.Quoted

/-!
# Predicates

A predicate is a test on records together with the text it comes from.
-/

namespace GuardedFlow

/-- A test on records. -/
structure Predicate (α : Type) where
  /-- The text that the test comes from. -/
  source : String
  test : α → Bool

def Predicate.display {α : Type} (p : Predicate α) : String :=
  "Predicate(" ++ Text.quote p.source ++ ")"

end GuardedFlow
