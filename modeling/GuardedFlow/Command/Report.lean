import GuardedFlow.Command.Basic
import GuardedFlow.Definition.Check
import GuardedFlow.Encoding.Condition
import GuardedFlow.Json.Printer
import GuardedFlow.Json.Reader

/-!
# What commands report

A command succeeds with output, or fails with a message. Evaluation tells its result by the exit
code as well: zero when the expression holds and one when it does not. A failure has the code two.
-/

namespace GuardedFlow

/-- The exit code of a command and what it writes. -/
structure Report where
  code : Nat
  output : String
  errors : String
deriving DecidableEq, Repr

namespace Report

def success (lines : List String) : Report := ⟨0, String.join (lines.map (· ++ "\n")), ""⟩

def failure (message : String) : Report := ⟨2, "", "error: " ++ message ++ "\n"⟩

end Report

namespace Command

def padLeft (width : Nat) (s : String) : String :=
  String.ofList (List.replicate (width - s.length) ' ') ++ s

def padRight (width : Nat) (s : String) : String :=
  s ++ String.ofList (List.replicate (width - s.length) ' ')

def tokenLine (t : Token) : String :=
  padLeft 4 (toString t.offset) ++ "  " ++ padRight 13 t.kind.name ++ " " ++ t.text

/-- The result of an expression on a value. -/
def evaluate (expression scope : String) (folding : Bool) (item : Value) : Report :=
  match Predicate.ofText Resolver.value scope folding expression with
  | .error e => .failure e.message
  | .ok p =>
    let result := p.test item
    { Report.success [Value.boolText result] with code := if result then 0 else 1 }

/-- What a command reports; `content` is what the file it reads holds, if there is one. -/
def report (content : Option String) : Command → Report
  | tokenize expression =>
    match Token.tokenize expression with
    | .ok tokens => .success (tokens.map tokenLine)
    | .error e => .failure (SyntaxError.tokens e).message
  | parse expression isCompact =>
    match Condition.parse expression with
    | .ok c => .success [if isCompact then c.toJson.compact else c.toJson.pretty]
    | .error e => .failure e.message
  | eval expression scope item folding =>
    match (Json.parse? item).bind Value.ofJson? with
    | none => .failure "--item is not valid JSON"
    | some v => evaluate expression scope folding v
  | check path =>
    match DefinitionSet.ofFile path content with
    | .error e => .failure e.message
    | .ok d =>
      match d.check with
      | .ok _ => .success ["ok"]
      | .error e => .failure e.message

end Command

end GuardedFlow
