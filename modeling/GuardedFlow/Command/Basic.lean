/-!
# Commands

The four commands and the way they are written as arguments. Options may stand anywhere among the
arguments of a command, their values after an equals sign or as the next argument, and two dashes
end them.
-/

namespace GuardedFlow

/-- A command. -/
inductive Command where
  /-- Lists the tokens of an expression. -/
  | tokenize (expression : String)
  /-- Shows the condition of an expression as a document. -/
  | parse (expression : String) (isCompact : Bool)
  /-- Evaluates an expression on a document. -/
  | eval (expression scope item : String) (folding : Bool)
  /-- Checks a file of definitions. -/
  | check (path : String)
deriving DecidableEq, Repr

namespace Command

/-! ## Arguments -/

/-- An option of a command. -/
structure Switch where
  long : String
  short : Option Char := none
  takesValue : Bool := false

/-- What the arguments of a command give: its operands and its options in order. -/
structure Arguments where
  operands : List String := []
  options : List (String × String) := []

/-- An option and the value written with it, if any, from one argument. -/
def matchSwitch? (switches : List Switch) (argument : String) : Option (Switch × Option String) :=
  match argument.toList with
  | '-' :: '-' :: cs =>
    let name := String.ofList (cs.takeWhile (· != '='))
    (switches.find? fun w => w.long == name).map fun w =>
      match cs.dropWhile (· != '=') with
      | [] => (w, none)
      | _ :: value => (w, some (String.ofList value))
  | '-' :: c :: cs =>
    (switches.find? fun w => w.short == some c).map fun w =>
      match cs with
      | [] => (w, none)
      | '=' :: value => (w, some (String.ofList value))
      | value => (w, some (String.ofList value))
  | _ => none

/-- Whether an argument is written like an option. -/
def isOption (argument : String) : Bool :=
  match argument.toList with
  | '-' :: _ :: _ => true
  | _ => false

/-- Sorts arguments into operands and options; nothing if an option is unknown, lacks its value or
has one it does not take. -/
def sortArguments? (switches : List Switch) : List String → Option Arguments
  | [] => some {}
  | "--" :: rest => some { operands := rest }
  | argument :: rest =>
    if isOption argument then
      match matchSwitch? switches argument with
      | none => none
      | some (w, some value) =>
        if w.takesValue then
          (sortArguments? switches rest).map fun a =>
            { a with options := (w.long, value) :: a.options }
        else none
      | some (w, none) =>
        if w.takesValue then
          match rest with
          | [] => none
          | value :: others =>
            if isOption value then none
            else
              (sortArguments? switches others).map fun a =>
                { a with options := (w.long, value) :: a.options }
        else (sortArguments? switches rest).map fun a =>
          { a with options := (w.long, "") :: a.options }
    else (sortArguments? switches rest).map fun a => { a with operands := argument :: a.operands }

/-- The value of an option, which must not be given twice. -/
def Arguments.value? (a : Arguments) (name : String) : Option (Option String) :=
  match a.options.filter fun o => o.1 == name with
  | [] => some none
  | [(_, value)] => some (some value)
  | _ => none

def Arguments.operand? (a : Arguments) : Option String :=
  match a.operands with
  | [s] => some s
  | _ => none

def parse? : List String → Option Command
  | "tokenize" :: rest => do
    let a ← sortArguments? [] rest
    return tokenize (← a.operand?)
  | "parse" :: rest => do
    let a ← sortArguments? [⟨"compact", none, false⟩] rest
    return parse (← a.operand?) (← a.value? "compact").isSome
  | "eval" :: rest => do
    let a ← sortArguments? [⟨"prefix", some 'p', true⟩, ⟨"item", some 'i', true⟩,
        ⟨"no-fold", none, false⟩] rest
    let scope := (← a.value? "prefix").getD ""
    let item := (← a.value? "item").getD "\x7b\x7d"
    return eval (← a.operand?) scope item (← a.value? "no-fold").isNone
  | "check" :: rest => do
    let a ← sortArguments? [] rest
    return check (← a.operand?)
  | _ => none

def path? : Command → Option String
  | check path => some path
  | _ => none

end Command

end GuardedFlow
