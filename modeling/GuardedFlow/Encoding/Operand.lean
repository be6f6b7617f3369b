import GuardedFlow.Encoding.Names
import GuardedFlow.Encoding.Value

/-!
# Operands in documents

Each kind of operand is a variant. An operand is read by recursion on a bound of the nesting, which
`Operand.ofJson?` takes from the document itself.
-/

namespace GuardedFlow.Operand

mutual

def toJson : Operand → Json
  | var name => .tagged "Variable" (.string name)
  | literal v => .tagged "Literal" v.toJson
  | null => .string "NullLiteral"
  | binary left op right =>
    .tagged "BinaryOp"
      (.object [("left", left.toJson), ("op", .string op.name), ("right", right.toJson)])
  | unary op operand =>
    .tagged "Unary" (.object [("op", .string op.name), ("operand", operand.toJson)])
  | call name args =>
    .tagged "FunctionCall" (.object [("name", .string name), ("args", .array (allToJson args))])
  | list items => .tagged "ValueList" (.array (allToJson items))
termination_by structural o => o

def allToJson : List Operand → List Json
  | [] => []
  | o :: rest => o.toJson :: allToJson rest
termination_by structural l => l

end

def readBinary? (read : Json → Option Operand) (payload : Json) : Option Operand :=
  match payload.fields? ["left", "op", "right"] 3 with
  | some [left, op, right] => do
    let left ← Json.required read left
    let op ← Json.required (fun j => j.unitName?.bind BinaryOp.ofName?) op
    let right ← Json.required read right
    return binary left op right
  | _ => none

def readUnary? (read : Json → Option Operand) (payload : Json) : Option Operand :=
  match payload.fields? ["op", "operand"] 2 with
  | some [op, operand] => do
    let op ← Json.required (fun j => j.unitName?.bind UnaryOp.ofName?) op
    let operand ← Json.required read operand
    return unary op operand
  | _ => none

def readCall? (read : Json → Option Operand) (payload : Json) : Option Operand :=
  match payload.fields? ["name", "args"] 2 with
  | some [name, args] => do
    let name ← Json.required Json.string? name
    let args ← Json.required (Json.list? read) args
    return call name args
  | _ => none

/-- The operand that a document writes, if it is nested no deeper than the fuel. -/
def read? : Nat → Json → Option Operand
  | 0, _ => none
  | fuel + 1, j =>
    match j.variant? with
    | some ("NullLiteral", payload) => if Json.isUnit payload then some null else none
    | some ("Variable", some payload) => payload.string?.map var
    | some ("Literal", some payload) => (Value.ofJson? payload).map literal
    | some ("BinaryOp", some payload) => readBinary? (read? fuel) payload
    | some ("Unary", some payload) => readUnary? (read? fuel) payload
    | some ("FunctionCall", some payload) => readCall? (read? fuel) payload
    | some ("ValueList", some payload) => (payload.list? (read? fuel)).map list
    | _ => none

def ofJson? (j : Json) : Option Operand := read? (j.depth + 1) j

end GuardedFlow.Operand
