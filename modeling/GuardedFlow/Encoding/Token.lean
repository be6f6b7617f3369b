import GuardedFlow.Encoding.Fields
import GuardedFlow.Encoding.Names

/-!
# Tokens in documents
-/

namespace GuardedFlow.Token

def Kind.toJson : Token.Kind → Json
  | .word => .string "Value"
  | .quoted => .string "QuotedString"
  | .operator o => .tagged "Operator" (.string o.name)
  | .delimiter d => .tagged "GroupDelim" (.string d.name)
  | .separator => .string "ListSeparator"

def Kind.ofJson? (j : Json) : Option Token.Kind :=
  match j.variant? with
  | some ("Value", payload) => if Json.isUnit payload then some .word else none
  | some ("QuotedString", payload) => if Json.isUnit payload then some .quoted else none
  | some ("ListSeparator", payload) => if Json.isUnit payload then some .separator else none
  | some ("Operator", some payload) => (payload.unitName?.bind Operator.ofName?).map .operator
  | some ("GroupDelim", some payload) => (payload.unitName?.bind Delimiter.ofName?).map .delimiter
  | _ => none

def toJson (t : Token) : Json :=
  .object [("kind", t.kind.toJson), ("text", .string t.text), ("offset", .ofNat t.offset),
    ("length", .ofNat t.length)]

def ofJson? (j : Json) : Option Token :=
  match j.fields? ["kind", "text", "offset", "length"] 4 with
  | some [kind, text, offset, length] => do
    let kind ← Json.required Kind.ofJson? kind
    let text ← Json.required Json.string? text
    let offset ← Json.required Json.nat? offset
    let length ← Json.required Json.nat? length
    return ⟨kind, text, offset, length⟩
  | _ => none

end GuardedFlow.Token
