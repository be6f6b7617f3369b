import GuardedFlow.Yaml.Basic
import GuardedFlow.Yaml.Token

/-!
# Reading block notation

`Yaml.parse?` reads one document of mappings, sequences and scalars, in block or in flow notation.
Where a key, a value or an item is left out, the empty scalar stands.

Each function bounds its recursion by fuel, of which a whole document needs at most three for each
token.
-/

namespace GuardedFlow.Yaml

/-- Whether the first token, if there is one, is one of the given ones. -/
def startsWith (among : List Token) (ts : List Token) : Bool := ts.head?.any among.contains

/-! ## Flow collections -/

mutual

/-- A node inside brackets. -/
def readFlow (fuel : Nat) (ts : List Token) : Option (Yaml × List Token) :=
  match fuel with
  | 0 => none
  | fuel + 1 =>
    match ts with
    | .scalar text isPlain :: rest => some (scalar text isPlain, rest)
    | .openBracket :: rest => (readFlowItems fuel rest).map fun (l, r) => (sequence l, r)
    | .openBrace :: rest => (readFlowEntries fuel rest).map fun (l, r) => (mapping l, r)
    | _ => none
termination_by structural fuel

/-- A node inside brackets, or nothing in front of one of the given tokens. -/
def readFlowUnless (fuel : Nat) (stops ts : List Token) : Option (Yaml × List Token) :=
  match fuel with
  | 0 => none
  | fuel + 1 => if startsWith stops ts then some (empty, ts) else readFlow fuel ts
termination_by structural fuel

/-- The value of a key inside brackets, which may be left out with its colon. -/
def readFlowValue (fuel : Nat) (close : Token) (ts : List Token) : Option (Yaml × List Token) :=
  match fuel with
  | 0 => none
  | fuel + 1 =>
    match ts with
    | .value :: rest => readFlowUnless fuel [.comma, close] rest
    | _ => some (empty, ts)
termination_by structural fuel

/-- The items of a sequence up to its closing bracket. A key among them is a mapping of one
entry. -/
def readFlowItems (fuel : Nat) (ts : List Token) : Option (List Yaml × List Token) :=
  match fuel with
  | 0 => none
  | fuel + 1 =>
    let item : Option (Yaml × List Token) :=
      match ts with
      | .key :: rest =>
        match readFlow fuel rest with
        | some (k, rest) =>
          (readFlowValue fuel .closeBracket rest).map fun (v, r) => (mapping [(k, v)], r)
        | none => none
      | _ => readFlow fuel ts
    match ts, item with
    | .closeBracket :: rest, _ => some ([], rest)
    | _, some (y, .comma :: rest) => (readFlowItems fuel rest).map fun (l, r) => (y :: l, r)
    | _, some (y, .closeBracket :: rest) => some ([y], rest)
    | _, _ => none
termination_by structural fuel

/-- The entries of a mapping up to its closing brace. A node without a mark in front is a key
without a value. -/
def readFlowEntries (fuel : Nat) (ts : List Token) : Option (List (Yaml × Yaml) × List Token) :=
  match fuel with
  | 0 => none
  | fuel + 1 =>
    let entry : Option ((Yaml × Yaml) × List Token) :=
      match ts with
      | .key :: rest =>
        match readFlowUnless fuel [.value, .comma, .closeBrace] rest with
        | some (k, rest) => (readFlowValue fuel .closeBrace rest).map fun (v, r) => ((k, v), r)
        | none => none
      | _ => (readFlow fuel ts).map fun (k, r) => ((k, empty), r)
    match ts, entry with
    | .closeBrace :: rest, _ => some ([], rest)
    | _, some (e, .comma :: rest) => (readFlowEntries fuel rest).map fun (l, r) => (e :: l, r)
    | _, some (e, .closeBrace :: rest) => some ([e], rest)
    | _, _ => none
termination_by structural fuel

end

/-! ## Block collections -/

mutual

/-- A node in a block. The items of a sequence that is the value of a key need no start of their
own. -/
def readBlock (fuel : Nat) (afterKey : Bool) (ts : List Token) : Option (Yaml × List Token) :=
  match fuel with
  | 0 => none
  | fuel + 1 =>
    match ts with
    | .sequenceStart :: rest =>
      match readBlockItems fuel [.item, .blockEnd] rest with
      | some (l, .blockEnd :: rest) => some (sequence l, rest)
      | _ => none
    | .mappingStart :: rest => (readBlockEntries fuel rest).map fun (l, r) => (mapping l, r)
    | .item :: _ =>
      if afterKey then
        (readBlockItems fuel [.item, .key, .value, .blockEnd] ts).map fun (l, r) => (sequence l, r)
      else none
    | _ => readFlow (3 * ts.length + 3) ts
termination_by structural fuel

/-- A node in a block, or nothing in front of one of the given tokens. -/
def readBlockUnless (fuel : Nat) (afterKey : Bool) (stops ts : List Token) :
    Option (Yaml × List Token) :=
  match fuel with
  | 0 => none
  | fuel + 1 => if startsWith stops ts then some (empty, ts) else readBlock fuel afterKey ts
termination_by structural fuel

/-- The items of a sequence. An item in front of one of the given tokens is empty. -/
def readBlockItems (fuel : Nat) (stops ts : List Token) : Option (List Yaml × List Token) :=
  match fuel with
  | 0 => none
  | fuel + 1 =>
    match ts with
    | .item :: rest =>
      match readBlockUnless fuel false stops rest with
      | some (y, rest) => (readBlockItems fuel stops rest).map fun (l, r) => (y :: l, r)
      | none => none
    | _ => some ([], ts)
termination_by structural fuel

/-- The entries of a mapping up to its end. -/
def readBlockEntries (fuel : Nat) (ts : List Token) : Option (List (Yaml × Yaml) × List Token) :=
  match fuel with
  | 0 => none
  | fuel + 1 =>
    match ts with
    | .blockEnd :: rest => some ([], rest)
    | .key :: rest =>
      match readBlockUnless fuel true [.key, .value, .blockEnd] rest with
      | none => none
      | some (k, rest) =>
        let entry : Option (Yaml × List Token) :=
          match rest with
          | .value :: rest => readBlockUnless fuel true [.key, .value, .blockEnd] rest
          | _ => some (empty, rest)
        match entry with
        | none => none
        | some (v, rest) => (readBlockEntries fuel rest).map fun (l, r) => ((k, v) :: l, r)
    | _ => none
termination_by structural fuel

end

/-! ## Documents -/

/-- The document that tokens write; there must not be a second one. A text without tokens is an
empty document. -/
def ofTokens? (ts : List Token) : Option Yaml := do
  let fuel := 3 * ts.length + 3
  let (document, rest) ←
    match ts with
    | [] => some (empty, [])
    | .documentStart :: [] => some (empty, [])
    | .documentStart :: rest =>
      readBlockUnless fuel false [.documentStart, .documentEnd] rest
    | _ => readBlock fuel false ts
  if rest.all (· == .documentEnd) then some document else none

/-- The document that a whole text writes. -/
def parse? (text : String) : Option Yaml := (tokens? text).bind ofTokens?

end GuardedFlow.Yaml
