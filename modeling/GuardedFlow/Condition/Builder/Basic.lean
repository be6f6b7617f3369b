import GuardedFlow.Condition.Builder.Frame

/-!
# Building a condition token by token

A `Builder` takes tokens one at a time. Which tokens fit depends on the innermost open container
alone: `Builder.place` has one case per container and role, and refuses every other pair. What
changes a container looks at it again and has a problem of its own for any other container. A
comparison is closed by what cannot belong to it (a connective, a closing parenthesis, the end);
groups and value lists only by their own delimiter. A bare word is held back for one token, since an
opening parenthesis makes it the name of a call.

`Builder.feed` takes a token and `Builder.finish` ends the input; a whole list of tokens is read by
`Condition.ofTokens`.
-/

namespace GuardedFlow

/-- What a token can do. -/
inductive Role where
  | operand (o : Operand)
  | compare (op : Comparator)
  | math (op : Operator)
  | logical (op : Connective)
  | openGroup
  | closeGroup
  | openSet (range : Bool)
  | closeSet (d : Delimiter)
  | separator
deriving Repr

namespace Role

def ofToken (t : Token) : Role :=
  match t.kind with
  | .word => operand (.ofWord t.text)
  | .quoted => operand (.quoted t.text)
  | .operator .eq => compare .eq
  | .operator .ne => compare .ne
  | .operator .gt => compare .gt
  | .operator .ge => compare .ge
  | .operator .lt => compare .lt
  | .operator .le => compare .le
  | .operator .and => logical .and
  | .operator .or => logical .or
  | .operator op => math op
  | .delimiter .openParen => openGroup
  | .delimiter .closeParen => closeGroup
  | .delimiter .openBracket => openSet true
  | .delimiter .openBrace => openSet false
  | .delimiter d => closeSet d
  | .separator => separator

/-- Whether a token ends the comparison before it. -/
def endsComparison : Role → Bool
  | logical _ | closeGroup => true
  | _ => false

end Role

/-- A call whose closing parenthesis has not arrived. -/
structure OpenCall where
  name : String
  args : List Operand
  /-- The argument that is being read. -/
  current : Option Operand
  pending : Pending
deriving Repr

/-- Whether the next token of a call has to start an operand. -/
def OpenCall.expectsOperand (c : OpenCall) : Bool := c.current.isNone || c.pending.binary.isSome

/-- The state between two tokens. -/
structure Builder where
  /-- The open containers, the innermost first. -/
  stack : List Frame
  /-- The token before. -/
  previous : Option Token
  /-- A bare word that may turn out to be the name of a call. -/
  held : Option Token
  /-- The open calls, the innermost first. -/
  calls : List OpenCall
  /-- The operators that wait outside of calls. -/
  pending : Pending
  /-- Whether a value of a list has to come next. -/
  expectsValue : Bool
deriving Repr

namespace Builder

def empty : Builder := ⟨[], none, none, [], .idle, false⟩

instance : Inhabited Builder := ⟨empty⟩

/-- The error of a problem at a byte. -/
def fail {α : Type} (offset : Nat) (problem : Problem) : Except SyntaxError α :=
  .error (.structural problem offset)

/-- A result whose problem is at the given byte. -/
def locate {α : Type} (offset : Nat) : Except Problem α → Except SyntaxError α
  | .ok a => .ok a
  | .error problem => fail offset problem

/-- Refuses to go on while an operator waits for an operand. -/
def requireIdle (pending : Pending) (offset : Nat) : Except SyntaxError Unit :=
  match pending.missing? with
  | some problem => fail offset problem
  | none => .ok ()

/-- The other wording of a missing operator where two operands of one container meet. -/
def rewordMeeting {α : Type} (problem : Problem) : Except Problem α → Except Problem α
  | .error .missingOperatorBetween => .error problem
  | result => result

/-! ## Tokens in the innermost container -/

/-- Starts a comparison with its first operand. -/
def openComparison (b : Builder) (offset : Nat) (o : Operand) : Except SyntaxError Builder := do
  let left ← locate offset (b.pending.combine none o)
  return { b with stack := .comparison left none none :: b.stack, pending := .idle }

/-- Starts a group, which takes no sign. -/
def openGroup (b : Builder) (offset : Nat) : Except SyntaxError Builder :=
  if b.pending.isIdle then .ok { b with stack := .group [] :: b.stack }
  else fail offset .groupAfterSign

/-- Takes in an arithmetic operator outside of calls. -/
def pushMath (b : Builder) (offset : Nat) (expectsOperand : Bool) (op : Operator) :
    Except SyntaxError Builder := do
  let pending ← locate offset (b.pending.push expectsOperand op)
  return { b with pending := pending }

/-- A connective takes the last child of a group as its left side.

`&&` binds tighter than `||`, so it takes over the right side of a finished `||` and leaves that one
open. -/
def joinWith (b : Builder) (offset : Nat) (children : List Condition) (below : List Frame)
    (op : Connective) : Except SyntaxError Builder :=
  match children.getLast? with
  | none => fail offset (.missingLeft op)
  | some last =>
    let group := Frame.group children.dropLast
    match op, last with
    | .and, .logical .or (some left) (some right) _ =>
      .ok { b with stack := .logical .and right :: .logical .or left :: group :: below }
    | _, _ => .ok { b with stack := .logical op last :: group :: below }

/-- A connective that meets a group. -/
def takeConnective (b : Builder) (offset : Nat) (op : Connective) : Except SyntaxError Builder :=
  match b.stack with
  | .group children :: below => b.joinWith offset children below op
  | _ => fail offset .noGroup

/-- A token that meets a group. -/
def placeInGroup (b : Builder) (role : Role) (text : String) (offset : Nat)
    (children : List Condition) (below : List Frame) : Except SyntaxError Builder :=
  match role with
  | .operand o =>
    if children.isEmpty then b.openComparison offset o else fail offset .expectedConnective
  | .openGroup => if children.isEmpty then b.openGroup offset else fail offset .expectedConnective
  | .math op => b.pushMath offset true op
  | .logical op => b.takeConnective offset op
  | .closeGroup =>
    if below.isEmpty then fail offset .unmatchedClose
    else if children.isEmpty then .error (.defect .emptyGroup)
    else do
      let stack ← Frame.attach offset (.group children true) below
      return { b with stack := stack }
  | .compare _ => fail offset (.missingComparisonLeft text)
  | .openSet _ | .closeSet _ => fail offset (.unexpected text)
  | .separator => fail offset (.unexpectedIn text (Frame.group children).name)

/-- A token that meets a connective without its right side. -/
def placeInLogical (b : Builder) (role : Role) (text : String) (offset : Nat) (frame : Frame) :
    Except SyntaxError Builder :=
  match role with
  | .operand o => b.openComparison offset o
  | .openGroup => b.openGroup offset
  | .math op => b.pushMath offset true op
  | .logical _ | .closeGroup => fail offset (.missingRightBefore text)
  | .openSet _ | .closeSet _ => fail offset (.unexpected text)
  | .compare _ | .separator => fail offset (.unexpectedIn text frame.name)

/-- An operand that meets a comparison belongs to its left side until there is an operator. -/
def extendComparison (b : Builder) (offset : Nat) (left : Operand) (op : Option Comparator)
    (right : Option Operand) (below : List Frame) (o : Operand) : Except SyntaxError Builder := do
  let current := if op.isNone then some left else right
  let combined ←
    locate offset (rewordMeeting .expectedConnectiveAfterComparison (b.pending.combine current o))
  let frame :=
    if op.isNone then Frame.comparison combined op right
      else Frame.comparison left op (some combined)
  return { b with stack := frame :: below, pending := .idle }

/-- An operand that meets a comparison. -/
def takeOperand (b : Builder) (offset : Nat) (o : Operand) : Except SyntaxError Builder :=
  match b.stack with
  | .comparison left op right :: below => b.extendComparison offset left op right below o
  | _ => fail offset .noComparison

/-- A comparator that meets a comparison. -/
def takeComparator (b : Builder) (offset : Nat) (comparator : Comparator) :
    Except SyntaxError Builder := do
  requireIdle b.pending offset
  match b.stack with
  | .comparison left op right :: below =>
    if op.isSome then fail offset .secondComparator
    else return { b with stack := .comparison left (some comparator) right :: below }
  | _ => fail offset .noComparison

/-- A value list takes the place of the right side, directly after the operator. -/
def openSet (b : Builder) (offset : Nat) (left : Operand) (right : Option Operand)
    (below : List Frame) (range : Bool) : Except SyntaxError Builder :=
  let negated? : Option Bool :=
    match b.previous.bind Token.operator? with
    | some .eq => some false
    | some .ne => some true
    | _ => none
  match negated? with
  | none => fail offset .strayList
  | some negated => do
    requireIdle b.pending offset
    if right.isSome then fail offset .strayList
    else return { b with
      stack := .set left (.ofFlags negated range) [] :: below, expectsValue := true }

/-- A token that meets a comparison. -/
def placeInComparison (b : Builder) (role : Role) (text : String) (offset : Nat) (left : Operand)
    (op : Option Comparator) (right : Option Operand) (below : List Frame) :
    Except SyntaxError Builder :=
  match role with
  | .operand o => b.takeOperand offset o
  | .compare comparator => b.takeComparator offset comparator
  | .math o => b.pushMath offset (b.pending.binary.isSome || (op.isSome && right.isNone)) o
  | .openSet range => b.openSet offset left right below range
  | .closeSet _ => fail offset (.unexpected text)
  | .logical _ | .openGroup | .closeGroup | .separator =>
    fail offset (.unexpectedIn text (Frame.comparison left op right).name)

/-- A value starts after the opening delimiter or a comma, and is extended otherwise. -/
def addValue (b : Builder) (offset : Nat) (left : Operand) (op : SetOperator)
    (values : List Operand) (below : List Frame) (o : Operand) : Except SyntaxError Builder := do
  let current := if b.expectsValue then none else values.getLast?
  let others := if b.expectsValue then values else values.dropLast
  let value ← locate offset (rewordMeeting .expectedSeparator (b.pending.combine current o))
  return { b with
    stack := .set left op (others ++ [value]) :: below, pending := .idle, expectsValue := false }

/-- An operand that meets a value list. -/
def takeValue (b : Builder) (offset : Nat) (o : Operand) : Except SyntaxError Builder :=
  match b.stack with
  | .set left op values :: below => b.addValue offset left op values below o
  | _ => fail offset .noValueList

/-- Closes a value list. -/
def closeSet (b : Builder) (offset : Nat) (left : Operand) (op : SetOperator)
    (values : List Operand) (below : List Frame) (d : Delimiter) : Except SyntaxError Builder := do
  requireIdle b.pending offset
  let expected := op.delimiters.2
  if d ≠ expected then fail offset (.mismatchedClose expected)
  else if b.expectsValue && !values.isEmpty then
    fail offset (.expectedValueBefore (String.singleton expected.char))
  else
    match Condition.setDefect? left op values with
    | some defect => .error (.defect defect)
    | none => do
      let stack ← Frame.attach offset (.set left op values true) below
      return { b with stack := stack, expectsValue := false }

/-- A closing delimiter that meets a value list. -/
def takeClosing (b : Builder) (offset : Nat) (d : Delimiter) : Except SyntaxError Builder :=
  match b.stack with
  | .set left op values :: below => b.closeSet offset left op values below d
  | _ => do
    requireIdle b.pending offset
    fail offset .strayClose

/-- A token that meets a value list. -/
def placeInSet (b : Builder) (role : Role) (text : String) (offset : Nat) (left : Operand)
    (op : SetOperator) (values : List Operand) : Except SyntaxError Builder :=
  match role with
  | .operand o => b.takeValue offset o
  | .math o => b.pushMath offset (b.pending.binary.isSome || b.expectsValue) o
  | .separator =>
    if b.expectsValue then fail offset (.expectedValueBefore ",")
    else do
      requireIdle b.pending offset
      return { b with expectsValue := true }
  | .closeSet d => b.takeClosing offset d
  | .openSet _ => fail offset (.unexpected text)
  | .closeGroup => fail offset (.unmatchedCloseInList text)
  | .compare _ | .logical _ | .openGroup =>
    fail offset (.unexpectedIn text (Frame.set left op values).name)

/-- Places a token in the innermost container. -/
def placeInnermost (b : Builder) (role : Role) (text : String) (offset : Nat) :
    Except SyntaxError Builder :=
  match b.stack with
  | [] => fail offset .noContainer
  | .group children :: below => b.placeInGroup role text offset children below
  | frame@(.logical ..) :: _ => b.placeInLogical role text offset frame
  | .comparison left op right :: below => b.placeInComparison role text offset left op right below
  | .set left op values :: _ => b.placeInSet role text offset left op values

/-- The open containers, with the outermost group that the first token opens. -/
def base (b : Builder) : List Frame := if b.stack.isEmpty then [.group []] else b.stack

/-- Places a token, after closing the comparison that it ends. -/
def place (b : Builder) (role : Role) (text : String) (offset : Nat) :
    Except SyntaxError Builder := do
  let stack ← if role.endsComparison then Frame.settle offset b.pending b.base else .ok b.base
  { b with stack := stack }.placeInnermost role text offset

/-! ## Calls -/

/-- Hands an operand to the innermost call, or else to the innermost container. -/
def deliver (b : Builder) (offset : Nat) (o : Operand) : Except SyntaxError Builder :=
  match b.calls with
  | call :: outer => do
    let current ← locate offset (call.pending.combine call.current o)
    return { b with calls := { call with current := some current, pending := .idle } :: outer }
  | [] => b.place (.operand o) "operand" offset

/-- Whether an operand has to come next. -/
def expectsOperand (b : Builder) : Bool :=
  match b.calls, b.stack with
  | call :: _, _ => call.expectsOperand
  | [], .comparison _ op right :: _ => b.pending.binary.isSome || (op.isSome && right.isNone)
  | [], .set .. :: _ => b.pending.binary.isSome || b.expectsValue
  | [], _ => true

/-- Opens a call of the given name. -/
def openCall (b : Builder) (name : Token) : Except SyntaxError Builder :=
  if !b.expectsOperand then fail name.offset (.unexpectedCall name.text)
  else
    let opened := { b with calls := ⟨name.text, [], none, .idle⟩ :: b.calls }
    match b.calls, b.stack with
    | [], .group (_ :: _) :: _ => fail name.offset .expectedConnective
    | _, _ => .ok opened

/-- A token inside a call. -/
def placeInCall (b : Builder) (call : OpenCall) (outer : List OpenCall) (t : Token) :
    Except SyntaxError Builder :=
  match Role.ofToken t with
  | .operand o => b.deliver t.offset o
  | .math op => do
    let pending ← locate t.offset (call.pending.push call.expectsOperand op)
    return { b with calls := { call with pending := pending } :: outer }
  | .separator => do
    requireIdle call.pending t.offset
    match call.current with
    | some arg =>
      return { b with calls := { call with args := call.args ++ [arg], current := none } :: outer }
    | none => fail t.offset (.missingArgumentBefore "," call.name)
  | .closeGroup => do
    requireIdle call.pending t.offset
    let closed := { b with calls := outer }
    match call.current, call.args with
    | some arg, args => closed.deliver t.offset (.call call.name (args ++ [arg]))
    | none, [] => closed.deliver t.offset (.call call.name [])
    | none, _ :: _ => fail t.offset (.missingArgumentBefore ")" call.name)
  | _ => fail t.offset (.unexpectedInCall t.text call.name)

/-! ## The whole input -/

/-- The state without the word that was held back. -/
def forgetHeld (b : Builder) : Builder := { b with held := none }

/-- Hands on the word that was held back. -/
def release (b : Builder) : Except SyntaxError Builder :=
  match b.held with
  | some word => b.forgetHeld.deliver word.offset (.ofWord word.text)
  | none => .ok b

/-- Whether a token is a word that may name a call. -/
def isHeld (t : Token) : Bool := t.kind == .word && (Operand.ofWord t.text).isVariable

/-- Takes a token that does not turn the word before into a call. -/
def feedPlain (b : Builder) (t : Token) : Except SyntaxError Builder :=
  if isHeld t then .ok { b with held := some t }
  else
    match b.calls with
    | call :: outer => b.placeInCall call outer t
    | [] => b.place (Role.ofToken t) t.text t.offset

/-- Takes the next token, without remembering it. -/
def consume (b : Builder) (t : Token) : Except SyntaxError Builder :=
  match b.held, t.kind with
  | some name, .delimiter .openParen => b.forgetHeld.openCall name
  | _, _ => do
    let released ← b.release
    released.feedPlain t

/-- Takes the next token. -/
def feed (b : Builder) (t : Token) : Except SyntaxError Builder := do
  let next ← b.consume t
  return { next with previous := some t }

/-- Ends the input at the given byte: the condition that has been read, as a closed group. -/
def finish (b : Builder) (stop : Nat) : Except SyntaxError Condition := do
  let b ← b.release
  match b.calls with
  | call :: _ => fail stop (.unclosedCall call.name)
  | [] =>
    if b.stack.isEmpty then fail stop .emptyExpression
    else
      match ← Frame.settle stop b.pending b.stack with
      | [.group children] =>
        if children.isEmpty then .error (.defect .emptyGroup) else .ok (.group children true)
      | [frame] => fail stop (.dangling frame.kind)
      | frame :: _ => fail stop frame.unclosed
      | [] => fail stop .emptyExpression

end Builder

end GuardedFlow
