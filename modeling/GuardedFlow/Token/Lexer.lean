import GuardedFlow.Text.Blank
import GuardedFlow.Token.Basic

/-!
# Reading tokens

`Token.scan` cuts a text into tokens from left to right. Blanks separate and are dropped; a quote
starts a quoted text; commas and delimiters stand alone; of the operators that match the longest is
taken; and what remains is gathered into words as long as nothing else starts. The one thing that
can go wrong is a quote that is never closed.

Each branch consumes at least one character, so scanning ends with the text.
-/

namespace GuardedFlow

def Text.byteLength (s : List Char) : Nat :=
  s.foldr (fun c bytes => c.utf8Size + bytes) 0

/-- A quote that is never closed, with its place. -/
structure LexError where
  quote : Char
  offset : Nat
deriving DecidableEq, Repr

namespace Token

/-- Whether a character starts and ends a quoted text. -/
def isQuote (c : Char) : Bool := c == '"' || c == '\''

/-- The operator that a text starts with, the longest if several match. -/
def operatorAt? (s : List Char) : Option Operator :=
  Operator.longestFirst.find? fun o => o.symbol.toList.isPrefixOf s

/-- Whether a text starts with something other than a character of a word. -/
def breaksWord : List Char → Bool
  | [] => true
  | c :: rest =>
    Text.isBlank c || isQuote c || c == ',' || (Delimiter.ofChar? c).isSome ||
      (operatorAt? (c :: rest)).isSome

/-- The characters of a text up to the first place where a word breaks. -/
def wordAt : List Char → List Char
  | [] => []
  | c :: rest => if breaksWord (c :: rest) then [] else c :: wordAt rest

/-- The inside of a quoted text, as written and with its escapes undone, and what follows the
closing quote. A backslash keeps its place before anything but a quote or a backslash. -/
def readQuoted (quote : Char) : List Char → Option (List Char × List Char × List Char)
  | [] => none
  | '\\' :: c :: rest =>
    (readQuoted quote rest).map fun (raw, text, after) =>
      ('\\' :: c :: raw, if isQuote c || c == '\\' then c :: text else '\\' :: c :: text, after)
  | c :: rest =>
    if c = quote then some ([], [], rest)
    else if c = '\\' then none
    else (readQuoted quote rest).map fun (raw, text, after) => (c :: raw, c :: text, after)

/-- The inside, the closing quote and the rest make up the text again. -/
theorem readQuoted_eq_some {quote : Char} {s raw text after : List Char}
    (h : readQuoted quote s = some (raw, text, after)) : s = raw ++ quote :: after := by
  fun_induction readQuoted quote s generalizing raw text after with
  | case1 => simp at h
  | case2 c rest ih =>
    simp only [Option.map_eq_some_iff, Prod.mk.injEq] at h
    obtain ⟨⟨r, t, a⟩, hr, rfl, _, rfl⟩ := h
    simp [ih hr]
  | case3 rest => simp_all
  | case4 rest => simp at h
  | case5 c rest _ _ _ ih =>
    simp only [Option.map_eq_some_iff, Prod.mk.injEq] at h
    obtain ⟨⟨r, t, a⟩, hr, rfl, _, rfl⟩ := h
    simp [ih hr]

theorem length_lt_of_readQuoted {quote : Char} {s raw text after : List Char}
    (h : readQuoted quote s = some (raw, text, after)) : after.length < s.length := by
  rw [readQuoted_eq_some h]; simp; omega

/-- The tokens of a text that starts at the given byte of the source. -/
def scan (offset : Nat) : List Char → Except LexError (List Token)
  | [] => .ok []
  | c :: rest =>
    if Text.isBlank c then scan (offset + c.utf8Size) rest
    else if isQuote c then
      match _h : readQuoted c rest with
      | none => .error ⟨c, offset⟩
      | some (raw, text, after) =>
        let length := Text.byteLength raw + 2
        (scan (offset + length) after).map (⟨.quoted, String.ofList text, offset, length⟩ :: ·)
    else if c = ',' then (scan (offset + 1) rest).map (separator offset :: ·)
    else
      match Delimiter.ofChar? c with
      | some d => (scan (offset + 1) rest).map (delimiter d offset :: ·)
      | none =>
        match operatorAt? (c :: rest) with
        | some o =>
          (scan (offset + o.symbol.utf8ByteSize) (rest.drop (o.symbol.length - 1))).map
            (operator o offset :: ·)
        | none =>
          let more := wordAt rest
          let text := String.ofList (c :: more)
          (scan (offset + text.utf8ByteSize) (rest.drop more.length)).map (word text offset :: ·)
termination_by s => s.length
decreasing_by
  all_goals simp only [List.length_cons, List.length_drop]
  · exact Nat.lt_succ_self _
  · exact Nat.lt_succ_of_lt (length_lt_of_readQuoted _h)
  · exact Nat.lt_succ_self _
  · exact Nat.lt_succ_self _
  · omega
  · omega

/-- The tokens of an expression. -/
def tokenize (s : String) : Except LexError (List Token) := scan 0 s.toList

end Token

end GuardedFlow
