import GuardedFlow.Proofs.Json.Reordered
import GuardedFlow.Proofs.Json.Scalars
import GuardedFlow.Proofs.Result

/-!
# Documents that are read back

What is printed on one line for a document is read as that document, if each of its numbers is and
if it is not nested too deeply (`Json.parse?_compact`). The depth matters for reading alone: no two
documents have one text (`Json.eq_of_compact`).
-/

namespace GuardedFlow

/-- The text of a number is read as that number. What is not finite has no text of its own. -/
def Number.ReadsBack (x : Number) : Prop :=
  Json.readNumber (Json.numberText x).toList = some (.number x, [])

namespace Json

/-- The number that was read, if it is one with a point or an exponent and nothing is left. -/
def aloneNumber? : Json × List Char → Option Number
  | (.number x, []) => some x
  | _ => none

instance (x : Number) : Decidable x.ReadsBack :=
  decidable_of_iff ((readNumber (numberText x).toList).bind aloneNumber? = some x) <| by
    unfold Number.ReadsBack
    cases readNumber (numberText x).toList with
    | none => simp
    | some result =>
      obtain ⟨j, rest⟩ := result
      cases j <;> cases rest <;> simp [aloneNumber?]

/-- Documents that can be written without a loss: `plain` is true of the numbers in them, 64 bits
hold the whole ones, and no object has a key twice. -/
inductive Printable (plain : Number → Prop) : Json → Prop where
  | null : Printable plain null
  | bool (b : Bool) : Printable plain (bool b)
  | integer {i : Int} (hlow : -Nat.pow 2 63 ≤ i) (hhigh : i < Nat.pow 2 64) :
      Printable plain (integer i)
  | number {x : Number} (h : plain x) : Printable plain (number x)
  | string (s : String) : Printable plain (string s)
  | array {items : List Json} (h : ∀ j ∈ items, Printable plain j) : Printable plain (array items)
  | object {members : List (String × Json)} (hkeys : (members.map Prod.fst).Nodup)
      (h : ∀ m ∈ members, Printable plain m.2) : Printable plain (object members)

attribute [simp] Printable.null Printable.bool Printable.string

/-- Every number in the document is read back from its text. -/
abbrev Legible (j : Json) : Prop := j.Printable Number.ReadsBack

variable {j : Json} {fuel level : Nat} {c : Char} {s rest after : List Char}

/-! ## How documents are printed -/

theorem compact_array (items : List Json) :
    (array items).compact.toList = '[' :: ((compactItems items).toList ++ [']']) := by
  rw [compact, String.toList_append, String.toList_append]
  rfl

theorem compact_object (members : List (String × Json)) :
    (object members).compact.toList = '\x7b' :: ((compactMembers members).toList ++ ['\x7d']) := by
  rw [compact, String.toList_append, String.toList_append]
  rfl

theorem quote_toList (s : String) :
    (quote s).toList = '"' :: (s.toList.flatMap escapeChar ++ ['"']) := String.toList_ofList

theorem compactItems_cons {others : List Json} (h : others ≠ []) (j : Json) :
    (compactItems (j :: others)).toList =
      j.compact.toList ++ ',' :: (compactItems others).toList := by
  cases others with
  | nil => exact absurd rfl h
  | cons next others =>
    rw [compactItems]
    · simp
    · simp

theorem compactMembers_singleton (key : String) (j : Json) :
    (compactMembers [(key, j)]).toList = (quote key).toList ++ ':' :: j.compact.toList := by
  rw [compactMembers, String.toList_append, String.toList_append]
  simp

theorem compactMembers_cons {others : List (String × Json)} (h : others ≠ [])
    (key : String) (j : Json) :
    (compactMembers ((key, j) :: others)).toList =
      (quote key).toList ++ ':' :: (j.compact.toList ++ ',' :: (compactMembers others).toList) := by
  cases others with
  | nil => exact absurd rfl h
  | cons next others =>
    rw [compactMembers]
    · simp
    · simp

theorem head_compactMembers {members : List (String × Json)} (hne : members ≠ []) :
    ∃ s, (compactMembers members).toList = '"' :: s := by
  obtain ⟨⟨key, j⟩, others, rfl⟩ := List.exists_cons_of_ne_nil hne
  by_cases hothers : others = []
  · subst hothers
    exact ⟨_, by rw [compactMembers_singleton, quote_toList, List.cons_append]⟩
  · exact ⟨_, by rw [compactMembers_cons hothers, quote_toList, List.cons_append]⟩

/-! ## How documents start -/

theorem ne_of_isDigit (h : c = '-' ∨ c.isDigit = true) {d : Char}
    (hd : d ≠ '-' ∧ d.isDigit = false) : c ≠ d := by
  rintro rfl
  rcases h with h | h
  · exact hd.1 h
  · exact absurd h (Bool.eq_false_iff.1 hd.2)

theorem isSpace_of_isDigit (h : c = '-' ∨ c.isDigit = true) : isSpace c = false := by
  have hne : c ≠ ' ' ∧ c ≠ '\n' ∧ c ≠ '\t' ∧ c ≠ '\r' :=
    ⟨ne_of_isDigit h (by decide), ne_of_isDigit h (by decide), ne_of_isDigit h (by decide),
      ne_of_isDigit h (by decide)⟩
  simp [isSpace, hne]

/-- The first character of a document is no blank and closes nothing. -/
theorem head_compact (h : j.Legible) :
    ∃ c s, j.compact.toList = c :: s ∧ isSpace c = false ∧ c ≠ ']' := by
  cases h with
  | null => exact ⟨_, _, rfl, rfl, by decide⟩
  | bool b => cases b <;> exact ⟨_, _, rfl, rfl, by decide⟩
  | integer hlow hhigh =>
    obtain ⟨c, s, hs, hc⟩ := head_of_readNumber (readNumber_toString hlow hhigh)
    exact ⟨c, s, hs, isSpace_of_isDigit hc, ne_of_isDigit hc (by decide)⟩
  | number h =>
    obtain ⟨c, s, hs, hc⟩ := head_of_readNumber h
    exact ⟨c, s, hs, isSpace_of_isDigit hc, ne_of_isDigit hc (by decide)⟩
  | string s => exact ⟨'"', _, String.toList_ofList, rfl, by decide⟩
  | array h => exact ⟨_, _, compact_array _, rfl, by decide⟩
  | object => exact ⟨_, _, compact_object _, rfl, by decide⟩

theorem length_compact_pos (h : j.Legible) : 0 < j.compact.toList.length := by
  obtain ⟨c, s, hs, -⟩ := head_compact h
  rw [hs]
  exact Nat.succ_pos s.length

theorem head_compactItems {items : List Json} (hne : items ≠ []) (h : ∀ j ∈ items, j.Legible) :
    ∃ c s, (compactItems items).toList = c :: s ∧ isSpace c = false ∧ c ≠ ']' := by
  obtain ⟨j, others, rfl⟩ := List.exists_cons_of_ne_nil hne
  obtain ⟨c, s, hs, hc⟩ := head_compact (h j List.mem_cons_self)
  by_cases hothers : others = []
  · subst hothers
    exact ⟨c, s, hs, hc⟩
  · exact ⟨c, _, by rw [compactItems_cons hothers, hs, List.cons_append], hc⟩

theorem skipSpace_cons (h : isSpace c = false) : skipSpace (c :: s) = c :: s :=
  List.dropWhile_cons_of_neg (Bool.eq_false_iff.1 h)

/-! ## What is read -/

theorem readDocument_number (hc : c = '-' ∨ c.isDigit = true) :
    readDocument (fuel + 1) level (c :: s) = readNumber (c :: s) := by
  have hne : c ≠ '[' ∧ c ≠ '\x7b' ∧ c ≠ '"' ∧ c ≠ 'n' ∧ c ≠ 't' ∧ c ≠ 'f' :=
    ⟨ne_of_isDigit hc (by decide), ne_of_isDigit hc (by decide), ne_of_isDigit hc (by decide),
      ne_of_isDigit hc (by decide), ne_of_isDigit hc (by decide), ne_of_isDigit hc (by decide)⟩
  simp [readDocument, skipSpace_cons (isSpace_of_isDigit hc), hne]

theorem readDocument_array (hspace : isSpace c = false) (hc : c ≠ ']') :
    readDocument (fuel + 1) level ('[' :: c :: s) =
    (readItems fuel (level + 1) (c :: s)).map fun (items, after) =>
      (atLevel level (array items), after) := by
  have hopen : isSpace '[' = false := rfl
  simp [readDocument, skipSpace_cons hopen, skipSpace_cons hspace, hc]

theorem readDocument_object (hspace : isSpace c = false) (hc : c ≠ '\x7d') :
    readDocument (fuel + 1) level ('\x7b' :: c :: s) =
    (readMembers fuel (level + 1) (c :: s)).map fun (members, after) =>
      (atLevel level (ofMembers members), after) := by
  have hopen : isSpace '\x7b' = false := rfl
  simp [readDocument, skipSpace_cons hopen, skipSpace_cons hspace, hc]

theorem readMembers_key (key : String) (s : List Char) :
    readMembers (fuel + 1) level ((quote key).toList ++ ':' :: s) =
      (readDocument fuel level s).bind fun (j, rest) =>
      match skipSpace rest with
      | '\x7d' :: rest => some ([(some key, j)], rest)
      | ',' :: rest =>
        (readMembers fuel level rest).map fun (members, after) => ((some key, j) :: members, after)
      | _ => none := by
  have hopen : isSpace '"' = false := rfl
  have hcolon : isSpace ':' = false := rfl
  rw [quote_toList, List.cons_append, List.append_assoc]
  simp only [readMembers, skipSpace_cons hopen, List.singleton_append, readText_escaped,
    skipSpace_cons hcolon]
  cases readDocument fuel level s <;> rfl

theorem mapM_some_keys (members : List (String × Json)) :
    (members.map fun m => (some m.1, m.2)).mapM (fun (key, j) => key.map fun k => (k, j)) =
      some members := by
  rw [List.mapM_map]
  exact (mapM_eq_some fun _ _ => rfl).trans (congrArg some (List.map_id members))

theorem ofMembers_some (members : List (String × Json)) :
    ofMembers (members.map fun m => (some m.1, m.2)) = object members := by
  rw [ofMembers, mapM_some_keys]

theorem atLevel_of_lt (h : level < levelLimit) (j : Json) : atLevel level j = j := if_pos h

theorem follows_comma (s : List Char) : Follows (',' :: s) := by
  intro c hc
  cases hc
  exact .inl rfl

theorem follows_bracket (s : List Char) : Follows (']' :: s) := by
  intro c hc
  cases hc
  exact .inr (.inl rfl)

theorem follows_brace (s : List Char) : Follows ('\x7d' :: s) := by
  intro c hc
  cases hc
  exact .inr (.inr rfl)

theorem readDocument_of_readNumber (h : readNumber s = some (j, [])) (hrest : Follows rest) :
    readDocument (fuel + 1) level (s ++ rest) = some (j, rest) := by
  obtain ⟨c, s', rfl, hc⟩ := head_of_readNumber h
  rw [List.cons_append, readDocument_number hc, ← List.cons_append, readNumber_append hrest, h]
  rfl

theorem readDocument_string (s : String) :
    readDocument (fuel + 1) level ((quote s).toList ++ rest) = some (string s, rest) := by
  have hopen : isSpace '"' = false := rfl
  rw [quote_toList, List.cons_append, List.append_assoc]
  simp [readDocument, skipSpace_cons hopen, readText_escaped]

/-- What holds no other documents is read up to what follows it, at any level. -/
theorem readDocument_scalar (h : j.Legible) (hj : j.isContainer = false) (hrest : Follows rest) :
    readDocument (fuel + 1) level (j.compact.toList ++ rest) = some (j, rest) := by
  cases h with
  | null => rfl
  | bool b => cases b <;> rfl
  | integer hlow hhigh => exact readDocument_of_readNumber (readNumber_toString hlow hhigh) hrest
  | number h => exact readDocument_of_readNumber h hrest
  | string s => exact readDocument_string s
  | array | object => cases hj

mutual

/-- A document is read up to what follows it, with two calls for each character. -/
theorem readDocument_compact :
    ∀ (j : Json) (fuel level : Nat) (rest : List Char), j.Legible → Follows rest →
    level + j.depth ≤ levelLimit → 2 * j.compact.toList.length ≤ fuel + 1 →
    readDocument (fuel + 1) level (j.compact.toList ++ rest) = some (j, rest)
  | null, _, _, _ | bool _, _, _, _ | integer _, _, _, _ | number _, _, _, _ | string _, _, _, _ =>
    fun h hrest _ _ => readDocument_scalar h rfl hrest
  | array items, fuel, level, rest => by
    intro h _ hlevel hfuel
    rw [compact_array, List.length_cons, List.length_append] at hfuel
    rw [depth] at hlevel
    have hlevel' : level < levelLimit := by omega
    rw [compact_array, List.cons_append, List.append_assoc]
    by_cases hne : items = []
    · subst hne
      exact congrArg (fun j => some (j, rest)) (atLevel_of_lt hlevel' _)
    · cases h with
      | array h =>
        obtain ⟨fuel, rfl⟩ : ∃ fuel', fuel = fuel' + 1 := ⟨fuel - 1, by omega⟩
        have hitems :=
          readItems_compactItems items fuel (level + 1) rest hne h (by omega) (by omega)
        obtain ⟨c, s, hs, hspace, hc⟩ := head_compactItems hne h
        rw [hs] at hitems ⊢
        rw [List.cons_append, readDocument_array hspace hc]
        exact (congrArg (Option.map _) hitems).trans
          (congrArg (fun j => some (j, rest)) (atLevel_of_lt hlevel' _))
  | object members, fuel, level, rest => by
    intro h _ hlevel hfuel
    rw [compact_object, List.length_cons, List.length_append] at hfuel
    rw [depth] at hlevel
    have hlevel' : level < levelLimit := by omega
    rw [compact_object, List.cons_append, List.append_assoc]
    by_cases hne : members = []
    · subst hne
      exact congrArg (fun j => some (j, rest)) (atLevel_of_lt hlevel' _)
    · cases h with
      | object _ h =>
        obtain ⟨fuel, rfl⟩ : ∃ fuel', fuel = fuel' + 1 := ⟨fuel - 1, by omega⟩
        have hmembers :=
          readMembers_compactMembers members fuel (level + 1) rest hne h (by omega) (by omega)
        obtain ⟨s, hs⟩ := head_compactMembers hne
        rw [hs] at hmembers ⊢
        rw [List.cons_append, readDocument_object rfl (by decide)]
        have hobject : atLevel level (ofMembers (members.map fun m => (some m.1, m.2))) =
            object members := by
          rw [ofMembers_some, atLevel_of_lt hlevel']
        exact (congrArg (Option.map _) hmembers).trans (congrArg (fun j => some (j, rest)) hobject)
  | unreadable, _, _, _ => nofun

theorem readItems_compactItems :
    ∀ (items : List Json) (fuel level : Nat) (rest : List Char), items ≠ [] →
    (∀ j ∈ items, j.Legible) → level + depth.itemsDepth items ≤ levelLimit →
    2 * (compactItems items).toList.length ≤ fuel →
    readItems (fuel + 1) level ((compactItems items).toList ++ ']' :: rest) = some (items, rest)
  | [], _, _, _, hne, _, _, _ => absurd rfl hne
  | j :: others, fuel, level, rest, _, h, hlevel, hfuel => by
    obtain ⟨hj, hothers⟩ := List.forall_mem_cons.1 h
    rw [depth.itemsDepth] at hlevel
    have hpos := length_compact_pos hj
    by_cases hne : others = []
    · subst hne
      rw [compactItems] at hfuel ⊢
      obtain ⟨fuel, rfl⟩ : ∃ fuel', fuel = fuel' + 1 := ⟨fuel - 1, by omega⟩
      have hread :=
        readDocument_compact j fuel level (']' :: rest) hj (follows_bracket rest) (by omega) hfuel
      rw [readItems, hread]
      rfl
    · rw [compactItems_cons hne, List.length_append, List.length_cons] at hfuel
      obtain ⟨fuel, rfl⟩ : ∃ fuel', fuel = fuel' + 1 := ⟨fuel - 1, by omega⟩
      have hread :=
        readDocument_compact j fuel level (',' :: ((compactItems others).toList ++ ']' :: rest)) hj
        (follows_comma _) (by omega) (by omega)
      have hitems := readItems_compactItems others fuel level rest hne hothers (by omega) (by omega)
      rw [compactItems_cons hne, List.append_assoc, List.cons_append, readItems, hread]
      exact congrArg (Option.map _) hitems

theorem readMembers_compactMembers :
    ∀ (members : List (String × Json)) (fuel level : Nat) (rest : List Char), members ≠ [] →
    (∀ m ∈ members, m.2.Legible) → level + depth.membersDepth members ≤ levelLimit →
    2 * (compactMembers members).toList.length ≤ fuel →
    readMembers (fuel + 1) level ((compactMembers members).toList ++ '\x7d' :: rest) =
      some (members.map fun m => (some m.1, m.2), rest)
  | [], _, _, _, hne, _, _, _ => absurd rfl hne
  | (key, j) :: others, fuel, level, rest, _, h, hlevel, hfuel => by
    obtain ⟨hj, hothers⟩ := List.forall_mem_cons.1 h
    rw [depth.membersDepth] at hlevel
    have hpos := length_compact_pos hj
    by_cases hne : others = []
    · subst hne
      rw [compactMembers_singleton, List.length_append, List.length_cons] at hfuel
      obtain ⟨fuel, rfl⟩ : ∃ fuel', fuel = fuel' + 1 := ⟨fuel - 1, by omega⟩
      have hread :=
        readDocument_compact j fuel level ('\x7d' :: rest) hj (follows_brace rest)
          (by omega) (by omega)
      rw [compactMembers_singleton, List.append_assoc, List.cons_append, readMembers_key, hread]
      rfl
    · rw [compactMembers_cons hne, List.length_append, List.length_cons, List.length_append,
        List.length_cons] at hfuel
      obtain ⟨fuel, rfl⟩ : ∃ fuel', fuel = fuel' + 1 := ⟨fuel - 1, by omega⟩
      have hread :=
        readDocument_compact j fuel level
          (',' :: ((compactMembers others).toList ++ '\x7d' :: rest)) hj
        (follows_comma _) (by omega) (by omega)
      have hmembers :=
        readMembers_compactMembers others fuel level rest hne hothers (by omega) (by omega)
      rw [compactMembers_cons hne, List.append_assoc, List.cons_append, List.append_assoc,
        List.cons_append, readMembers_key, hread]
      exact congrArg (Option.map _) hmembers

end

/-- **Documents.** What is printed for a document that is nested no deeper than containers are read
is read as that document. -/
theorem parse?_compact (h : j.Legible) (hdepth : j.depth < levelLimit) :
    parse? j.compact = some j := by
  have hpos := length_compact_pos h
  obtain ⟨fuel, hfuel⟩ : ∃ fuel, 2 * j.compact.toList.length + 2 = fuel + 1 := ⟨_, rfl⟩
  have hread := readDocument_compact j fuel 1 [] h nofun (by omega) (by omega)
  rw [List.append_nil] at hread
  simp only [parse?, hfuel, hread]
  rfl

/-! ## Texts tell documents apart -/

/-- At the level from which on containers are not read, a container is read as nothing. -/
theorem eq_unreadable_of_isContainer {j' : Json} (hj : j.isContainer = true)
    (h : readDocument (fuel + 1) levelLimit (j.compact.toList ++ rest) = some (j', after)) :
    j' = unreadable := by
  have hnot : ∀ container, atLevel levelLimit container = unreadable :=
    fun _ => if_neg (Nat.lt_irrefl levelLimit)
  cases j with
  | array items =>
    have hopen : isSpace '[' = false := rfl
    simp only [compact_array, List.cons_append, readDocument, skipSpace_cons hopen] at h
    split at h
    · cases h
      exact hnot _
    · obtain ⟨read, -, heq⟩ := Option.map_eq_some_iff.1 h
      cases heq
      exact hnot _
  | object members =>
    have hopen : isSpace '\x7b' = false := rfl
    simp only [compact_object, List.cons_append, readDocument, skipSpace_cons hopen] at h
    split at h
    · cases h
      exact hnot _
    · obtain ⟨read, -, heq⟩ := Option.map_eq_some_iff.1 h
      cases heq
      exact hnot _
  | null | bool | integer | number | string | unreadable => cases hj

/-- Texts that start alike are the texts of one document if one of the two holds no others. -/
theorem eq_of_compact_append_of_scalar {j' : Json} {rest' : List Char} (h : j.Legible)
    (h' : j'.Legible) (hscalar : j.isContainer = false) (hrest : Follows rest)
    (hrest' : Follows rest') (heq : j.compact.toList ++ rest = j'.compact.toList ++ rest') :
    j = j' ∧ rest = rest' := by
  have hread : readDocument 1 levelLimit (j'.compact.toList ++ rest') = some (j, rest) :=
    heq ▸ readDocument_scalar h hscalar hrest
  cases hscalar' : j'.isContainer with
  | false =>
    cases (readDocument_scalar h' hscalar' hrest').symm.trans hread
    exact ⟨rfl, rfl⟩
  | true =>
    cases eq_unreadable_of_isContainer hscalar' hread
    cases h

/-- What stands after an item and before what follows the array. -/
def afterItem : List Json → List Char → List Char
  | [], rest => ']' :: rest
  | j :: others, rest => ',' :: ((compactItems (j :: others)).toList ++ ']' :: rest)

theorem compactItems_append (j : Json) (others : List Json) (rest : List Char) :
    (compactItems (j :: others)).toList ++ ']' :: rest =
      j.compact.toList ++ afterItem others rest := by
  cases others with
  | nil => rfl
  | cons next others =>
    rw [compactItems_cons (List.cons_ne_nil next others), List.append_assoc,
      List.cons_append, afterItem]

theorem follows_afterItem (others : List Json) (rest : List Char) :
    Follows (afterItem others rest) := by
  cases others with
  | nil => exact follows_bracket rest
  | cons => exact follows_comma _

theorem compactItems_of_afterItem {others others' : List Json} {rest' : List Char}
    (h : afterItem others rest = afterItem others' rest') :
    (compactItems others).toList ++ ']' :: rest = (compactItems others').toList ++
    ']' :: rest' := by
  cases others with
  | nil =>
    cases others' with
    | nil => exact h
    | cons => exact absurd (List.cons.inj h).1 (by decide)
  | cons =>
    cases others' with
    | nil => exact absurd (List.cons.inj h).1 (by decide)
    | cons => exact (List.cons.inj h).2

/-- What stands after a member and before what follows the object. -/
def afterMember : List (String × Json) → List Char → List Char
  | [], rest => '\x7d' :: rest
  | m :: others, rest => ',' :: ((compactMembers (m :: others)).toList ++ '\x7d' :: rest)

theorem compactMembers_append (key : String) (j : Json) (others : List (String × Json))
    (rest : List Char) :
    (compactMembers ((key, j) :: others)).toList ++ '\x7d' :: rest =
      (quote key).toList ++ ':' :: (j.compact.toList ++ afterMember others rest) := by
  cases others with
  | nil => rw [compactMembers_singleton, List.append_assoc, List.cons_append, afterMember]
  | cons next others =>
    rw [compactMembers_cons (List.cons_ne_nil next others), List.append_assoc, List.cons_append,
      List.append_assoc, List.cons_append, afterMember]

theorem follows_afterMember (others : List (String × Json)) (rest : List Char) :
    Follows (afterMember others rest) := by
  cases others with
  | nil => exact follows_brace rest
  | cons => exact follows_comma _

theorem compactMembers_of_afterMember {others others' : List (String × Json)} {rest' : List Char}
    (h : afterMember others rest = afterMember others' rest') :
    (compactMembers others).toList ++ '\x7d' :: rest = (compactMembers others').toList ++
    '\x7d' :: rest' := by
  cases others with
  | nil =>
    cases others' with
    | nil => exact h
    | cons => exact absurd (List.cons.inj h).1 (by decide)
  | cons =>
    cases others' with
    | nil => exact absurd (List.cons.inj h).1 (by decide)
    | cons => exact (List.cons.inj h).2

theorem eq_of_quote_append {key key' : String} {rest' : List Char}
    (h : (quote key).toList ++ rest = (quote key').toList ++ rest') :
    key = key' ∧ rest = rest' := by
  rw [quote_toList, quote_toList, List.cons_append, List.cons_append, List.append_assoc,
    List.append_assoc] at h
  have hread := readText_escaped key rest
  have htail : key.toList.flatMap escapeChar ++ '"' :: rest =
      key'.toList.flatMap escapeChar ++ '"' :: rest' := (List.cons.inj h).2
  rw [htail, readText_escaped] at hread
  cases hread
  exact ⟨rfl, rfl⟩

mutual

/-- A document ends where its text says, whatever follows it: no text of a document starts with that
of another one. -/
theorem eq_of_compact_append :
    ∀ (j j' : Json) (rest rest' : List Char), j.Legible → j'.Legible → Follows rest →
      Follows rest' →
    j.compact.toList ++ rest = j'.compact.toList ++ rest' → j = j' ∧ rest = rest'
  | null, _, _, _ | bool _, _, _, _ | integer _, _, _, _ | number _, _, _, _ | string _, _, _, _ =>
    fun h h' hrest hrest' heq => eq_of_compact_append_of_scalar h h' rfl hrest hrest' heq
  | array items, j', rest, rest' => by
    intro h h' hrest hrest' heq
    cases hscalar : j'.isContainer with
    | false =>
      obtain ⟨hj, hafter⟩ := eq_of_compact_append_of_scalar h' h hscalar hrest' hrest heq.symm
      exact ⟨hj.symm, hafter.symm⟩
    | true =>
      cases h' with
      | null | bool | integer | number | string => cases hscalar
      | object =>
        rw [compact_array, compact_object] at heq
        exact absurd (List.cons.inj heq).1 (by decide)
      | array h' =>
        cases h with
        | array h =>
          rw [compact_array, compact_array, List.cons_append, List.cons_append, List.append_assoc,
            List.append_assoc] at heq
          obtain ⟨rfl, hafter⟩ :=
            eq_of_compactItems_append items _ rest rest' h h' (List.cons.inj heq).2
          exact ⟨rfl, hafter⟩
  | object members, j', rest, rest' => by
    intro h h' hrest hrest' heq
    cases hscalar : j'.isContainer with
    | false =>
      obtain ⟨hj, hafter⟩ := eq_of_compact_append_of_scalar h' h hscalar hrest' hrest heq.symm
      exact ⟨hj.symm, hafter.symm⟩
    | true =>
      cases h' with
      | null | bool | integer | number | string => cases hscalar
      | array h' =>
        rw [compact_array, compact_object] at heq
        exact absurd (List.cons.inj heq).1 (by decide)
      | object _ h' =>
        cases h with
        | object _ h =>
          rw [compact_object, compact_object, List.cons_append, List.cons_append, List.append_assoc,
            List.append_assoc] at heq
          obtain ⟨rfl, hafter⟩ :=
            eq_of_compactMembers_append members _ rest rest' h h' (List.cons.inj heq).2
          exact ⟨rfl, hafter⟩
  | unreadable, _, _, _ => nofun

theorem eq_of_compactItems_append :
    ∀ (items items' : List Json) (rest rest' : List Char), (∀ j ∈ items, j.Legible) →
    (∀ j ∈ items', j.Legible) →
    (compactItems items).toList ++ ']' :: rest = (compactItems items').toList ++ ']' :: rest' →
    items = items' ∧ rest = rest'
  | [], [], _, _, _, _, heq => ⟨rfl, (List.cons.inj heq).2⟩
  | [], j :: others, _, _, _, h', heq => by
    obtain ⟨c, s, hs, -, hc⟩ := head_compactItems (List.cons_ne_nil j others) h'
    rw [hs] at heq
    exact absurd (List.cons.inj heq).1.symm hc
  | j :: others, [], _, _, h, _, heq => by
    obtain ⟨c, s, hs, -, hc⟩ := head_compactItems (List.cons_ne_nil j others) h
    rw [hs] at heq
    exact absurd (List.cons.inj heq).1 hc
  | j :: others, j' :: others', rest, rest', h, h', heq => by
    obtain ⟨hj, hothers⟩ := List.forall_mem_cons.1 h
    obtain ⟨hj', hothers'⟩ := List.forall_mem_cons.1 h'
    rw [compactItems_append, compactItems_append] at heq
    obtain ⟨rfl, hafter⟩ :=
      eq_of_compact_append j j' _ _ hj hj' (follows_afterItem others rest)
        (follows_afterItem others' rest') heq
    obtain ⟨rfl, hrest⟩ :=
      eq_of_compactItems_append others others' rest rest' hothers hothers'
        (compactItems_of_afterItem hafter)
    exact ⟨rfl, hrest⟩

theorem eq_of_compactMembers_append :
    ∀ (members members' : List (String × Json)) (rest rest' : List Char),
    (∀ m ∈ members, m.2.Legible) → (∀ m ∈ members', m.2.Legible) →
    (compactMembers members).toList ++ '\x7d' :: rest = (compactMembers members').toList ++
    '\x7d' :: rest' →
    members = members' ∧ rest = rest'
  | [], [], _, _, _, _, heq => ⟨rfl, (List.cons.inj heq).2⟩
  | [], m :: others, _, _, _, _, heq => by
    obtain ⟨s, hs⟩ := head_compactMembers (List.cons_ne_nil m others)
    rw [hs] at heq
    exact absurd (List.cons.inj heq).1 (by decide)
  | m :: others, [], _, _, _, _, heq => by
    obtain ⟨s, hs⟩ := head_compactMembers (List.cons_ne_nil m others)
    rw [hs] at heq
    exact absurd (List.cons.inj heq).1 (by decide)
  | (key, j) :: others, (key', j') :: others', rest, rest', h, h', heq => by
    obtain ⟨hj, hothers⟩ := List.forall_mem_cons.1 h
    obtain ⟨hj', hothers'⟩ := List.forall_mem_cons.1 h'
    rw [compactMembers_append, compactMembers_append] at heq
    obtain ⟨rfl, hcolon⟩ := eq_of_quote_append heq
    obtain ⟨rfl, hafter⟩ := eq_of_compact_append j j' _ _ hj hj' (follows_afterMember others rest)
      (follows_afterMember others' rest') (List.cons.inj hcolon).2
    obtain ⟨rfl, hrest⟩ :=
      eq_of_compactMembers_append others others' rest rest' hothers hothers'
        (compactMembers_of_afterMember hafter)
    exact ⟨rfl, hrest⟩

end

/-- Two documents never have one text, however deeply they are nested. -/
theorem eq_of_compact {j' : Json} (h : j.Legible) (h' : j'.Legible) (heq : j.compact = j'.compact) :
    j = j' :=
  (eq_of_compact_append j j' [] [] h h' nofun nofun (by rw [heq])).1

end Json

end GuardedFlow
