import GuardedFlow.Encoding.Response
import GuardedFlow.Encoding.Token
import GuardedFlow.Proofs.Encoding.Tree
import GuardedFlow.Proofs.Json.Faithful

/-!
# Everything that is written is recovered

Values, operands, conditions, tokens, states and warnings are read back from their documents, with
the members of all objects in any order (`Json.recovers`). Between any printer and any reader that
are faithful to the numbers in them they are read back from the texts of these documents, if a text
opens fewer containers in one another than there are levels; a deeper one is refused
(`Json.unread_of_nested`). No two of a kind have the same document or the same text.
-/

namespace GuardedFlow

variable {plain : Number → Prop}

/-! ## Documents that can be written -/

theorem Json.Printable.tagged {name : String} {payload : Json} (h : payload.Printable plain) :
    (Json.tagged name payload).Printable plain :=
  .object (by simp) (List.forall_mem_singleton.2 h)

theorem Json.printable_ofOption {j? : Option Json} (h : ∀ j ∈ j?, j.Printable plain) :
    (ofOption j?).Printable plain := by
  cases j? with
  | none => exact .null
  | some j => exact h j rfl

namespace Value

theorem keys_fieldsToJson (fields : List (String × Value)) :
    (fieldsToJson fields).map Prod.fst = Keyed.keys fields := by
  induction fields with
  | nil => rfl
  | cons field rest ih => exact congrArg (field.1 :: ·) ih

mutual

theorem printable_toJson : ∀ v : Value, v.Canonical → (∀ x ∈ v.numbers, plain x) →
    v.toJson.Printable plain
  | null, _, _ => .null
  | bool b, _, _ => .bool b
  | number x, _, h => by
    rw [toJson]
    split
    · exact .number (h x (List.mem_singleton_self x))
    · exact .null
  | string s, _, _ => .string s
  | array items, hcanonical, h => .array (printable_itemsToJson items hcanonical h)
  | object fields, hcanonical, h => by
    obtain ⟨hascending, hfields⟩ := Bool.and_eq_true_iff.1 hcanonical
    refine .object ?_ (printable_fieldsToJson fields hfields h)
    rw [keys_fieldsToJson]
    exact Keyed.nodup_of_pairwise (Keyed.pairwise_of_ascending hascending)

theorem printable_itemsToJson : ∀ items : List Value, canonicalItems items = true →
    (∀ x ∈ allNumbers items, plain x) → ∀ j ∈ itemsToJson items, j.Printable plain
  | [], _, _ => nofun
  | v :: rest, hcanonical, h => by
    obtain ⟨hcanonicalv, hcanonicalrest⟩ := Bool.and_eq_true_iff.1 hcanonical
    obtain ⟨hv, hrest⟩ := List.forall_mem_append.1 h
    exact List.forall_mem_cons.2
      ⟨printable_toJson v hcanonicalv hv, printable_itemsToJson rest hcanonicalrest hrest⟩

theorem printable_fieldsToJson : ∀ fields : List (String × Value),
    canonicalFields fields = true → (∀ x ∈ fieldNumbers fields, plain x) →
    ∀ m ∈ fieldsToJson fields, m.2.Printable plain
  | [], _, _ => nofun
  | (key, v) :: rest, hcanonical, h => by
    obtain ⟨hcanonicalv, hcanonicalrest⟩ := Bool.and_eq_true_iff.1 hcanonical
    obtain ⟨hv, hrest⟩ := List.forall_mem_append.1 h
    exact List.forall_mem_cons.2
      ⟨printable_toJson v hcanonicalv hv, printable_fieldsToJson rest hcanonicalrest hrest⟩

end

example : EachNumber Number.ReadsBack (array [number (.ofDecimal false 1 (-1)),
    number (.ofDecimal true 25 (-7)), number (.ofDecimal false 625 20)]) := by decide +kernel

end Value

namespace Operand

mutual

theorem printable_toJson : ∀ o : Operand, o.Each (fun v => v.toJson.Printable plain) →
    o.toJson.Printable plain
  | var name, _ => .tagged (.string name)
  | literal v, h => .tagged (each_literal h)
  | null, _ => .string _
  | binary left op right, h => by
    obtain ⟨hleft, hright⟩ := each_binary h
    have hleft := printable_toJson left hleft
    have hright := printable_toJson right hright
    exact .tagged (.object (by simp) (by simp [hleft, hright]))
  | unary op operand, h => by
    have hoperand := printable_toJson operand (each_unary h)
    exact .tagged (.object (by simp) (by simp [hoperand]))
  | call name args, h => by
    have hargs := Json.Printable.array (printable_allToJson args (each_call h))
    exact .tagged (.object (by simp) (by simp [hargs]))
  | list items, h => .tagged (.array (printable_allToJson items (each_list h)))

theorem printable_allToJson :
    ∀ l : List Operand, (∀ o ∈ l, o.Each fun v => v.toJson.Printable plain) →
      ∀ j ∈ allToJson l, j.Printable plain
  | [], _ => nofun
  | o :: rest, h => by
    obtain ⟨ho, hrest⟩ := List.forall_mem_cons.1 h
    exact List.forall_mem_cons.2 ⟨printable_toJson o ho, printable_allToJson rest hrest⟩

end

end Operand

namespace Condition

mutual

theorem printable_toJson : ∀ c : Condition, c.Each (fun v => v.toJson.Printable plain) →
    c.toJson.Printable plain
  | group children closed, h => by
    have hchildren := Json.Printable.array (printable_allToJson children (each_group h))
    exact .tagged (.object (by simp) (by simp [hchildren]))
  | logical op left right closed, h => by
    obtain ⟨hleft, hright⟩ := each_logical h
    have hleft := printable_sideToJson left hleft
    have hright := printable_sideToJson right hright
    exact .tagged (.object (by simp) (by simp [hleft, hright]))
  | comparison left op right, h => by
    obtain ⟨hleft, hright⟩ := List.forall_mem_cons.1 h
    have hleft := left.printable_toJson hleft
    have hop : (Json.ofOption (op.map fun op => .string op.name)).Printable plain := by
      refine Json.printable_ofOption fun j hj => ?_
      obtain ⟨op, -, rfl⟩ := Option.map_eq_some_iff.1 hj
      exact .string op.name
    have hside : (Json.ofOption (right.map Operand.toJson)).Printable plain := by
      refine Json.printable_ofOption fun j hj => ?_
      obtain ⟨right, hmem, rfl⟩ := Option.map_eq_some_iff.1 hj
      exact right.printable_toJson (hright right (Option.mem_toList.2 hmem))
    exact .tagged (.object (by simp) (by simp [hleft, hop, hside]))
  | set left op values closed, h => by
    obtain ⟨hleft, hvalues⟩ := List.forall_mem_cons.1 h
    have hleft := left.printable_toJson hleft
    have hitems := Json.Printable.array (Operand.printable_allToJson values hvalues)
    exact .tagged (.object (by simp) (by simp [hleft, hitems]))

theorem printable_allToJson :
    ∀ l : List Condition, (∀ c ∈ l, c.Each fun v => v.toJson.Printable plain) →
      ∀ j ∈ allToJson l, j.Printable plain
  | [], _ => nofun
  | c :: rest, h => by
    obtain ⟨hc, hrest⟩ := List.forall_mem_cons.1 h
    exact List.forall_mem_cons.2 ⟨printable_toJson c hc, printable_allToJson rest hrest⟩

theorem printable_sideToJson :
    ∀ side : Option Condition, (∀ c ∈ side, c.Each fun v => v.toJson.Printable plain) →
      (sideToJson side).Printable plain
  | none, _ => .null
  | some c, h => printable_toJson c (h c rfl)

end

end Condition

/-! ## Tokens, states and warnings -/

theorem Json.nat?_ofNat (n : Nat) : (ofNat n).nat? = some n := by simp [ofNat, nat?]

namespace Token

/-- The place and the length of a token are counts that 64 bits hold. -/
def Addressable (t : Token) : Prop := t.offset < Nat.pow 2 64 ∧ t.length < Nat.pow 2 64

theorem Kind.reads_toJson (kind : Kind) : Json.Reads ofJson? kind.toJson kind := by
  cases kind with
  | word | quoted | separator => exact .of_scalar rfl rfl
  | operator o => exact .tagged (Json.reads_unitName o.ofName?_name).map fun _ => rfl
  | delimiter d => exact .tagged (Json.reads_unitName d.ofName?_name).map fun _ => rfl

theorem Kind.printable_toJson (kind : Kind) : kind.toJson.Printable plain := by
  cases kind with
  | word | quoted | separator => exact .string _
  | operator | delimiter => exact .tagged (.string _)

theorem reads_toJson (t : Token) : Json.Reads ofJson? t.toJson t := by
  intro k hk
  have ⟨_, .cons hkind (.cons (.scalar _) (.cons (.scalar _) (.cons (.scalar _) .nil))), hfields⟩ :=
    Json.exists_fields? (by simp) hk 4
  simp only [List.map] at hfields
  rw [ofJson?, hfields]
  simp only [Json.required, Option.bind_some, t.kind.reads_toJson _ hkind, Json.string?,
    Json.nat?_ofNat]
  rfl

theorem printable_toJson {t : Token} (h : t.Addressable) : t.toJson.Printable plain := by
  have hcount : ∀ n : Nat, n < Nat.pow 2 64 → (Json.ofNat n).Printable plain :=
    fun n hn => .integer (by omega) (by omega)
  have hoffset := hcount t.offset h.1
  have hlength := hcount t.length h.2
  exact .object (by simp) (by simp [t.kind.printable_toJson, hoffset, hlength])

end Token

theorem State.reads_toJson (s : State) : Json.Reads ofJson? s.toJson s :=
  Json.reads_unitName s.ofName?_name

namespace Warning

theorem reads_toJson (w : Warning) : Json.Reads ofJson? w.toJson w := by
  intro k hk
  have ⟨_, .cons (.scalar _) (.cons hstate (.cons (.scalar _) .nil)), hfields⟩ :=
    Json.exists_fields? (by simp) hk 3
  simp only [List.map] at hfields
  rw [ofJson?, hfields]
  simp only [Json.required, Option.bind_some, w.state.reads_toJson _ hstate, Json.string?]
  rfl

theorem printable_toJson (w : Warning) : w.toJson.Printable plain :=
  .object (by simp) (by simp [State.toJson])

end Warning

namespace Json

variable {α : Type} {write : α → Json} {read : Json → Option α} {sound : α → Prop}
  {plain : (Number → Prop) → α → Prop}

/-- What is written is read back, from the document however deeply that is nested, and from its text
below the limit of the reader, in both cases with the members of objects in any order. No two have a
document in common, and no two have a text in common.

The document needs that it keeps all of what is written (`sound`), the text that printer and reader
are faithful to the numbers in it (`plain`). -/
structure Recovers (write : α → Json) (read : Json → Option α) (sound : α → Prop)
    (plain : (Number → Prop) → α → Prop) : Prop where
  document : ∀ a j, sound a → (write a).Reordered j → read j = some a
  text : ∀ {print parse? exact limit}, Faithful print parse? exact limit →
    ∀ a j, sound a → plain exact a → (write a).depth < limit → (write a).Reordered j →
      (parse? (print j)).bind read = some a
  document_injective : ∀ a b j, sound a → sound b →
    (write a).Reordered j → (write b).Reordered j → a = b
  text_injective : ∀ {print parse? exact limit}, Faithful print parse? exact limit →
    ∀ a b j k, sound a → sound b → plain exact a → plain exact b →
      (write a).Reordered j → (write b).Reordered k → print j = print k → a = b

theorem recovers_of_reads (hreads : ∀ a, sound a → Reads read (write a) a)
    (hprintable : ∀ exact a, sound a → plain exact a → (write a).Printable exact) :
    Recovers write read sound plain := by
  have hinjective : ∀ a b j, sound a → sound b → (write a).Reordered j → (write b).Reordered j →
      a = b := by
    intro a b j ha hb hj hj'
    exact Option.some.inj ((hreads a ha j hj).symm.trans (hreads b hb j hj'))
  refine ⟨fun a j ha => hreads a ha j, fun hfaithful a j ha hplain hdepth hj => ?_, hinjective,
    fun hfaithful a b j k ha hb hplaina hplainb hj hk heq => ?_⟩
  · have hprintablej := hj.printable (hprintable _ a ha hplain)
    obtain ⟨k, hk, hparse⟩ := hfaithful.read j hprintablej (by rwa [hj.depth_eq])
    rw [hparse]
    exact hreads a ha k (hj.trans hk)
  · have hprintablej := hj.printable (hprintable _ a ha hplaina)
    have hprintablek := hk.printable (hprintable _ b hb hplainb)
    have hjk := hfaithful.injective j k hprintablej hprintablek heq
    exact hinjective a b k ha hb (hjk ▸ hj) hk

/-- **Documents of everything that is written.** Values, operands, conditions, tokens, states and
warnings are recovered. `Json.compact` and `Json.parse?` are a printer and a reader for their texts.
The three ways in which the right side of a comparison can be nothing stay apart. -/
theorem recovers :
    Recovers Value.toJson Value.ofJson? Value.Sound Value.EachNumber ∧
    Recovers Operand.toJson Operand.ofJson? (Operand.Each Value.Sound)
      (fun exact => Operand.Each (Value.EachNumber exact)) ∧
    Recovers Condition.toJson Condition.ofJson? (Condition.Each Value.Sound)
      (fun exact => Condition.Each (Value.EachNumber exact)) ∧
    Recovers Token.toJson Token.ofJson? (fun _ => True) (fun _ => Token.Addressable) ∧
    Recovers State.toJson State.ofJson? (fun _ => True) (fun _ _ => True) ∧
    Recovers Warning.toJson Warning.ofJson? (fun _ => True) (fun _ _ => True) ∧
    Faithful compact parse? Number.ReadsBack levelLimit ∧
    ∀ left op, ([none, some .null, some (.literal .null)].map fun right =>
      (Condition.comparison left op right).toJson).Pairwise (· ≠ ·) := by
  refine ⟨?_, ?_, ?_, ?_, ?_, ?_, faithful_compact, fun left op => ?_⟩
  · exact recovers_of_reads (fun _ => Value.Sound.reads)
      fun _ v hsound => v.printable_toJson hsound.canonical
  · refine recovers_of_reads (fun _ => Operand.reads_toJson) fun _ o hsound hplain => ?_
    exact o.printable_toJson fun v hv => v.printable_toJson (hsound v hv).canonical (hplain v hv)
  · refine recovers_of_reads (fun _ => Condition.reads_toJson) fun _ c hsound hplain => ?_
    exact c.printable_toJson fun o ho v hv =>
      v.printable_toJson (hsound o ho v hv).canonical (hplain o ho v hv)
  · exact recovers_of_reads (fun t _ => t.reads_toJson) fun _ _ _ => Token.printable_toJson
  · exact recovers_of_reads (fun s _ => s.reads_toJson) fun _ s _ _ => .string s.name
  · exact recovers_of_reads (fun w _ => w.reads_toJson) fun _ w _ _ => w.printable_toJson
  · simp [Condition.toJson, Operand.toJson, Value.toJson, tagged, ofOption]

/-- Members that stand in a text in another order than a value keeps them in. -/
theorem recovers_swapped :
    (parse? (object [("b", .number Number.zero.neg), ("a", .null)]).compact).bind Value.ofJson? =
      some (.object [("a", .null), ("b", .number Number.zero.neg)]) := by
  obtain ⟨hvalue, -, -, -, -, -, hfaithful, -⟩ := recovers
  have hswapped : (Value.object [("a", .null), ("b", .number Number.zero.neg)]).toJson.Reordered
      (object [("b", .number Number.zero.neg), ("a", .null)]) :=
    .object (MembersReordered.refl _) (.swap ..)
  refine hvalue.text hfaithful _ _ ⟨?_, ?_⟩ ?_ ?_ hswapped
  · unfold Value.Canonical
    decide
  · decide
  · decide +kernel
  · decide

/-- An array in an array, and so on: `n` of them around an empty one. -/
def nested : Nat → Value
  | 0 => .array []
  | n + 1 => .array [nested n]

theorem canonical_nested (n : Nat) : (nested n).Canonical := by
  induction n with
  | zero => rfl
  | succ n ih => exact Bool.and_eq_true_iff.2 ⟨ih, rfl⟩

theorem numbers_nested (n : Nat) : (nested n).numbers = [] := by
  induction n with
  | zero => rfl
  | succ n ih => rw [nested, Value.numbers, Value.allNumbers, ih, Value.allNumbers, List.append_nil]

theorem compact_nested_succ (n : Nat) :
    (nested (n + 1)).toJson.compact.toList =
      '[' :: ((nested n).toJson.compact.toList ++ [']']) :=
  compact_array [(nested n).toJson]

theorem head_compact_nested (n : Nat) :
    ∃ s, (nested n).toJson.compact.toList = '[' :: s := by
  cases n with
  | zero => exact ⟨_, compact_array []⟩
  | succ n => exact ⟨_, compact_nested_succ n⟩

theorem lt_length_compact_nested (n : Nat) : n < (nested n).toJson.compact.toList.length := by
  induction n with
  | zero =>
    obtain ⟨s, hs⟩ := head_compact_nested 0
    rw [hs]
    exact Nat.succ_pos _
  | succ n ih =>
    rw [compact_nested_succ, List.length_cons, List.length_append]
    omega

theorem ofJson?_atLevel {level : Nat} {items : List Json}
    (h : level < levelLimit → Value.itemsOfJson? items = none) :
    Value.ofJson? (atLevel level (array items)) = none := by
  unfold atLevel
  split
  · next hlevel => rw [Value.ofJson?, h hlevel, Option.map_none]
  · rfl

/-- The innermost array is at a level where containers are not read, and whatever is around it is
not a value then. -/
theorem exists_readDocument_nested : ∀ (n fuel level : Nat) (rest : List Char),
    levelLimit ≤ level + n → 2 * n ≤ fuel →
    ∃ j, readDocument (fuel + 1) level ((nested n).toJson.compact.toList ++ rest) = some (j, rest) ∧
      Value.ofJson? j = none
  | 0, fuel, level, rest, hlevel, _ =>
    ⟨atLevel level (array []), rfl, ofJson?_atLevel fun hlt => by omega⟩
  | n + 1, fuel, level, rest, hlevel, hfuel => by
    obtain ⟨fuel, rfl⟩ : ∃ fuel', fuel = fuel' + 2 := ⟨fuel - 2, by omega⟩
    obtain ⟨j, hread, hj⟩ :=
      exists_readDocument_nested n fuel (level + 1) (']' :: rest) (by omega) (by omega)
    have hitems : Value.itemsOfJson? [j] = none := by rw [Value.itemsOfJson?, hj]
    refine ⟨atLevel level (array [j]), ?_, ofJson?_atLevel fun _ => hitems⟩
    obtain ⟨s, hs⟩ := head_compact_nested n
    rw [compact_nested_succ, List.cons_append, List.append_assoc]
    rw [hs] at hread ⊢
    rw [List.cons_append, readDocument_array rfl (by decide), readItems, ← List.cons_append,
      List.singleton_append, hread]
    rfl

/-- A text that opens as many arrays as there are levels is not read. -/
theorem unread_of_nested_le {n : Nat} (h : levelLimit ≤ n + 1) :
    (parse? (nested n).toJson.compact).bind Value.ofJson? = none := by
  have hlength := lt_length_compact_nested n
  obtain ⟨fuel, hfuel⟩ : ∃ fuel, 2 * (nested n).toJson.compact.toList.length + 2 = fuel + 1 :=
    ⟨_, rfl⟩
  obtain ⟨j, hread, hj⟩ := exists_readDocument_nested n fuel 1 [] (by omega) (by omega)
  rw [List.append_nil] at hread
  simp only [parse?, hfuel, hread]
  exact hj

/-- The least such text is refused though no number is in it. -/
theorem unread_of_nested : (nested 127).Canonical ∧ (nested 127).numbers = [] ∧
    (parse? (nested 127).toJson.compact).bind Value.ofJson? = none :=
  ⟨canonical_nested 127, numbers_nested 127, unread_of_nested_le (by decide)⟩

end Json

end GuardedFlow
