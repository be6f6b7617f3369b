import GuardedFlow.Proofs.Builder.Completeness
import GuardedFlow.Proofs.Builder.Items
import GuardedFlow.Proofs.Condition.Printed
import GuardedFlow.Proofs.Token.First

/-!
# Printed conditions read back

The text of a condition that was read, without arithmetic, is read as an equal condition again
(`Condition.parse_text`). What was read is in normal form, and its names are words, since they stand
in its tokens (`Token.exists_word_of_mem_items`).
-/

namespace GuardedFlow

namespace Token

/-- Names stand in words. -/
theorem exists_word_of_mem_items {ts : List Token} {name : String}
    (h : Item.operand (.var name) ∈ items ts ∨ Item.name name ∈ items ts) :
    ∃ t ∈ ts, t.kind = .word ∧ t.text = name := by
  have hat : ∀ (p : Place) (t : Token) (after : Option Token),
      Item.operand (.var name) ∈ itemsAt p t after ∨ Item.name name ∈ itemsAt p t after →
      t.kind = .word ∧ t.text = name := by
    intro p t after h
    unfold itemsAt at h
    split at h
    · next hkind =>
      refine ⟨hkind, ?_⟩
      split at h
      · simpa [eq_comm] using h
      · have hvar : Operand.ofWord t.text = .var name := by simpa [eq_comm] using h
        rcases Operand.ofWord_cases t.text with ho | ⟨b, ho⟩ | ⟨x, ho⟩ | ho
        all_goals
          rw [ho] at hvar
          cases hvar
        rfl
    · simp [Operand.quoted] at h
    · split at h <;> simp at h
    · simp at h
  have key : ∀ (ts : List Token) (p : Place), Item.operand (.var name) ∈ itemsFrom p ts ∨
      Item.name name ∈ itemsFrom p ts →
      ∃ t ∈ ts, t.kind = .word ∧ t.text = name := by
    intro ts
    induction ts with
    | nil =>
      intro p h
      rcases h with h | h <;> cases h
    | cons t ts ih =>
      intro p h
      rw [itemsFrom, List.mem_append, List.mem_append, or_or_or_comm] at h
      rcases h with h | h
      · exact ⟨t, List.mem_cons_self, hat p t _ h⟩
      · obtain ⟨t', ht', hword⟩ := ih _ h
        exact ⟨t', List.mem_cons_of_mem t ht', hword⟩
  exact key ts .start h

end Token

namespace Condition

theorem parse_eq_ok {s : String} {c : Condition} :
    parse s = .ok c ↔ ∃ ts, Token.scan 0 s.toList = .ok ts ∧ ofTokens ts = .ok c := by
  unfold parse Token.tokenize
  cases Token.scan 0 s.toList with
  | error e => exact ⟨nofun, fun ⟨_, h, _⟩ => (by cases h)⟩
  | ok ts => exact ⟨fun h => ⟨ts, rfl, h⟩, fun ⟨_, h, h'⟩ => (by cases h; exact h')⟩

/-- The names in a condition that was read are words. -/
theorem word_of_parse {s : String} {c : Condition} (h : parse s = .ok c) {name : String}
    (hname : Item.operand (.var name) ∈ c.items ∨ Item.name name ∈ c.items) :
    Token.Word name.toList := by
  obtain ⟨ts, hscan, hc⟩ := parse_eq_ok.1 h
  have hitems := map_items_of_ofTokens hc
  have hback : ∀ i : Item, i.unsigned = i → (∀ j : Item, j.unsigned = i → j = i) → i ∈ c.items →
      i ∈ Token.items ts := by
    intro i hi hunsigned hmem
    have hmap := List.mem_map_of_mem (f := Item.unsigned) hmem
    rw [hitems, hi] at hmap
    obtain ⟨j, hj, heq⟩ := List.mem_map.1 hmap
    exact hunsigned j heq ▸ hj
  have hmem : Item.operand (.var name) ∈ Token.items ts ∨ Item.name name ∈ Token.items ts := by
    refine hname.imp (hback _ rfl fun j hj => ?_) (hback _ rfl fun j hj => ?_)
    · unfold Item.unsigned at hj
      split at hj
      · cases hj
      · exact hj
    · unfold Item.unsigned at hj
      split at hj
      · cases hj
      · exact hj
  obtain ⟨t, ht, hkind, rfl⟩ := Token.exists_word_of_mem_items hmem
  exact Token.word_of_scan _ _ _ hscan t ht hkind

/-- **Round trip.** The text of a condition that was read is read as the group of an equal
condition, if there is no arithmetic in it, no number beyond the finite ones, and no text with a
character that is written with an escape of its own. -/
theorem parse_text {s : String} {c : Condition} (h : parse s = .ok c)
    (hplain : ∀ i ∈ c.items, i.isPlain = true) :
    ∃ c', parse c.text = .ok (.group [c'] true) ∧ c.equals c' = true := by
  obtain ⟨ts, -, hc⟩ := parse_eq_ok.1 h
  obtain ⟨child, rfl, hnormal⟩ := exists_normal_of_ofTokens hc
  have hprintable : Printable (group [child] true).items := ⟨hplain, fun _ => word_of_parse h⟩
  obtain ⟨us, stop, ⟨c', hequals, hus, -, -⟩, hscan⟩ :=
    writes_text (.group hnormal) hprintable 0 [] Token.apart_nil
  have hread : ofTokens us = .ok (.group [c'] true) :=
    (hus.delivers Builder.empty Builder.start_empty ⟨[], rfl⟩).ofTokens_eq
  have hend : Token.scan stop [] = .ok [] := by rw [Token.scan]
  rw [List.append_nil, hend] at hscan
  refine ⟨c', parse_eq_ok.2 ⟨us, ?_, hread⟩, hequals⟩
  rw [hscan, Except.map, List.append_nil]

end Condition

def Text.reprinted : String :=
  "(a.b != null || f(x, -0) < ~-y) && s = \x7b'it\\'s \"so\"', 1e3, null\x7d && z! != [-1, 2.5]"

def Token.reprinted : List Token :=
  [.delimiter .openParen 0, .word "a.b" 1, .operator .ne 5, .word "null" 8, .operator .or 13,
    .word "f" 16, .delimiter .openParen 17, .word "x" 18, .separator 19, .operator .sub 21,
    .word "0" 22, .delimiter .closeParen 23, .operator .lt 25, .operator .bitNot 27,
    .operator .sub 28, .word "y" 29, .delimiter .closeParen 30, .operator .and 32, .word "s" 35,
    .operator .eq 37, .delimiter .openBrace 39, ⟨.quoted, "it's \"so\"", 40, 12⟩, .separator 52,
    .word "1e3" 54, .separator 57, .word "null" 59, .delimiter .closeBrace 63, .operator .and 65,
    .word "z!" 68, .operator .ne 71, .delimiter .openBracket 74, .operator .sub 75, .word "1" 76,
    .separator 77, .word "2.5" 79, .delimiter .closeBracket 82]

def Condition.reprinted : Condition :=
  .group [.logical .and
    (some (.logical .and
      (some (.group [.logical .or (some (.comparison (.var "a.b") (some .notNull) none))
        (some (.comparison (.call "f" [.var "x", (Operand.ofWord "0").negate]) (some .lt)
          (some (.unary .bitNot (.unary .neg (.var "y")))))) true] true))
      (some (.set (.var "s") .member [.quoted "it's \"so\"", .ofWord "1e3", .null] true)) true))
    (some (.set (.var "z!") .notInRange [(Operand.ofWord "1").negate, .ofWord "2.5"] true))
    true] true

theorem Condition.parse_text_reprinted :
    parse Text.reprinted = .ok reprinted ∧ (∀ i ∈ reprinted.items, i.isPlain = true) ∧
      reprinted.text =
        "((a.b != null || f(x, 0) < ~-y) && s = \x7b\"it's \\\"so\\\"\", 1000, null\x7d" ++
          " && z! != [-1, 2.5])" ∧
      ∃ c', parse reprinted.text = .ok (.group [c'] true) ∧ reprinted.equals c' = true := by
  have hscan : (Token.scan 0 Text.reprinted.toList).toOption = some Token.reprinted := by
    decide +kernel
  have hparse :=
    parse_eq_ok.2 ⟨_, eq_ok_of_toOption hscan, (rfl : ofTokens Token.reprinted = .ok reprinted)⟩
  have hplain : ∀ i ∈ reprinted.items, i.isPlain = true := by decide +kernel
  exact ⟨hparse, hplain, by decide +kernel, parse_text hparse hplain⟩

end GuardedFlow
