import GuardedFlow.Proofs.Builder.Unplaced
import GuardedFlow.Proofs.Token.Spaced

/-!
# Expressions with other blanks

What tokens say can be written with any blanks between them, and is found again in that text. Since
a condition is read from what tokens say, and not from where they stand, an expression and its
tokens written with other blanks are the same condition, or have the same error
(`Condition.parse_respaced`).
-/

namespace GuardedFlow

namespace Token

theorem unplaced_eq_of_content {ts us : List Token} (h : ts.map content = us.map content) :
    ts.map unplaced = us.map unplaced := by
  have hcontent : ∀ ts : List Token, ts.map unplaced = (ts.map content).map fun k =>
    ⟨k.kind, k.text, 0, 0⟩ := fun ts => by
    rw [List.map_map]
    rfl
  rw [hcontent, hcontent, h]

end Token

namespace Condition

open Token

/-- Two ways of reading an expression give one condition, or one error apart from its place. -/
def SameReading (x y : Except SyntaxError Condition) : Prop :=
  (∃ c, x = .ok c ∧ y = .ok c) ∨ ∃ e e', x = .error e ∧ y = .error e' ∧ e.unplaced = e'.unplaced

theorem sameReading_of_forget {x y : Except SyntaxError Condition}
    (h : SyntaxError.forget id x = SyntaxError.forget id y) : SameReading x y := by
  cases x with
  | ok c =>
    cases y with
    | ok c' => exact .inl ⟨c, rfl, congrArg Except.ok (Except.ok.inj h).symm⟩
    | error e' => cases h
  | error e =>
    cases y with
    | ok c' => cases h
    | error e' => exact .inr ⟨e, e', rfl, rfl, Except.error.inj h⟩

theorem parse_of_tokenize {s : String} {ts : List Token} (h : tokenize s = .ok ts) :
    parse s = ofTokens ts := by
  rw [parse, h]

/-- **Blanks do not matter.** Tokens that are written with blanks between them are found again, with
their kinds and texts; and an expression is read as any text that writes its tokens with blanks
between them. -/
theorem parse_respaced :
    (∀ (ks : List Content) (s : String), (∀ k ∈ ks, k.Valid) → Spaced ks s.toList →
      ∃ ts, tokenize s = .ok ts ∧ ts.map content = ks) ∧
    ∀ (s s' : String) (ts : List Token), tokenize s = .ok ts → Spaced (ts.map content) s'.toList →
      SameReading (parse s) (parse s') := by
  refine ⟨fun ks s hks h => scan_spaced h hks 0, fun s s' ts hts h => ?_⟩
  obtain ⟨us, hus, hcontent⟩ := scan_spaced h (valid_of_scan hts) 0
  rw [parse_of_tokenize hts, parse_of_tokenize hus]
  exact sameReading_of_forget (forget_ofTokens (unplaced_eq_of_content hcontent.symm))

def spread : List Content := [⟨.word, "é!"⟩, ⟨.operator .eq, "="⟩, ⟨.quoted, "it's \"\\"⟩]

theorem parse_respaced_spread :
    (∃ ts, tokenize "é! \u00a0=\t\"it's \\\"\\\\\"" = .ok ts ∧ ts.map content = spread) ∧
    SameReading (parse "é!\t='it\\'s \"\\\\'") (parse "é! \u00a0=\t\"it's \\\"\\\\\"") := by
  have hword : (tokenize "é!").toOption = some [word "é!" 0] := by decide +kernel
  have hvalid : ∀ k ∈ spread, k.Valid := by
    simp only [spread, List.forall_mem_cons]
    exact ⟨eq_ok_of_toOption hword, rfl, trivial, nofun⟩
  have hspaced : Spaced spread "é! \u00a0=\t\"it's \\\"\\\\\"".toList :=
    @Spaced.cons _ _ [' ', '\u00a0'] _ (by decide) (List.all_eq_true.1 rfl) (by decide)
      (@Spaced.cons _ _ ['\t'] _ (by decide) (List.all_eq_true.1 rfl) (by decide) (.single _))
  have hts : (tokenize "é!\t='it\\'s \"\\\\'").toOption =
      some [word "é!" 0, operator .eq 4, ⟨.quoted, "it's \"\\", 5, 11⟩] := by decide +kernel
  exact ⟨parse_respaced.1 _ _ hvalid hspaced,
    parse_respaced.2 _ _ _ (eq_ok_of_toOption hts) hspaced⟩

end Condition

end GuardedFlow
