import GuardedFlow.Proofs.Token.Spaced

/-!
# An exclamation mark before an equality sign

An equality sign of a text that is a token, and not part of another one, becomes an inequality sign
by an exclamation mark before it. The other tokens stay what they are, only those after it move on
by a byte (`Token.scan_negated`).

The one thing to see is that no token before the sign changes. A word that ended at the sign still
does, since an exclamation mark that an equality sign follows is none of a word, and no operator
ends with the sign or goes on with an exclamation mark.
-/

namespace GuardedFlow.Token

variable {offset : Nat} {inside after before : List Char} {t : Token} {ts : List Token}

/-! ## Tokens of another place -/

theorem First.moved (h : First offset t inside after) (offset' : Nat) :
    ∃ t', First offset' t' inside after ∧ t'.content = t.content := by
  cases h with
  | word hne hw => exact ⟨_, .word hne hw, rfl⟩
  | quoted hquote hraw hunclosed => exact ⟨_, .quoted hquote hraw hunclosed, rfl⟩
  | operator hop => exact ⟨_, .operator hop, rfl⟩
  | delimiter d => exact ⟨_, .delimiter d, rfl⟩
  | separator => exact ⟨_, .separator, rfl⟩

/-- What tokens say does not depend on where the text starts. -/
theorem scan_moved : ∀ offset s ts, scan offset s = .ok ts →
    ∀ offset', ∃ us, scan offset' s = .ok us ∧ us.map content = ts.map content := by
  refine scan_induction ?_ ?_ ?_ ?_
  · intro offset ts h offset'
    rw [scan_nil] at h
    cases h
    exact ⟨[], scan_nil offset', rfl⟩
  · intro offset c rest hc ih ts h offset'
    rw [scan_blank hc]
    exact ih ts (scan_blank hc rest ▸ h) _
  · intro offset t inside after hfirst ih ts h offset'
    rw [hfirst.scan_eq] at h
    obtain ⟨us, hus, rfl⟩ := map_eq_ok.1 h
    obtain ⟨t', hfirst', hcontent⟩ := hfirst.moved offset'
    obtain ⟨vs, hvs, hcontents⟩ := ih us hus t'.stop
    refine ⟨t' :: vs, ?_, ?_⟩
    · rw [hfirst'.scan_eq, hvs]
      rfl
    · rw [List.map_cons, List.map_cons, hcontent, hcontents]
  · intro offset quote rest hquote hunclosed ts h
    rw [scan_unclosed hquote hunclosed] at h
    cases h

/-! ## Tokens before the sign -/

/-- An operator is told by two characters. -/
theorem operatorAt?_take (s : List Char) : operatorAt? (s.take 2) = operatorAt? s := by
  have hop : ∀ op : Operator, op.symbol.toList.isPrefixOf (s.take 2) =
      op.symbol.toList.isPrefixOf s := by
    intro op
    rcases s with _ | ⟨a, _ | ⟨b, s⟩⟩
    · rfl
    · rfl
    · cases op <;> rfl
  exact congrArg Operator.longestFirst.find? (funext hop)

theorem operatorAt?_of_mark (op : Operator) (rest : List Char) :
    operatorAt? (op.symbol.toList ++ '!' :: rest) = some op := by
  rw [← operatorAt?_take]
  cases op <;> rfl

theorem operatorAt?_ne (rest : List Char) :
    operatorAt? (Operator.ne.symbol.toList ++ rest) = some .ne := by
  rw [← operatorAt?_take]
  rfl

theorem take_two_append {s u v : List Char} (h : 2 ≤ s.length) :
    (s ++ u).take 2 = (s ++ v).take 2 := by
  rw [List.take_append_of_le_length h, List.take_append_of_le_length h]

theorem operatorAt?_negated {op : Operator}
    (h : operatorAt? (op.symbol.toList ++ (before ++ '=' :: after)) = some op) :
    operatorAt? (op.symbol.toList ++ (before ++ '!' :: '=' :: after)) = some op := by
  cases before with
  | nil => exact operatorAt?_of_mark op _
  | cons c before =>
    -- two characters are there before the sign
    have hlength : 2 ≤ (op.symbol.toList ++ c :: before).length := by
      have hpos : 0 < op.symbol.toList.length := by cases op <;> decide
      rw [List.length_append, List.length_cons]
      omega
    rw [← h, ← List.append_assoc, ← List.append_assoc, ← operatorAt?_take, take_two_append hlength,
      operatorAt?_take]

/-- A word ends at an equality sign or at the mark before it, unless a mark is in front of the
sign. -/
theorem wordAt_negated (h : before.getLast? ≠ some '!') :
    wordAt (before ++ '!' :: '=' :: after) = wordAt (before ++ '=' :: after) := by
  induction before with
  | nil => simp [wordAt, breaksWord_cons, endsWord, isSymbol]
  | cons c before ih =>
    have hbreaks : breaksWord (c :: (before ++ '!' :: '=' :: after)) =
        breaksWord (c :: (before ++ '=' :: after)) := by
      rw [breaksWord_cons, breaksWord_cons]
      cases before with
      | nil =>
        have hc : c ≠ '!' := fun hc => h (congrArg some hc)
        rw [beq_eq_false_iff_ne.2 hc, Bool.false_and, Bool.false_and]
      | cons c' before => rfl
    have hrest : before.getLast? ≠ some '!' := by
      cases before with
      | nil => exact (Option.some_ne_none '!').symm
      | cons c' before => rwa [List.getLast?_cons_cons] at h
    rw [List.cons_append, List.cons_append, wordAt, wordAt, hbreaks, ih hrest]

/-- No token before an equality sign ends with a mark. -/
theorem First.getLast?_ne (h : First offset t inside ('=' :: after)) :
    inside.getLast? ≠ some '!' := by
  intro hlast
  obtain ⟨init, rfl⟩ := List.getLast?_eq_some_iff.1 hlast
  generalize hinside : init ++ ['!'] = all at h
  cases h with
  | word _ hw =>
    rw [← hinside] at hw
    have hmark := inWord_iff.1 (inWord_of_wordAt (v := []) hw)
    rw [breaksWord_cons] at hmark
    cases hmark
  | quoted hquote =>
    rw [← List.cons_append] at hinside
    obtain ⟨-, hlast⟩ := List.append_inj' hinside rfl
    cases hlast
    exact absurd hquote (by decide)
  | @operator op =>
    have hends := congrArg List.getLast? hinside
    rw [List.getLast?_concat] at hends
    cases op <;> exact absurd hends (by decide)
  | delimiter d =>
    have hends := congrArg List.getLast? hinside
    rw [List.getLast?_concat] at hends
    cases d <;> exact absurd hends (by decide)
  | separator =>
    exact absurd (congrArg List.getLast? hinside) (by rw [List.getLast?_concat]; decide)

theorem First.negated (h : First offset t inside (before ++ '=' :: after))
    (hmark : before.getLast? ≠ some '!') :
    First offset t inside (before ++ '!' :: '=' :: after) := by
  generalize hrest : before ++ '=' :: after = rest at h
  cases h with
  | word hne hw =>
    refine .word hne ?_
    subst hrest
    cases before with
    | nil =>
      have hword : First offset (Token.word (String.ofList inside) offset) inside ('=' :: after) :=
        .word hne hw
      rw [List.nil_append, wordAt_negated hword.getLast?_ne]
      exact hw
    | cons c before =>
      have hlast : (inside ++ c :: before).getLast? ≠ some '!' := by
        rwa [List.getLast?_append, Option.or_of_isSome (by simp)]
      rw [← List.append_assoc, wordAt_negated hlast, List.append_assoc]
      exact hw
  | quoted hquote hraw hunclosed => exact .quoted hquote hraw hunclosed
  | operator hop => exact .operator (operatorAt?_negated (hrest ▸ hop))
  | delimiter d => exact .delimiter d
  | separator => exact .separator

/-! ## The sign -/

theorem First.eq_operator (h : First offset t inside after) (hkind : t.kind = .operator .eq) :
    t = Token.operator .eq offset ∧ inside = ['='] := by
  cases h with
  | operator =>
    cases hkind
    exact ⟨rfl, rfl⟩
  | _ => cases hkind

theorem First.stop_le (h : First offset t inside rest) (hts : scan t.stop rest = .ok ts) {u : Token}
    (hu : u ∈ ts) :
    t.offset < u.offset ∧ t.stop ≤ u.offset := by
  have hle := (lossless_of_scan _ _ _ hts).offset_le hu
  have hpos := Text.byteLength_pos h.ne_nil
  rw [h.stop_eq] at hle ⊢
  rw [h.offset_eq]
  omega

/-- A sign that is a token is an inequality sign with a mark before it. Neither the tokens before it
nor what the tokens after it say is different then, and no mark was before it. -/
theorem scan_negated :
    ∀ offset s ts, scan offset s = .ok ts → ∀ before after t, s = before ++ '=' :: after → t ∈ ts →
    t.kind = .operator .eq → t.offset = offset + Text.byteLength before →
    before.getLast? ≠ some '!' ∧
    ∃ earlier later later', ts = earlier ++ t :: later ∧
      scan offset (before ++ '!' :: '=' :: after) =
        .ok (earlier ++ operator .ne t.offset :: later') ∧
      later'.map content = later.map content := by
  refine scan_induction ?_ ?_ ?_ ?_
  · intro offset ts _ before after t hs
    exact absurd hs (by simp)
  · intro offset c rest hc ih ts h before after t hs ht hkind hoffset
    rw [scan_blank hc] at h
    cases before with
    | nil =>
      obtain ⟨rfl, -⟩ := List.cons.inj hs
      exact absurd hc (by decide)
    | cons c' before =>
      obtain ⟨rfl, hrest⟩ := List.cons.inj hs
      rw [Text.byteLength_cons, ← Nat.add_assoc] at hoffset
      obtain ⟨hmark, earlier, later, later', hts, hscan, hcontent⟩ :=
        ih ts h before after t hrest ht hkind hoffset
      refine ⟨?_, earlier, later, later', hts, (scan_blank hc _).trans hscan, hcontent⟩
      cases before with
      | nil =>
        intro hlast
        cases hlast
        exact absurd hc (by decide)
      | cons c' before => rwa [List.getLast?_cons_cons]
  · intro offset first inside rest hfirst ih ts h before after t hs ht hkind hoffset
    rw [hfirst.scan_eq] at h
    obtain ⟨us, hus, rfl⟩ := map_eq_ok.1 h
    cases before with
    | nil =>
      -- the sign is the first token, since all others start later
      obtain rfl : t = first := (List.mem_cons.1 ht).resolve_right fun hu => by
        have hlt := (hfirst.stop_le hus hu).1
        rw [hfirst.offset_eq, hoffset] at hlt
        exact absurd hlt (Nat.lt_irrefl _)
      obtain ⟨rfl, rfl⟩ := hfirst.eq_operator hkind
      obtain rfl : rest = after := (List.cons.inj hs).2
      have hsign : First offset (operator .ne offset) Operator.ne.symbol.toList rest :=
        .operator (operatorAt?_ne rest)
      obtain ⟨later', hlater', hcontent⟩ := scan_moved _ _ _ hus (operator .ne offset).stop
      refine ⟨nofun, [], us, later', rfl, ?_, hcontent⟩
      rw [show '!' :: '=' :: rest = Operator.ne.symbol.toList ++ rest from rfl, List.nil_append,
        hsign.scan_eq, hlater']
      rfl
    | cons c before =>
      have hpos := Text.byteLength_pos (List.cons_ne_nil c before)
      have hu : t ∈ us := (List.mem_cons.1 ht).resolve_left fun hfirst' => by
        rw [hfirst', hfirst.offset_eq] at hoffset
        omega
      have hstop := (hfirst.stop_le hus hu).2
      rw [hfirst.stop_eq, hoffset] at hstop
      -- the first token ends before the sign
      obtain ⟨between, hbefore, rfl⟩ : ∃ between, c :: before = inside ++ between ∧
          rest = between ++ '=' :: after := by
        rcases List.append_eq_append_iff.1 hs with h | ⟨beyond, hinside, hrest⟩
        · exact h
        · cases beyond with
          | nil => exact ⟨[], by rw [hinside, List.append_nil, List.append_nil], hrest.symm⟩
          | cons c' beyond =>
            have hbeyond := Text.byteLength_pos (List.cons_ne_nil c' beyond)
            rw [hinside, Text.byteLength_append] at hstop
            omega
      have hoffset' : t.offset = first.stop + Text.byteLength between := by
        rw [hoffset, hfirst.stop_eq, hbefore, Text.byteLength_append, Nat.add_assoc]
      obtain ⟨hmark, earlier, later, later', rfl, hscan, hcontent⟩ :=
        ih us hus between after t rfl hu hkind hoffset'
      refine ⟨?_, first :: earlier, later, later', rfl, ?_, hcontent⟩
      · rw [hbefore]
        cases between with
        | nil =>
          rw [List.append_nil]
          exact hfirst.getLast?_ne
        | cons c' between => rwa [List.getLast?_append, Option.or_of_isSome (by simp)]
      · rw [hbefore, List.append_assoc, (hfirst.negated hmark).scan_eq, hscan]
        rfl
  · intro offset quote rest hquote hunclosed ts h
    rw [scan_unclosed hquote hunclosed] at h
    cases h

/-- A text, and the same text with an exclamation mark before an equality sign that is a token. -/
def Negated (s s' : String) : Prop :=
  ∃ before after ts t, s.toList = before ++ '=' :: after ∧
    s'.toList = before ++ '!' :: '=' :: after ∧
    tokenize s = .ok ts ∧ t ∈ ts ∧ t.kind = .operator .eq ∧ t.offset = Text.byteLength before

/-- **One sign is another one.** The tokens differ in the sign, and after it in their places
only. -/
theorem Negated.tokenize_eq_ok {s s' : String} (h : Negated s s') :
    ∃ earlier later later' t, t.kind = .operator .eq ∧
    tokenize s = .ok (earlier ++ t :: later) ∧
    tokenize s' = .ok (earlier ++ operator .ne t.offset :: later') ∧
    later'.map content = later.map content := by
  obtain ⟨before, after, ts, t, hs, hs', hts, ht, hkind, hoffset⟩ := h
  rw [← Nat.zero_add (Text.byteLength before)] at hoffset
  obtain ⟨-, earlier, later, later', rfl, hscan, hcontent⟩ :=
    scan_negated 0 _ ts hts before after t hs ht hkind hoffset
  exact ⟨earlier, later, later', t, hkind, hts, by rw [tokenize, hs', hscan], hcontent⟩

end GuardedFlow.Token
