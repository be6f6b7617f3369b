/-!
# Results without an error

What it takes for a computation that may fail to give a result.
-/

namespace GuardedFlow

variable {ε α β : Type}

theorem bind_eq_ok {x : Except ε α} {f : α → Except ε β} {b : β} :
    x >>= f = .ok b ↔ ∃ a, x = .ok a ∧ f a = .ok b := by
  constructor
  · intro h
    cases x with
    | error e => cases h
    | ok a => exact ⟨a, rfl, h⟩
  · rintro ⟨a, rfl, h⟩
    exact h

theorem pure_eq_ok {a b : α} : (pure a : Except ε α) = .ok b ↔ a = b := by
  rw [show (pure a : Except ε α) = .ok a from rfl, Except.ok.injEq]

theorem map_eq_ok {x : Except ε α} {f : α → β} {b : β} :
    f <$> x = .ok b ↔ ∃ a, x = .ok a ∧ f a = b := by
  constructor
  · intro h
    cases x with
    | error e => cases h
    | ok a => exact ⟨a, rfl, Except.ok.inj h⟩
  · rintro ⟨a, rfl, rfl⟩
    rfl

theorem map_eq_error {x : Except ε α} {f : α → β} {e : ε} : x.map f = .error e ↔ x = .error e := by
  cases x with
  | error e' =>
    exact ⟨fun h => congrArg Except.error (Except.error.inj h),
      fun h => congrArg Except.error (Except.error.inj h)⟩
  | ok a => exact ⟨nofun, nofun⟩

theorem map_nil_append (x : Except ε (List α)) : x.map ([] ++ ·) = x := by
  cases x <;> rfl

theorem map_map_append (x : Except ε (List α)) (l l' : List α) :
    (x.map (l' ++ ·)).map (l ++ ·) = x.map (l ++ l' ++ ·) := by
  cases x with
  | error e => rfl
  | ok l'' => exact congrArg Except.ok (List.append_assoc l l' l'').symm

theorem bind_eq_error {x : Except ε α} {f : α → Except ε β} {e : ε} :
    x >>= f = .error e ↔ x = .error e ∨ ∃ a, x = .ok a ∧ f a = .error e := by
  cases x with
  | error e' =>
    constructor
    · intro h
      cases h
      exact .inl rfl
    · rintro (h | ⟨_, h, -⟩)
      · cases h
        rfl
      · cases h
  | ok a =>
    constructor
    · exact fun h => .inr ⟨a, rfl, h⟩
    · rintro (h | ⟨_, h, hf⟩)
      · cases h
      · cases h
        exact hf

/-- A loop fails at one of the things that it goes through, after those before it. -/
theorem split_of_foldlM_eq_error {f : β → α → Except ε β} {l : List α} {b : β} {e : ε}
    (h : l.foldlM f b = .error e) :
    ∃ before a after b', l = before ++ a :: after ∧ before.foldlM f b = .ok b' ∧
      f b' a = .error e := by
  induction l generalizing b with
  | nil => cases h
  | cons a l ih =>
    rw [List.foldlM_cons] at h
    rcases bind_eq_error.1 h with h | ⟨b₁, hfirst, h⟩
    · exact ⟨[], a, l, b, rfl, rfl, h⟩
    · obtain ⟨before, a', after, b', rfl, hbefore, h⟩ := ih h
      refine ⟨a :: before, a', after, b', rfl, ?_, h⟩
      rw [List.foldlM_cons]
      exact bind_eq_ok.2 ⟨b₁, hfirst, hbefore⟩

theorem exists_of_foldlM_eq_error {f : β → α → Except ε β} {l : List α} {b : β} {e : ε}
    (h : l.foldlM f b = .error e) :
    ∃ a ∈ l, ∃ b', f b' a = .error e := by
  obtain ⟨before, a, after, b', rfl, -, h⟩ := split_of_foldlM_eq_error h
  exact ⟨a, List.mem_append_right before List.mem_cons_self, b', h⟩

/-- What is wrong, if anything is. -/
def error? : Except ε α → Option ε
  | .ok _ => none
  | .error e => some e

theorem error?_eq_some_iff {x : Except ε α} {e : ε} : error? x = some e ↔ x = .error e := by
  cases x with
  | error e' =>
    exact ⟨fun h => congrArg Except.error (Option.some.inj h),
      fun h => congrArg some (Except.error.inj h)⟩
  | ok a => exact ⟨nofun, nofun⟩

theorem error?_eq_none_iff {x : Except ε α} : error? x = none ↔ ∃ a, x = .ok a := by
  cases x with
  | error e => exact ⟨nofun, fun ⟨_, h⟩ => nomatch h⟩
  | ok a => exact ⟨fun _ => ⟨a, rfl⟩, fun _ => rfl⟩

/-- What is wrong with a computation comes before what is wrong with the one after it. -/
theorem error?_bind {x : Except ε α} {f : α → Except ε β} {o : Option ε}
    (h : ∀ a, error? (f a) = o) :
    error? (x >>= f) = (error? x).or o := by
  cases x with
  | error e => rfl
  | ok a => exact h a

theorem error?_map (x : Except ε α) (f : α → β) : error? (x.map f) = error? x := by
  cases x <;> rfl

theorem exists_eq_ok {x : Except ε α} (h : x.toOption.isSome = true) : ∃ a, x = .ok a := by
  cases x with
  | error e => cases h
  | ok a => exact ⟨a, rfl⟩

theorem eq_ok_of_toOption {x : Except ε α} {a : α} (h : x.toOption = some a) : x = .ok a := by
  cases x with
  | error e => cases h
  | ok b => exact congrArg Except.ok (Option.some.inj h)

/-- A loop in which nothing is missing. -/
theorem mapM_eq_some {f : α → Option β} {g : α → β} {l : List α} (h : ∀ a ∈ l, f a = some (g a)) :
    l.mapM f = some (l.map g) := by
  induction l with
  | nil => rfl
  | cons a l ih =>
    obtain ⟨ha, hl⟩ := List.forall_mem_cons.1 h
    rw [List.mapM_cons, ha, ih hl]
    rfl

theorem mapM_cons_eq_some {f : α → Option β} {a : α} {l : List α} {result : List β} :
    (a :: l).mapM f = some result ↔
      ∃ b rest, f a = some b ∧ l.mapM f = some rest ∧ b :: rest = result := by
  simp [List.mapM_cons, Option.bind_eq_some_iff]

/-- What is read one by one can be read in another order. -/
theorem exists_mapM_of_perm {f : α → Option β} {l order : List α} {result : List β}
    (hperm : l.Perm order) (h : l.mapM f = some result) :
    ∃ result', order.mapM f = some result' ∧ result.Perm result' := by
  induction hperm generalizing result with
  | nil => exact ⟨result, h, .refl _⟩
  | cons a _ ih =>
    obtain ⟨b, rest, ha, hrest, rfl⟩ := mapM_cons_eq_some.1 h
    obtain ⟨rest', hrest', hperm⟩ := ih hrest
    exact ⟨b :: rest', mapM_cons_eq_some.2 ⟨b, rest', ha, hrest', rfl⟩, hperm.cons b⟩
  | swap a a' l =>
    obtain ⟨b', _, ha', hothers, rfl⟩ := mapM_cons_eq_some.1 h
    obtain ⟨b, rest, ha, hrest, rfl⟩ := mapM_cons_eq_some.1 hothers
    have hothers' : (a' :: l).mapM f = some (b' :: rest) :=
      mapM_cons_eq_some.2 ⟨b', rest, ha', hrest, rfl⟩
    exact ⟨_, mapM_cons_eq_some.2 ⟨b, _, ha, hothers', rfl⟩, .swap ..⟩
  | trans _ _ ih ih' =>
    obtain ⟨middle, hmiddle, hperm⟩ := ih h
    obtain ⟨result', hresult, hperm'⟩ := ih' hmiddle
    exact ⟨result', hresult, hperm.trans hperm'⟩

theorem throw_ne_ok {e : ε} {a : α} : (throw e : Except ε α) ≠ .ok a := by
  intro h
  cases h

end GuardedFlow
