import GuardedFlow.Keyed

/-!
# Tables as functions

A table answers for a key what was entered last under it (`Keyed.find?_insert`), and two tables in
order that answer alike are the same (`Keyed.ext`).
-/

namespace GuardedFlow.Keyed

variable {α : Type} {table table' : Keyed α} {key : String} {value : α}

theorem find?_insert (table : Keyed α) (key key' : String) (value : α) :
    (table.insert key value).find? key' = if key = key' then some value else table.find? key' := by
  induction table with
  | nil => rfl
  | cons entry rest ih =>
    obtain ⟨k, v⟩ := entry
    rw [insert]
    by_cases hlt : key < k
    · rw [if_pos hlt, find?]
    · rw [if_neg hlt]
      by_cases heq : key = k
      · rw [if_pos heq, find?, find?]
        by_cases hkey : key = key'
        · rw [if_pos hkey, if_pos hkey]
        · rw [if_neg hkey, if_neg hkey, if_neg (heq ▸ hkey)]
      · rw [if_neg heq, find?, find?, ih]
        by_cases hk : k = key'
        · have hkey : key ≠ key' := fun hkey => heq (hkey.trans hk.symm)
          rw [if_pos hk, if_neg hkey, if_pos hk]
        · rw [if_neg hk, if_neg hk]

theorem mem_keys_iff : key ∈ table.keys ↔ ∃ value, table.find? key = some value := by
  induction table with
  | nil => simp [keys, find?]
  | cons entry rest ih =>
    obtain ⟨k, v⟩ := entry
    rw [find?, keys, List.map_cons, List.mem_cons]
    by_cases hk : k = key
    · rw [if_pos hk]
      exact ⟨fun _ => ⟨v, rfl⟩, fun _ => .inl hk.symm⟩
    · rw [if_neg hk, ← ih]
      exact ⟨fun h => h.resolve_left (Ne.symm hk), .inr⟩

theorem find?_eq_none_iff : table.find? key = none ↔ key ∉ table.keys := by
  rw [mem_keys_iff, Option.eq_none_iff_forall_ne_some, not_exists]

theorem nodup_of_pairwise (h : table.keys.Pairwise (· < ·)) : table.keys.Nodup := by
  refine h.imp fun hlt heq => ?_
  exact String.lt_irrefl _ (heq ▸ hlt)

/-- Where keys differ, each entry is found. -/
theorem find?_of_mem (h : table.keys.Nodup) (hmem : (key, value) ∈ table) :
    table.find? key = some value := by
  induction table with
  | nil => cases hmem
  | cons entry rest ih =>
    obtain ⟨k, v⟩ := entry
    obtain ⟨hk, hrest⟩ := List.nodup_cons.1 h
    rw [find?]
    rcases List.mem_cons.1 hmem with heq | hmem
    · cases heq
      exact if_pos rfl
    · have hkey : key ∈ Keyed.keys rest := List.mem_map.2 ⟨(key, value), hmem, rfl⟩
      rw [if_neg (ne_of_mem_of_not_mem hkey hk).symm]
      exact ih hrest hmem

theorem mem_of_find? (h : table.find? key = some value) : (key, value) ∈ table := by
  induction table with
  | nil => cases h
  | cons entry rest ih =>
    rw [find?] at h
    split at h
    · next hkey =>
      cases h
      exact hkey ▸ List.mem_cons_self
    · exact List.mem_cons_of_mem _ (ih h)

/-- A new key comes in addition to those there are. -/
theorem keys_insert_perm (value : α) (h : key ∉ table.keys) :
    (table.insert key value).keys.Perm (key :: table.keys) := by
  induction table with
  | nil => exact .refl _
  | cons entry rest ih =>
    obtain ⟨k, v⟩ := entry
    obtain ⟨hne, hrest⟩ := not_or.1 (mt List.mem_cons.2 h)
    rw [insert]
    by_cases hlt : key < k
    · rw [if_pos hlt]
      exact .refl _
    · rw [if_neg hlt, if_neg hne]
      exact ((ih hrest).cons k).trans (.swap key k (keys rest))

theorem mem_keys_insert {key' : String} (h : key' ∈ (table.insert key value).keys) :
    key' = key ∨ key' ∈ table.keys := by
  obtain ⟨value', hfind⟩ := mem_keys_iff.1 h
  rw [find?_insert] at hfind
  by_cases hkey : key = key'
  · exact .inl hkey.symm
  · rw [if_neg hkey] at hfind
    exact .inr (mem_keys_iff.2 ⟨value', hfind⟩)

theorem lt_of_not_lt {k : String} (hlt : ¬ key < k) (hne : ¬ key = k) : k < key := by
  rcases Std.lt_trichotomy key k with h | h | h
  · exact absurd h hlt
  · exact absurd h hne
  · exact h

/-- Keys stay in order. -/
theorem pairwise_insert (value : α) (h : table.keys.Pairwise (· < ·)) :
    (table.insert key value).keys.Pairwise (· < ·) := by
  induction table with
  | nil => exact List.pairwise_singleton _ _
  | cons entry rest ih =>
    obtain ⟨k, v⟩ := entry
    obtain ⟨hk, hrest⟩ := List.pairwise_cons.1 h
    rw [insert]
    by_cases hlt : key < k
    · rw [if_pos hlt]
      refine List.pairwise_cons.2 ⟨fun k' hk' => ?_, h⟩
      rcases List.mem_cons.1 hk' with rfl | hk'
      · exact hlt
      · exact String.lt_trans hlt (hk k' hk')
    · rw [if_neg hlt]
      by_cases heq : key = k
      · rw [if_pos heq]
        exact heq ▸ h
      · rw [if_neg heq]
        refine List.pairwise_cons.2 ⟨fun k' hk' => ?_, ih hrest⟩
        rcases mem_keys_insert hk' with rfl | hk'
        · exact lt_of_not_lt hlt heq
        · exact hk k' hk'

section Merging

variable {β : Type} {f : String → String} {g : β → α} {entries : Keyed β}

/-- A table with the entries of another one under other keys. -/
def merge (f : String → String) (g : β → α) (table : Keyed α) (entries : Keyed β) : Keyed α :=
  entries.foldl (fun table entry => table.insert (f entry.1) (g entry.2)) table

theorem pairwise_merge (h : table.keys.Pairwise (· < ·)) :
    (merge f g table entries).keys.Pairwise (· < ·) := by
  unfold merge
  induction entries generalizing table with
  | nil => exact h
  | cons entry rest ih => exact ih (pairwise_insert _ h)

theorem find?_merge (hf : ∀ k k', f k = f k' → k = k') (h : entries.keys.Nodup) (table : Keyed α)
    (key : String) :
    (merge f g table entries).find? (f key) =
      ((entries.find? key).map g).or (table.find? (f key)) := by
  unfold merge
  induction entries generalizing table with
  | nil => rfl
  | cons entry rest ih =>
    obtain ⟨k, v⟩ := entry
    obtain ⟨hk, hrest⟩ := List.nodup_cons.1 h
    rw [List.foldl_cons, ih hrest, find?_insert, find?]
    by_cases hkey : k = key
    · subst hkey
      rw [find?_eq_none_iff.2 hk, if_pos rfl, if_pos rfl]
      rfl
    · rw [if_neg (mt (hf k key) hkey), if_neg hkey]

theorem find?_merge_of_ne (h : ∀ k, f k ≠ key) (table : Keyed α) (entries : Keyed β) :
    (merge f g table entries).find? key = table.find? key := by
  unfold merge
  induction entries generalizing table with
  | nil => rfl
  | cons entry rest ih => rw [List.foldl_cons, ih, find?_insert, if_neg (h entry.1)]

end Merging

/-! ## Tables that are in order -/

theorem pairwise_of_ascending (h : table.ascending = true) : table.keys.Pairwise (· < ·) := by
  induction table with
  | nil => exact .nil
  | cons entry rest ih =>
    obtain ⟨k, v⟩ := entry
    cases rest with
    | nil => exact List.pairwise_singleton ..
    | cons next rest =>
      obtain ⟨hlt, hrest⟩ := Bool.and_eq_true_iff.1 h
      have hlt : k < next.1 := of_decide_eq_true hlt
      have hrest := ih hrest
      refine List.pairwise_cons.2 ⟨fun key hkey => ?_, hrest⟩
      rcases List.mem_cons.1 hkey with rfl | hkey
      · exact hlt
      · exact String.lt_trans hlt ((List.pairwise_cons.1 hrest).1 key hkey)

theorem find?_eq_some_of_cons {k : String} {v : α} (h : find? ((k, v) :: table) key = some value) :
    k = key ∨ key ∈ table.keys := by
  rw [find?] at h
  by_cases hk : k = key
  · exact .inl hk
  · rw [if_neg hk] at h
    exact .inr (mem_keys_iff.2 ⟨value, h⟩)

/-- Tables in order that answer alike are the same. -/
theorem ext (h : table.keys.Pairwise (· < ·)) (h' : table'.keys.Pairwise (· < ·))
    (hfind : ∀ key, table.find? key = table'.find? key) : table = table' := by
  have hhead : ∀ (k : String) (v : α) (rest : Keyed α), find? ((k, v) :: rest) k = some v :=
    fun k v rest => by
    rw [find?, if_pos rfl]
  induction table generalizing table' with
  | nil =>
    cases table' with
    | nil => rfl
    | cons entry' rest' =>
      exact absurd ((hfind entry'.1).trans (hhead _ entry'.2 rest')) (Option.some_ne_none _).symm
  | cons entry rest ih =>
    obtain ⟨k, v⟩ := entry
    cases table' with
    | nil => exact absurd ((hfind k).symm.trans (hhead k v rest)) (Option.some_ne_none _).symm
    | cons entry' rest' =>
      obtain ⟨k', v'⟩ := entry'
      obtain ⟨hk, hrest⟩ := List.pairwise_cons.1 h
      obtain ⟨hk', hrest'⟩ := List.pairwise_cons.1 h'
      -- each head is found in the other table, and neither comes before the other
      have hkey : k = k' := by
        rcases find?_eq_some_of_cons ((hfind k).symm.trans (hhead k v rest)) with heq | hmem
        · exact heq.symm
        · rcases find?_eq_some_of_cons ((hfind k').trans (hhead k' v' rest')) with heq | hmem'
          · exact heq
          · exact absurd (hk k' hmem') (String.lt_asymm (hk' k hmem))
      subst hkey
      have hvalue : v = v' :=
        Option.some.inj ((hhead k v rest).symm.trans ((hfind k).trans (hhead k v' rest')))
      subst hvalue
      refine congrArg ((k, v) :: ·) (ih hrest hrest' fun key => ?_)
      by_cases hkey : k = key
      · subst hkey
        have hnone := find?_eq_none_iff.2 fun hmem => String.lt_irrefl k (hk k hmem)
        exact hnone.trans (find?_eq_none_iff.2 fun hmem => String.lt_irrefl k (hk' k hmem)).symm
      · have hcons := hfind key
        rwa [find?, find?, if_neg hkey, if_neg hkey] at hcons

/-- Where keys differ, the places of the entries do not matter. -/
theorem find?_eq_of_perm (h : table.keys.Nodup) (hperm : table.Perm table') (key : String) :
    table.find? key = table'.find? key := by
  have h' : table'.keys.Nodup := (hperm.map Prod.fst).nodup_iff.1 h
  cases hfind : table.find? key with
  | none =>
    have hkey : key ∉ table'.keys := fun hmem =>
      find?_eq_none_iff.1 hfind ((hperm.map Prod.fst).mem_iff.2 hmem)
    exact (find?_eq_none_iff.2 hkey).symm
  | some value => exact (find?_of_mem h' (hperm.mem_iff.1 (mem_of_find? hfind))).symm

/-- The entries of a table make up that table in any order. -/
theorem ofList_of_perm {entries : List (String × α)} (h : table.keys.Pairwise (· < ·))
    (hperm : table.Perm entries) : ofList entries = table := by
  have hentries : (keys entries).Nodup := (hperm.map Prod.fst).nodup_iff.1 (nodup_of_pairwise h)
  have hmerge : ofList entries = merge id id [] entries := rfl
  rw [hmerge]
  refine ext (pairwise_merge .nil) h fun key => ?_
  rw [find?_eq_of_perm (nodup_of_pairwise h) hperm]
  exact (find?_merge (fun _ _ heq => heq) hentries [] key).trans (by simp [find?])

end GuardedFlow.Keyed
