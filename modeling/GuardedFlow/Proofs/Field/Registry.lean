import GuardedFlow.Field.Registry
import GuardedFlow.Proofs.Keyed
import Mathlib.Data.List.Basic

/-!
# Registries as tables of paths

A registry is built by calls, each of which registers paths (`Registry.Plan`). A lookup answers with
what the last call registered that registered the path at all, the names are the paths that are
found, the empty one apart, and an empty registry finds nothing (`Registry.Plan.Faithful`).

The record itself is kept apart from the fields. A registry of an inner record that can be read as a
whole, nested under the empty name, registers the record itself, but puts it among the fields, under
the empty name, where no lookup comes to it. Nothing else stands between a registry and its calls
(`Registry.Plan.faithful_iff`).
-/

namespace GuardedFlow

/-- What comes after a name and a dot. -/
def Text.below? (name path : String) : Option String :=
  (path.toList.dropPrefix? (name.toList ++ ['.'])).map String.ofList

theorem Text.below?_eq_some_iff {name path rest : String} :
    below? name path = some rest ↔ name ++ "." ++ rest = path := by
  rw [below?, Option.map_eq_some_iff, ← String.toList_inj, String.toList_append,
    String.toList_append]
  constructor
  · rintro ⟨after, h, rfl⟩
    obtain ⟨before, hpath, hbefore⟩ := List.dropPrefix?_eq_some_iff.1 h
    rw [hpath, eq_of_beq hbefore]
    exact congrArg _ String.toList_ofList
  · intro h
    refine ⟨rest.toList, List.dropPrefix?_eq_some_iff.2 ⟨_, h.symm, beq_self_eq_true _⟩,
      String.ofList_toList⟩

theorem Text.below_ne_name (name rest : String) : name ++ "." ++ rest ≠ name := by
  intro h
  have hlength := congrArg String.length h
  rw [String.length_append, String.length_append] at hlength
  have hdot : ".".length = 1 := rfl
  omega

theorem Text.below_ne_empty (name rest : String) : name ++ "." ++ rest ≠ "" := by
  intro h
  have hlength := congrArg String.length h
  rw [String.length_append, String.length_append] at hlength
  have hdot : ".".length = 1 := rfl
  have hempty : "".length = 0 := rfl
  omega

theorem Text.below?_empty (name : String) : below? name "" = none := by
  refine Option.eq_none_iff_forall_ne_some.2 fun rest hrest => ?_
  exact below_ne_empty name rest (below?_eq_some_iff.1 hrest)

theorem Text.below_inj {name rest rest' : String} (h : name ++ "." ++ rest = name ++ "." ++ rest') :
    rest = rest' := by
  rw [← String.toList_inj, String.toList_append, String.toList_append (s := name ++ ".")] at h
  exact String.toList_inj.1 (List.append_cancel_left h)

namespace Registry

/-- Calls that build a registry, the last one outermost. -/
inductive Plan : Type → Type 1 where
  | empty {α : Type} : Plan α
  | field {α : Type} (before : Plan α) (name : String) (read : Accessor α) : Plan α
  | this {α : Type} (before : Plan α) (read : Accessor α) : Plan α
  | nested {α β : Type} (before : Plan α) (name : String) (get : α → β) (inner : Plan β) : Plan α

namespace Plan

/-- The registry that the calls build. -/
def build {α : Type} : Plan α → Registry α
  | empty => Registry.empty
  | field before name read => before.build.field name read
  | this before read => before.build.this read
  | nested before name get inner => before.build.nested name get inner.build

/-- What nesting registers under a path: the inner paths below the name, and the name itself if the
inner record can be read as a whole. -/
def inside? {α β : Type} (name : String) (get : α → β) (inner : String → Option (Accessor β))
    (path : String) :
    Option (Accessor α) :=
  let read? :=
    if path = name then inner ""
    else (Text.below? name path).bind fun rest => if rest = "" then none else inner rest
  read?.map fun read item => read (get item)

/-- What the last call registers under a path that registers it. -/
def last? {α : Type} : Plan α → String → Option (Accessor α)
  | empty, _ => none
  | field before name read, path => if path = name then some read else before.last? path
  | this before read, path => if path = "" then some read else before.last? path
  | nested before name get inner, path => (inside? name get inner.last? path).or (before.last? path)

/-- The registry does what its calls say. -/
structure Faithful {α : Type} (plan : Plan α) : Prop where
  lookup_eq : ∀ path, plan.build.lookup path = plan.last? path
  mem_names_iff : ∀ path, path ∈ plan.build.names ↔
    path ≠ "" ∧ ∃ read, plan.build.lookup path = some read
  nodup_names : plan.build.names.Nodup
  isEmpty_iff : plan.build.isEmpty = true ↔ ∀ path, plan.build.lookup path = none

/-- Somewhere in the calls, a record that can be read as a whole is nested under the empty name. -/
def Misplaces {α : Type} : Plan α → Prop
  | empty => False
  | field before _ _ => before.Misplaces
  | this before _ => before.Misplaces
  | nested before name _ inner =>
    (name = "" ∧ inner.last? "" ≠ none) ∨ before.Misplaces ∨ inner.Misplaces

/-- Registries that come about while a registry is built. -/
inductive Within {β : Type} (part : Plan β) : {α : Type} → Plan α → Prop where
  | refl : Within part part
  | field {α : Type} {before : Plan α} (h : Within part before) (name : String)
      (read : Accessor α) :
      Within part (before.field name read)
  | this {α : Type} {before : Plan α} (h : Within part before) (read : Accessor α) :
      Within part (before.this read)
  | before {α γ : Type} {before : Plan α} (h : Within part before) (name : String) (get : α → γ)
      (inner : Plan γ) :
      Within part (before.nested name get inner)
  | inner {α γ : Type} {inner : Plan γ} (h : Within part inner) (before : Plan α) (name : String)
      (get : α → γ) :
      Within part (before.nested name get inner)

end Plan

variable {α β : Type} {r : Registry α} {name path : String} {get : α → β} {inner : Registry β}

/-! ## What calls enter -/

theorem lookup_of_ne (r : Registry α) (h : path ≠ "") : r.lookup path = r.fields.find? path :=
  if_neg (mt String.isEmpty_iff.1 h)

/-- The fields of a registry and the inner record as a whole under the name. -/
def own (r : Registry α) (name : String) (get : α → β) (inner : Registry β) : Keyed (Accessor α) :=
  match inner.self? with
  | some read => r.fields.insert name fun item => read (get item)
  | none => r.fields

theorem fields_nested (r : Registry α) (name : String) (get : α → β) (inner : Registry β) :
    (r.nested name get inner).fields =
      Keyed.merge (name ++ "." ++ ·) (fun read item => read (get item))
      (r.own name get inner) inner.fields :=
  rfl

theorem find?_own (r : Registry α) (name : String) (get : α → β) (inner : Registry β)
    (path : String) :
    (r.own name get inner).find? path =
      ((if path = name then inner.self? else none).map fun read item => read (get item)).or
        (r.fields.find? path) := by
  unfold own
  by_cases hpath : path = name
  · rw [if_pos hpath]
    cases inner.self? with
    | none => rfl
    | some read =>
      rw [Keyed.find?_insert, if_pos hpath.symm]
      rfl
  · rw [if_neg hpath]
    cases inner.self? with
    | none => rfl
    | some read =>
      rw [Keyed.find?_insert, if_neg (Ne.symm hpath)]
      rfl

theorem pairwise_own (h : r.fields.keys.Pairwise (· < ·)) :
    (r.own name get inner).keys.Pairwise (· < ·) := by
  unfold own
  cases inner.self? with
  | none => exact h
  | some read => exact Keyed.pairwise_insert _ h

/-- Nesting enters an inner field below the name. -/
theorem find?_nested_below (h : inner.fields.keys.Nodup) (rest : String) :
    (r.nested name get inner).fields.find? (name ++ "." ++ rest) =
      ((inner.fields.find? rest).map fun read item => read (get item)).or
        (r.fields.find? (name ++ "." ++ rest)) := by
  rw [fields_nested, Keyed.find?_merge (fun _ _ => Text.below_inj) h, find?_own,
    if_neg (Text.below_ne_name name rest)]
  rfl

/-- Nesting enters nothing but the name that is not below it. -/
theorem find?_nested_of_below?_eq_none (h : Text.below? name path = none) :
    (r.nested name get inner).fields.find? path =
      ((if path = name then inner.self? else none).map fun read item => read (get item)).or
        (r.fields.find? path) := by
  have hne : ∀ rest, name ++ "." ++ rest ≠ path := fun rest hrest => by
    cases (Text.below?_eq_some_iff.2 hrest).symm.trans h
  rw [fields_nested, Keyed.find?_merge_of_ne hne, find?_own]

namespace Plan

variable {plan : Plan α}

/-- The fields of a registry are in order. -/
theorem pairwise_fields {α : Type} : ∀ plan : Plan α, plan.build.fields.keys.Pairwise (· < ·)
  | empty => .nil
  | field before name read => by
    unfold build Registry.field
    split
    · exact before.pairwise_fields
    · exact Keyed.pairwise_insert _ before.pairwise_fields
  | this before read => before.pairwise_fields
  | nested before name get inner => by
    rw [build, fields_nested]
    exact Keyed.pairwise_merge (pairwise_own before.pairwise_fields)

theorem nodup_fields (plan : Plan α) : plan.build.fields.keys.Nodup :=
  Keyed.nodup_of_pairwise plan.pairwise_fields

/-- The record itself and the fields are what the calls say, and no field has the empty name. -/
structure Placed (plan : Plan α) : Prop where
  self?_eq : plan.build.self? = plan.last? ""
  find?_eq : ∀ path, plan.build.fields.find? path = if path = "" then none else plan.last? path

theorem placed_empty : (empty : Plan α).Placed := ⟨rfl, fun _ => (ite_self none).symm⟩

theorem Placed.field {before : Plan α} (h : before.Placed) (name : String) (read : Accessor α) :
    (before.field name read).Placed := by
  by_cases hname : name = ""
  · subst hname
    refine ⟨rfl, fun path => (h.find?_eq path).trans ?_⟩
    by_cases hpath : path = ""
    · rw [if_pos hpath, if_pos hpath]
    · rw [if_neg hpath, if_neg hpath, last?, if_neg hpath]
  · have hbuild : (before.field name read).build =
        { before.build with fields := before.build.fields.insert name read } :=
          if_neg (by simpa using hname)
    refine ⟨?_, fun path => ?_⟩
    · rw [hbuild, last?, if_neg (Ne.symm hname)]
      exact h.self?_eq
    · rw [hbuild, Keyed.find?_insert, h.find?_eq, last?]
      by_cases hpath : path = name
      · rw [if_pos hpath.symm, if_neg (hpath ▸ hname), if_pos hpath]
      · rw [if_neg (Ne.symm hpath), if_neg hpath]

theorem Placed.this {before : Plan α} (h : before.Placed) (read : Accessor α) :
    (before.this read).Placed :=
  ⟨(h.field "" read).self?_eq, (h.field "" read).find?_eq⟩

/-- Nesting keeps this up, unless it registers the record itself. -/
theorem Placed.nested {before : Plan α} {inner : Plan β} (h : before.Placed) (hinner : inner.Placed)
    {name : String} (get : α → β) (hname : name = "" → inner.last? "" = none) :
    (before.nested name get inner).Placed := by
  have hrecord : inside? name get inner.last? "" = none := by
    unfold inside?
    by_cases hempty : "" = name
    · rw [if_pos hempty, hname hempty.symm]
      rfl
    · rw [if_neg hempty, Text.below?_empty]
      rfl
  refine ⟨?_, fun path => ?_⟩
  · rw [last?, hrecord]
    exact h.self?_eq
  · rw [build, last?]
    cases hbelow : Text.below? name path with
    | none =>
      rw [find?_nested_of_below?_eq_none hbelow, hinner.self?_eq, h.find?_eq]
      by_cases hpath : path = ""
      · subst hpath
        by_cases hempty : "" = name
        · rw [if_pos hempty, hname hempty.symm]
          rfl
        · rw [if_neg hempty]
          rfl
      · rw [if_neg hpath, if_neg hpath, inside?, hbelow]
        by_cases hpath' : path = name
        · rw [if_pos hpath', if_pos hpath']
        · rw [if_neg hpath', if_neg hpath']
          rfl
    | some rest =>
      obtain rfl := Text.below?_eq_some_iff.1 hbelow
      rw [find?_nested_below inner.nodup_fields, hinner.find?_eq, h.find?_eq,
        if_neg (Text.below_ne_empty name rest), if_neg (Text.below_ne_empty name rest), inside?,
        if_neg (Text.below_ne_name name rest), hbelow]
      rfl

theorem placed_of_not_misplaces {α : Type} : ∀ plan : Plan α, ¬ plan.Misplaces → plan.Placed
  | empty, _ => placed_empty
  | field before name read, h => (placed_of_not_misplaces before h).field name read
  | this before read, h => (placed_of_not_misplaces before h).this read
  | nested before name get inner, h => by
    obtain ⟨hname, hbefore, hinner⟩ : ¬ (name = "" ∧
        inner.last? "" ≠ none) ∧ ¬ before.Misplaces ∧ ¬ inner.Misplaces := by
      simpa only [Misplaces, not_or] using h
    refine (placed_of_not_misplaces before hbefore).nested
      (placed_of_not_misplaces inner hinner) get fun hempty => ?_
    exact not_not.1 (not_and.1 hname hempty)

theorem Placed.faithful (h : plan.Placed) : plan.Faithful where
  lookup_eq path := by
    by_cases hpath : path = ""
    · subst hpath
      exact h.self?_eq
    · rw [lookup_of_ne _ hpath, h.find?_eq, if_neg hpath]
  mem_names_iff path := by
    rw [names, Keyed.mem_keys_iff]
    by_cases hpath : path = ""
    · rw [h.find?_eq, if_pos hpath]
      exact ⟨nofun, fun hfound => absurd hpath hfound.1⟩
    · rw [lookup_of_ne _ hpath]
      exact ⟨fun hfound => ⟨hpath, hfound⟩, fun hfound => hfound.2⟩
  nodup_names := plan.nodup_fields
  isEmpty_iff := by
    rw [isEmpty, Bool.and_eq_true, List.isEmpty_iff, Option.isNone_iff_eq_none]
    constructor
    · rintro ⟨hfields, hself⟩ path
      by_cases hpath : path = ""
      · subst hpath
        exact hself
      · rw [lookup_of_ne _ hpath, hfields]
        rfl
    · intro hnone
      refine ⟨List.eq_nil_iff_forall_not_mem.2 fun entry hentry => ?_, hnone ""⟩
      have hfind := Keyed.find?_of_mem plan.nodup_fields hentry
      by_cases hpath : entry.1 = ""
      · cases hfind.symm.trans ((h.find?_eq entry.1).trans (if_pos hpath))
      · cases hfind.symm.trans ((lookup_of_ne _ hpath).symm.trans (hnone entry.1))

/-- Where something is misplaced, some registry has the empty path among its names. -/
theorem exists_not_faithful {α : Type} : ∀ plan : Plan α, plan.Misplaces →
    ∃ (β : Type) (part : Plan β), part.Within plan ∧ ¬ part.Faithful
  | field before name read, h => by
    obtain ⟨β, part, hpart, hunfaithful⟩ := exists_not_faithful before h
    exact ⟨β, part, hpart.field name read, hunfaithful⟩
  | this before read, h => by
    obtain ⟨β, part, hpart, hunfaithful⟩ := exists_not_faithful before h
    exact ⟨β, part, hpart.this read, hunfaithful⟩
  | nested before name get inner, h => by
    by_cases hinner : inner.Misplaces
    · obtain ⟨β, part, hpart, hunfaithful⟩ := exists_not_faithful inner hinner
      exact ⟨β, part, hpart.inner before name get, hunfaithful⟩
    · rcases h with ⟨rfl, hrecord⟩ | hbefore | hinner'
      · refine ⟨_, _, .refl, fun hfaithful => ?_⟩
        obtain ⟨read, hread⟩ := Option.ne_none_iff_exists'.1 hrecord
        have hentered : (before.nested "" get inner).build.fields.find? "" = some fun item =>
          read (get item) := by
          rw [build, find?_nested_of_below?_eq_none (Text.below?_empty ""), if_pos rfl,
            (placed_of_not_misplaces inner hinner).self?_eq, hread]
          rfl
        exact ((hfaithful.mem_names_iff "").1 (Keyed.mem_keys_iff.2 ⟨_, hentered⟩)).1 rfl
      · obtain ⟨β, part, hpart, hunfaithful⟩ := exists_not_faithful before hbefore
        exact ⟨β, part, hpart.before name get inner, hunfaithful⟩
      · exact absurd hinner' hinner

theorem Within.not_misplaces {part : Plan β} (h : part.Within plan)
    (hplan : ¬ plan.Misplaces) : ¬ part.Misplaces := by
  induction h with
  | refl => exact hplan
  | field _ _ _ ih | this _ _ ih => exact ih hplan
  | before _ name get inner ih => exact ih fun hbefore => hplan (.inr (.inl hbefore))
  | inner _ before name get ih => exact ih fun hinner => hplan (.inr (.inr hinner))

/-- **Registries.** All registries that come about while one is built do what their calls say, just
if nowhere a record that can be read as a whole is nested under the empty name. -/
theorem faithful_iff (plan : Plan α) :
    (∀ (β : Type) (part : Plan β), part.Within plan → part.Faithful) ↔ ¬ plan.Misplaces := by
  constructor
  · intro h hplan
    obtain ⟨β, part, hpart, hunfaithful⟩ := exists_not_faithful plan hplan
    exact hunfaithful (h β part hpart)
  · intro hplan β part hpart
    exact (placed_of_not_misplaces part (hpart.not_misplaces hplan)).faithful

/-- A record that is nested under the empty name is listed, and not found. -/
example : let r := (empty.nested "" id (empty.this fun v : Value => v)).build
    r.names = [""] ∧ r.isEmpty = false ∧ (r.lookup "").isNone = true := by decide

end Plan

end Registry

end GuardedFlow
