import GuardedFlow.Encoding.Fields

/-!
# Members in any order

The members of an object stand in no order of their own: whoever writes a document takes them in any
one, and whoever reads it may hand them on in another one. `Json.Reordered` says that two documents
differ in nothing else. Such documents are nested equally deeply (`Json.Reordered.depth_eq`), and to
rearrange twice is to rearrange once (`Json.Reordered.trans`).

`Json.sorted` is no substitute for the relation: of members with one key it keeps a single one.
-/

namespace GuardedFlow.Json

/-- Whether a document is an array or an object. -/
def isContainer : Json → Bool
  | array _ | object _ => true
  | _ => false

mutual

/-- The second document is the first one with the members of all objects in any order. -/
inductive Reordered : Json → Json → Prop
  | scalar {j : Json} (h : j.isContainer = false) : Reordered j j
  | array {items items' : List Json} (h : ItemsReordered items items') :
      Reordered (array items) (array items')
  | object {members members' order : List (String × Json)} (h : MembersReordered members members')
      (hperm : members'.Perm order) : Reordered (object members) (object order)

/-- Items keep their order. -/
inductive ItemsReordered : List Json → List Json → Prop
  | nil : ItemsReordered [] []
  | cons {j j' : Json} {rest rest' : List Json} (h : Reordered j j')
      (hrest : ItemsReordered rest rest') : ItemsReordered (j :: rest) (j' :: rest')

/-- What stands under each key is reordered. The members themselves are in their places yet. -/
inductive MembersReordered : List (String × Json) → List (String × Json) → Prop
  | nil : MembersReordered [] []
  | cons {key : String} {j j' : Json} {rest rest' : List (String × Json)} (h : Reordered j j')
      (hrest : MembersReordered rest rest') :
      MembersReordered ((key, j) :: rest) ((key, j') :: rest')

end

variable {j k : Json} {members members' order : List (String × Json)}

/-! ## Rearranging nothing, and rearranging twice -/

mutual

theorem Reordered.refl : ∀ j : Json, j.Reordered j
  | array items => .array (ItemsReordered.refl items)
  | object members => .object (MembersReordered.refl members) (.refl members)
  | null | bool _ | integer _ | number _ | string _ | unreadable => .scalar rfl

theorem ItemsReordered.refl : ∀ items : List Json, ItemsReordered items items
  | [] => .nil
  | j :: rest => .cons (Reordered.refl j) (ItemsReordered.refl rest)

theorem MembersReordered.refl : ∀ members : List (String × Json), MembersReordered members members
  | [] => .nil
  | (_, j) :: rest => .cons (Reordered.refl j) (MembersReordered.refl rest)

end

/-- What happens under the keys does not depend on the places of the members. -/
theorem MembersReordered.exists_of_perm (hperm : members.Perm order)
    (h : MembersReordered order members') :
    ∃ members'', MembersReordered members members'' ∧ members''.Perm members' := by
  induction hperm generalizing members' with
  | nil => exact ⟨members', h, .refl _⟩
  | cons m _ ih =>
    cases h with
    | cons hj hrest =>
      obtain ⟨rest, hrest, hperm⟩ := ih hrest
      exact ⟨_, .cons hj hrest, hperm.cons _⟩
  | swap m m' rest =>
    cases h with
    | cons hj hrest =>
      cases hrest with
      | cons hj' hrest => exact ⟨_, .cons hj' (.cons hj hrest), .swap ..⟩
  | trans _ _ ih ih' =>
    obtain ⟨_, hmiddle, hperm'⟩ := ih' h
    obtain ⟨_, hfirst, hperm⟩ := ih hmiddle
    exact ⟨_, hfirst, hperm.trans hperm'⟩

mutual

theorem Reordered.trans {j k l : Json} : j.Reordered k → k.Reordered l → j.Reordered l
  | .scalar _, h => h
  | .array h, .array h' => .array (h.trans h')
  | .object h hperm, .object h' hperm' =>
    -- the second step under the keys is taken before the members change places
    have ⟨_, hmembers, hperm⟩ := h'.exists_of_perm hperm
    .object (h.trans hmembers) (hperm.trans hperm')

theorem ItemsReordered.trans {items items' items'' : List Json} :
    ItemsReordered items items' → ItemsReordered items' items'' → ItemsReordered items items''
  | .nil, h => h
  | .cons h hrest, .cons h' hrest' => .cons (h.trans h') (hrest.trans hrest')

theorem MembersReordered.trans {members members' members'' : List (String × Json)} :
    MembersReordered members members' → MembersReordered members' members'' →
      MembersReordered members members''
  | .nil, h => h
  | .cons h hrest, .cons h' hrest' => .cons (h.trans h') (hrest.trans hrest')

end

/-! ## What stays as it is -/

theorem MembersReordered.keys_eq {members members' : List (String × Json)} :
    MembersReordered members members' → members'.map Prod.fst = members.map Prod.fst
  | .nil => rfl
  | .cons _ hrest => by rw [List.map_cons, List.map_cons, hrest.keys_eq]

theorem MembersReordered.items {members members' : List (String × Json)} :
    MembersReordered members members' →
      ItemsReordered (members.map Prod.snd) (members'.map Prod.snd)
  | .nil => .nil
  | .cons h hrest => .cons h hrest.items

theorem membersDepth_eq_of_perm (h : members.Perm order) :
    depth.membersDepth members = depth.membersDepth order := by
  induction h with
  | nil => rfl
  | cons m _ ih => rw [depth.membersDepth, depth.membersDepth, ih]
  | swap m m' rest =>
    simp only [depth.membersDepth]
    omega
  | trans _ _ ih ih' => exact ih.trans ih'

mutual

theorem Reordered.depth_eq {j k : Json} : j.Reordered k → k.depth = j.depth
  | .scalar _ => rfl
  | .array h => by rw [depth, depth, h.depth_eq]
  | .object h hperm => by rw [depth, depth, ← membersDepth_eq_of_perm hperm, h.depth_eq]

theorem ItemsReordered.depth_eq {items items' : List Json} :
    ItemsReordered items items' → depth.itemsDepth items' = depth.itemsDepth items
  | .nil => rfl
  | .cons h hrest => by rw [depth.itemsDepth, depth.itemsDepth, h.depth_eq, hrest.depth_eq]

theorem MembersReordered.depth_eq {members members' : List (String × Json)} :
    MembersReordered members members' →
      depth.membersDepth members' = depth.membersDepth members
  | .nil => rfl
  | .cons h hrest => by rw [depth.membersDepth, depth.membersDepth, h.depth_eq, hrest.depth_eq]

end

theorem Reordered.eq_of_not_isContainer (hj : j.isContainer = false) (h : j.Reordered k) :
    k = j := by
  cases h with
  | scalar => rfl
  | array | object => cases hj

theorem Reordered.ne_null (hj : j ≠ null) (h : j.Reordered k) : k ≠ null := by
  cases h with
  | scalar => exact hj
  | array | object => exact nofun

/-- A variant has one member, which stays where it is. -/
theorem exists_of_reordered_tagged {name : String} {payload : Json}
    (h : (tagged name payload).Reordered k) :
    ∃ payload', payload.Reordered payload' ∧ k = tagged name payload' := by
  cases h with
  | scalar h => cases h
  | object h hperm =>
    cases h with
    | cons h hrest =>
      cases hrest with
      | nil => exact ⟨_, h, congrArg Json.object (List.perm_singleton.1 hperm.symm)⟩

end GuardedFlow.Json
