import GuardedFlow.Encoding.Names
import GuardedFlow.Encoding.Fields
import GuardedFlow.Proofs.Json.Reordered
import GuardedFlow.Proofs.Result
import GuardedFlow.Flow.State

/-!
# Structures and variants that are read back

What is written is to be read from its document with the members in any order, which is what
`Json.Reads` says of a reader. It holds of a structure that is written with each of its fields once
if it holds of the fields (`Json.exists_fields?`), of a variant if it holds of the payload
(`Json.exists_of_reordered_tagged`), and of a list item by item (`Json.ReadsAll`).
-/

namespace GuardedFlow

variable {α β : Type}

namespace Json

/-- The document is read as `a`, whatever the order of the members in it. -/
def Reads (read : Json → Option α) (j : Json) (a : α) : Prop :=
  ∀ k, j.Reordered k → read k = some a

/-- The items are read as `l`, whatever the order of the members in them. -/
def ReadsAll (read : Json → Option α) (items : List Json) (l : List α) : Prop :=
  ∀ items', ItemsReordered items items' → items'.mapM read = some l

variable {read : Json → Option α} {j k : Json} {a : α}

/-- What has no members is read in one way only. -/
theorem Reads.of_scalar (hj : j.isContainer = false) (h : read j = some a) : Reads read j a := by
  intro k hk
  rw [hk.eq_of_not_isContainer hj, h]

theorem Reads.map {f : α → β} (h : Reads read j a) : Reads (fun k => (read k).map f) j (f a) := by
  intro k hk
  simp only [h k hk, Option.map_some]

/-- A name that stands alone. -/
theorem reads_unitName {ofName? : String → Option α} {name : String} (h : ofName? name = some a) :
    Reads (fun k => k.unitName?.bind ofName?) (string name) a :=
  .of_scalar rfl h

/-- A variant is read as its payload is. -/
theorem Reads.tagged {read' : Json → Option α} {name : String} {payload : Json}
    (h : Reads read' payload a) (hread : ∀ k, read (Json.tagged name k) = read' k) :
    Reads read (Json.tagged name payload) a := by
  intro k hk
  obtain ⟨payload', hpayload, rfl⟩ := exists_of_reordered_tagged hk
  rw [hread, h payload' hpayload]

/-! ## Lists -/

section Lists

variable {items : List Json} {l : List α}

theorem ReadsAll.nil : ReadsAll read [] [] := by
  intro items' h
  cases h
  rfl

theorem ReadsAll.cons (h : Reads read j a) (hrest : ReadsAll read items l) :
    ReadsAll read (j :: items) (a :: l) := by
  intro items' hitems
  cases hitems with
  | cons hj hitems => exact mapM_cons_eq_some.2 ⟨a, l, h _ hj, hrest _ hitems, rfl⟩

theorem ReadsAll.of_map {write : α → Json} (h : ∀ a ∈ l, Reads read (write a) a) :
    ReadsAll read (l.map write) l := by
  induction l with
  | nil => exact .nil
  | cons a l ih =>
    obtain ⟨ha, hl⟩ := List.forall_mem_cons.1 h
    exact .cons ha (ih hl)

theorem ReadsAll.list? (h : ReadsAll read items l) : Reads (Json.list? read) (array items) l := by
  intro k hk
  cases hk with
  | scalar hj => cases hj
  | array hitems => exact h _ hitems

end Lists

/-! ## Fields that may be absent -/

theorem Reads.optional (hne : j ≠ null) (h : Reads read j a) :
    Reads (fun k => Json.optional read (some k)) j (some a) := by
  intro k hk
  have hsome : Json.optional read (some k) = (read k).map some := by
    cases k with
    | null => exact absurd rfl (hk.ne_null hne)
    | _ => rfl
  simp only [hsome, h k hk, Option.map_some]

theorem reads_optional_null : Reads (fun k => optional read (some k)) null none :=
  .of_scalar rfl rfl

/-- A field that may be absent is written `null` if it is, which nothing else that it can be is. -/
theorem reads_optional_ofOption {write : α → Json} {a? : Option α}
    (h : ∀ a ∈ a?, write a ≠ null ∧ Reads read (write a) a) :
    Reads (fun k => optional read (some k)) (ofOption (a?.map write)) a? := by
  cases a? with
  | none => exact reads_optional_null
  | some a =>
    obtain ⟨hne, hread⟩ := h a rfl
    exact hread.optional hne

/-! ## Structures -/

section Structures

variable {members : List (String × Json)} {m : String × Json}

theorem field?_of_mem (h : (members.map Prod.fst).Nodup) (hm : m ∈ members) :
    field? members m.1 = some (some m.2) := by
  have hfilter : members.filter (fun m' => m'.1 == m.1) = [m] := by
    induction members with
    | nil => cases hm
    | cons m' rest ih =>
      obtain ⟨hm', hrest⟩ := List.nodup_cons.1 h
      rw [List.filter_cons]
      rcases List.mem_cons.1 hm with rfl | hm
      · have hnone : rest.filter (fun m' => m'.1 == m.1) = [] := by
          refine List.filter_eq_nil_iff.2 fun m' hmem heq => hm' ?_
          exact eq_of_beq heq ▸ List.mem_map_of_mem hmem
        rw [if_pos (beq_self_eq_true m.1), hnone]
      · have hne : (m'.1 == m.1) = false :=
          beq_false_of_ne fun heq => hm' (heq ▸ List.mem_map_of_mem hm)
        rw [if_neg (Bool.eq_false_iff.1 hne), ih hrest hm]
  rw [field?, hfilter]

/-- A structure with all its fields, each once, whose members are rearranged: the fields are found
in the order of their names, each of them reordered. -/
theorem exists_fields? (hkeys : (members.map Prod.fst).Nodup) (h : (object members).Reordered k)
    (least : Nat) :
    ∃ fields, ItemsReordered (members.map Prod.snd) fields ∧
      k.fields? (members.map Prod.fst) least = some (fields.map some) := by
  cases h with
  | scalar h => cases h
  | @object _ fields order hfields hperm =>
    have hkeys' : (order.map Prod.fst).Nodup := by
      rw [← (hperm.map Prod.fst).nodup_iff, hfields.keys_eq]
      exact hkeys
    refine ⟨fields.map Prod.snd, hfields.items, ?_⟩
    rw [← hfields.keys_eq, fields?, List.mapM_map, List.map_map]
    exact mapM_eq_some fun m hm => field?_of_mem hkeys' (hperm.mem_iff.1 hm)

end Structures

end Json

/-! ## Names -/

theorem named?_name {all : List α} {name : α → String} (h : (all.map name).Nodup) {a : α}
    (ha : a ∈ all) :
    named? all name (name a) = some a := by
  induction all with
  | nil => cases ha
  | cons b rest ih =>
    obtain ⟨hb, hrest⟩ := List.nodup_cons.1 h
    rw [named?]
    rcases List.mem_cons.1 ha with rfl | ha
    · exact List.find?_cons_of_pos (beq_self_eq_true (name a))
    · have hne : (name b == name a) = false :=
        beq_false_of_ne fun heq => hb (heq ▸ List.mem_map_of_mem ha)
      rw [List.find?_cons_of_neg (by simp [hne])]
      exact ih hrest ha

theorem Operator.ofName?_name (o : Operator) : ofName? o.name = some o :=
  named?_name (by decide) (by cases o <;> decide)

theorem Delimiter.ofName?_name (d : Delimiter) : ofName? d.name = some d :=
  named?_name (by decide) (by cases d <;> decide)

theorem BinaryOp.ofName?_name (op : BinaryOp) : ofName? op.name = some op :=
  named?_name (by decide) (by cases op <;> decide)

theorem UnaryOp.ofName?_name (op : UnaryOp) : ofName? op.name = some op :=
  named?_name (by decide) (by cases op <;> decide)

theorem Comparator.ofName?_name (op : Comparator) : ofName? op.name = some op :=
  named?_name (by decide) (by cases op <;> decide)

theorem SetOperator.ofName?_name (op : SetOperator) : ofName? op.name = some op :=
  named?_name (by decide) (by cases op <;> decide)

theorem State.ofName?_name (s : State) : ofName? s.name = some s :=
  named?_name (by decide) (by cases s <;> decide)

end GuardedFlow
