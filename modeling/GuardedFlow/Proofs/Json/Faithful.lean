import GuardedFlow.Proofs.Json.Documents

/-!
# Printers and readers

What is asked of a printer and a reader of documents so that nothing is lost between them is
`Json.Faithful`: documents within a limit of nesting are read back, up to the order of members, and
no two are written alike. Which numbers are read back differs from one pair to another, and so does
the limit. Printing on one line and `Json.parse?` are such a pair (`Json.faithful_compact`), for the
numbers that are read back from their texts and up to the level from which on containers are not
read.
-/

namespace GuardedFlow.Json

/-- The reader gives back what the printer wrote, for documents whose numbers are all `plain`. -/
structure Faithful (print : Json → String) (parse? : String → Option Json)
    (plain : Number → Prop) (limit : Nat) : Prop where
  /-- A document that is nested less deeply than the limit is read back, perhaps with the members of
  objects in another order. -/
  read : ∀ j, j.Printable plain → j.depth < limit → ∃ k, j.Reordered k ∧ parse? (print j) = some k
  /-- No two documents have one text. -/
  injective : ∀ j k, j.Printable plain → k.Printable plain → print j = print k → j = k

theorem faithful_compact : Faithful compact parse? Number.ReadsBack levelLimit where
  read j h hdepth := ⟨j, .refl j, parse?_compact h hdepth⟩
  injective _ _ h h' := eq_of_compact h h'

variable {plain : Number → Prop}

mutual

/-- Documents can be written with their members in any order. -/
theorem Reordered.printable {j k : Json} :
    j.Reordered k → j.Printable plain → k.Printable plain
  | .scalar _, h => h
  | .array hitems, .array h => .array (hitems.printable h)
  | .object hmembers hperm, .object hkeys h => by
    refine .object ?_ fun m hm => hmembers.printable h m (hperm.mem_iff.2 hm)
    rw [← (hperm.map Prod.fst).nodup_iff, hmembers.keys_eq]
    exact hkeys

theorem ItemsReordered.printable {items items' : List Json} :
    ItemsReordered items items' → (∀ j ∈ items, j.Printable plain) →
      ∀ j ∈ items', j.Printable plain
  | .nil, h => h
  | .cons hj hrest, h => by
    obtain ⟨hhead, htail⟩ := List.forall_mem_cons.1 h
    exact List.forall_mem_cons.2 ⟨hj.printable hhead, hrest.printable htail⟩

theorem MembersReordered.printable {members members' : List (String × Json)} :
    MembersReordered members members' → (∀ m ∈ members, m.2.Printable plain) →
      ∀ m ∈ members', m.2.Printable plain
  | .nil, h => h
  | .cons hj hrest, h => by
    obtain ⟨hhead, htail⟩ := List.forall_mem_cons.1 h
    exact List.forall_mem_cons.2 ⟨hj.printable hhead, hrest.printable htail⟩

end

end GuardedFlow.Json
