import GuardedFlow.Encoding.Condition
import GuardedFlow.Proofs.Condition.Folded
import GuardedFlow.Proofs.Encoding.Fields
import GuardedFlow.Proofs.Keyed

/-!
# Trees that are read back

Values, operands and conditions are read back from their documents, whatever the order of members
there, if the values in them are `Value.Sound`: with the members of all objects in order, as those
of every value are that is built from members, and without a number that documents do not have. The
results are `Value.Sound.reads`, `Operand.reads_toJson` and `Condition.reads_toJson`.

Operands and conditions are read by recursion on a bound, and a part of a document is nested less
deeply than the whole.
-/

namespace GuardedFlow

/-! ## Values -/

namespace Value

mutual

/-- The numbers in a value, from left to right. -/
def numbers : Value → List Number
  | number x => [x]
  | array items => allNumbers items
  | object fields => fieldNumbers fields
  | _ => []
termination_by structural v => v

def allNumbers : List Value → List Number
  | [] => []
  | v :: rest => v.numbers ++ allNumbers rest
termination_by structural l => l

def fieldNumbers : List (String × Value) → List Number
  | [] => []
  | (_, v) :: rest => v.numbers ++ fieldNumbers rest
termination_by structural l => l

end

/-- What is said of numbers is true of those in a value. -/
def EachNumber (p : Number → Prop) (v : Value) : Prop := ∀ x ∈ v.numbers, p x

instance {p : Number → Prop} [DecidablePred p] (v : Value) : Decidable (v.EachNumber p) :=
  inferInstanceAs (Decidable (∀ x ∈ v.numbers, p x))

/-- Documents keep all of the value: no number is written as null, and the members of objects are in
the order that a reader brings them into. -/
structure Sound (v : Value) : Prop where
  canonical : v.Canonical
  finite : v.EachNumber fun x => x.isFinite = true

theorem itemsOfJson?_eq (items : List Json) : itemsOfJson? items = items.mapM ofJson? := by
  induction items with
  | nil => rfl
  | cons j rest ih =>
    rw [itemsOfJson?, List.mapM_cons, ih]
    cases ofJson? j with
    | none => rfl
    | some v => cases rest.mapM ofJson? <;> rfl

theorem fieldsOfJson?_eq (members : List (String × Json)) :
    fieldsOfJson? members = members.mapM fun m => (ofJson? m.2).map fun v => (m.1, v) := by
  induction members with
  | nil => rfl
  | cons m rest ih =>
    obtain ⟨key, j⟩ := m
    rw [fieldsOfJson?, List.mapM_cons, ih]
    cases ofJson? j with
    | none => rfl
    | some v => cases rest.mapM fun m => (ofJson? m.2).map fun v => (m.1, v) <;> rfl

mutual

theorem reads_toJson : ∀ v : Value, v.Canonical → (∀ x ∈ v.numbers, x.isFinite = true) →
    Json.Reads ofJson? v.toJson v
  | null, _, _ | bool _, _, _ | string _, _, _ => .of_scalar rfl rfl
  | number x, _, hfinite => by
    rw [toJson, if_pos (hfinite x (List.mem_singleton_self x))]
    exact .of_scalar rfl rfl
  | array items, h, hfinite => by
    intro k hk
    cases hk with
    | scalar hj => cases hj
    | array hitems =>
      rw [ofJson?, itemsOfJson?_eq, readsAll_itemsToJson items h hfinite _ hitems, Option.map_some]
  | object fields, h, hfinite => by
    obtain ⟨hascending, hfields⟩ := Bool.and_eq_true_iff.1 h
    intro k hk
    cases hk with
    | scalar hj => cases hj
    | object hmembers hperm =>
      -- the fields come in the order of the document, on which their table does not depend
      have hread := fieldsOfJson?_of_reordered fields hfields hfinite hmembers
      rw [fieldsOfJson?_eq] at hread
      obtain ⟨fields', hread', hperm'⟩ := exists_mapM_of_perm hperm hread
      have htable := Keyed.ofList_of_perm (Keyed.pairwise_of_ascending hascending) hperm'
      rw [ofJson?, fieldsOfJson?_eq, hread', Option.map_some, ofFields, htable]

theorem readsAll_itemsToJson : ∀ items : List Value, canonicalItems items = true →
    (∀ x ∈ allNumbers items, x.isFinite = true) →
    Json.ReadsAll ofJson? (itemsToJson items) items
  | [], _, _ => .nil
  | v :: rest, h, hfinite => by
    obtain ⟨hv, hrest⟩ := Bool.and_eq_true_iff.1 h
    obtain ⟨hfinitev, hfiniterest⟩ := List.forall_mem_append.1 hfinite
    exact .cons (reads_toJson v hv hfinitev) (readsAll_itemsToJson rest hrest hfiniterest)

theorem fieldsOfJson?_of_reordered :
    ∀ (fields : List (String × Value)) {members : List (String × Json)},
    canonicalFields fields = true → (∀ x ∈ fieldNumbers fields, x.isFinite = true) →
    Json.MembersReordered (fieldsToJson fields) members → fieldsOfJson? members = some fields
  | [], _, _, _, .nil => rfl
  | (key, v) :: rest, _, h, hfinite, .cons hj hmembers => by
    obtain ⟨hv, hrest⟩ := Bool.and_eq_true_iff.1 h
    obtain ⟨hfinitev, hfiniterest⟩ := List.forall_mem_append.1 hfinite
    rw [fieldsOfJson?, reads_toJson v hv hfinitev _ hj,
      fieldsOfJson?_of_reordered rest hrest hfiniterest hmembers]

end

theorem Sound.reads {v : Value} (h : v.Sound) : Json.Reads ofJson? v.toJson v :=
  v.reads_toJson h.canonical h.finite

end Value

/-! ## Operands -/

namespace Operand

variable {p : Value → Prop} {o left right : Operand} {op : BinaryOp} {l : List Operand}

/-- What is said of values is true of those that are written out in an operand. -/
def Each (p : Value → Prop) (o : Operand) : Prop := ∀ v, literal v ∈ o.parts → p v

theorem each_literal {v : Value} (h : (literal v).Each p) : p v := h v (by simp [parts])

theorem each_binary (h : (binary left op right).Each p) : left.Each p ∧ right.Each p := by
  constructor
  · exact fun v hv => h v (by simp [parts, hv])
  · exact fun v hv => h v (by simp [parts, hv])

theorem each_unary {op : UnaryOp} (h : (unary op o).Each p) : o.Each p :=
  fun v hv => h v (by simp [parts, hv])

theorem each_of_allParts (h : ∀ v, literal v ∈ allParts l → p v) : ∀ o ∈ l, o.Each p := by
  intro o ho v hv
  refine h v ?_
  rw [allParts_eq]
  exact List.mem_flatMap_of_mem ho hv

theorem each_call {name : String} (h : (call name l).Each p) : ∀ o ∈ l, o.Each p :=
  each_of_allParts fun v hv => h v (List.mem_cons_of_mem _ hv)

theorem each_list (h : (list l).Each p) : ∀ o ∈ l, o.Each p :=
  each_of_allParts fun v hv => h v (List.mem_cons_of_mem _ hv)

theorem allToJson_eq (l : List Operand) : allToJson l = l.map toJson := by
  induction l with
  | nil => rfl
  | cons o rest ih => rw [allToJson, ih, List.map_cons]

theorem toJson_ne_null (o : Operand) : o.toJson ≠ .null := by
  cases o <;> exact nofun

section Readers

variable {read : Json → Option Operand} {j j' : Json}

theorem reads_readBinary? (hleft : Json.Reads read j left) (hright : Json.Reads read j' right) :
    Json.Reads (readBinary? read) (.object [("left", j), ("op", .string op.name), ("right", j')])
      (binary left op right) := by
  intro k hk
  have ⟨_, .cons hj (.cons hname (.cons hj' .nil)), hfields⟩ :=
    Json.exists_fields? (by simp) hk 3
  simp only [List.map] at hfields
  have hop := Json.reads_unitName op.ofName?_name _ hname
  rw [readBinary?, hfields]
  simp only [Json.required, Option.bind_some, hleft _ hj, hop, hright _ hj']
  rfl

theorem reads_readUnary? {op : UnaryOp} (h : Json.Reads read j o) :
    Json.Reads (readUnary? read) (.object [("op", .string op.name), ("operand", j)])
      (unary op o) := by
  intro k hk
  have ⟨_, .cons hname (.cons hj .nil), hfields⟩ := Json.exists_fields? (by simp) hk 2
  simp only [List.map] at hfields
  have hop := Json.reads_unitName op.ofName?_name _ hname
  rw [readUnary?, hfields]
  simp only [Json.required, Option.bind_some, hop, h _ hj]
  rfl

theorem reads_readCall? {name : String} (h : Json.Reads (Json.list? read) j l) :
    Json.Reads (readCall? read) (.object [("name", .string name), ("args", j)]) (call name l) := by
  intro k hk
  have ⟨_, .cons (.scalar _) (.cons hj .nil), hfields⟩ := Json.exists_fields? (by simp) hk 2
  simp only [List.map] at hfields
  rw [readCall?, hfields]
  simp only [Json.required, Option.bind_some, Json.string?, h _ hj]
  rfl

end Readers

mutual

/-- An operand is read back from its document with any bound beyond the nesting of it. -/
theorem reads_read? : ∀ (o : Operand) (fuel : Nat), o.Each Value.Sound → o.toJson.depth < fuel →
    Json.Reads (read? fuel) o.toJson o
  | o, 0, _, hdepth => absurd hdepth (Nat.not_lt_zero _)
  | var name, fuel + 1, _, _ =>
    have hread : Json.Reads (fun k => k.string?.map var) (.string name) (var name) :=
      .of_scalar rfl rfl
    hread.tagged fun _ => rfl
  | null, fuel + 1, _, _ => .of_scalar rfl rfl
  | literal v, fuel + 1, h, _ => .tagged (each_literal h).reads.map fun _ => rfl
  | binary left op right, fuel + 1, h, hdepth => by
    obtain ⟨hleft, hright⟩ := each_binary h
    simp only [toJson, Json.tagged, Json.depth, Json.depth.membersDepth] at hdepth
    exact .tagged (reads_readBinary? (reads_read? left fuel hleft (by omega))
      (reads_read? right fuel hright (by omega))) fun _ => rfl
  | unary op operand, fuel + 1, h, hdepth => by
    simp only [toJson, Json.tagged, Json.depth, Json.depth.membersDepth] at hdepth
    exact .tagged (reads_readUnary? (reads_read? operand fuel (each_unary h) (by omega)))
      fun _ => rfl
  | call name args, fuel + 1, h, hdepth => by
    simp only [toJson, Json.tagged, Json.depth, Json.depth.membersDepth] at hdepth
    exact .tagged (reads_readCall? (readsAll_read? args fuel (each_call h) (by omega)).list?)
      fun _ => rfl
  | list items, fuel + 1, h, hdepth => by
    simp only [toJson, Json.tagged, Json.depth, Json.depth.membersDepth] at hdepth
    exact .tagged (readsAll_read? items fuel (each_list h) (by omega)).list?.map fun _ => rfl

theorem readsAll_read? : ∀ (l : List Operand) (fuel : Nat), (∀ o ∈ l, o.Each Value.Sound) →
    Json.depth.itemsDepth (allToJson l) < fuel → Json.ReadsAll (read? fuel) (allToJson l) l
  | [], _, _, _ => .nil
  | o :: rest, fuel, h, hdepth => by
    obtain ⟨ho, hrest⟩ := List.forall_mem_cons.1 h
    simp only [allToJson, Json.depth.itemsDepth] at hdepth
    exact .cons (reads_read? o fuel ho (by omega)) (readsAll_read? rest fuel hrest (by omega))

end

theorem reads_toJson (h : o.Each Value.Sound) : Json.Reads ofJson? o.toJson o := by
  intro k hk
  rw [ofJson?, hk.depth_eq]
  exact reads_read? o _ h (Nat.lt_succ_self _) k hk

end Operand

/-! ## Conditions -/

namespace Condition

variable {p : Value → Prop} {op : Connective} {left right : Option Condition} {closed : Bool}

/-- What is said of values is true of those that are written out in a condition. -/
def Each (p : Value → Prop) (c : Condition) : Prop := ∀ o ∈ c.operands, o.Each p

theorem allOperands_eq (l : List Condition) : allOperands l = l.flatMap operands := by
  induction l with
  | nil => rfl
  | cons c rest ih => rw [allOperands, ih, List.flatMap_cons]

theorem each_group {children : List Condition} (h : (group children closed).Each p) :
    ∀ c ∈ children, c.Each p := by
  intro c hc o ho
  refine h o ?_
  rw [operands, allOperands_eq]
  exact List.mem_flatMap_of_mem hc ho

theorem each_logical (h : (logical op left right closed).Each p) :
    (∀ c ∈ left, c.Each p) ∧ ∀ c ∈ right, c.Each p := by
  constructor
  · rintro c rfl o ho
    exact h o (List.mem_append_left _ ho)
  · rintro c rfl o ho
    exact h o (List.mem_append_right _ ho)

theorem toJson_ne_null (c : Condition) : c.toJson ≠ .null := by
  cases c <;> exact nofun

section Readers

variable {read : Json → Option Condition} {j j' : Json}

theorem reads_readGroup? {children : List Condition}
    (h : Json.Reads (Json.list? read) j children) :
    Json.Reads (readGroup? read) (.object [("children", j), ("closed", .bool closed)])
      (group children closed) := by
  intro k hk
  have ⟨_, .cons hj (.cons (.scalar _) .nil), hfields⟩ := Json.exists_fields? (by simp) hk 2
  simp only [List.map] at hfields
  rw [readGroup?, hfields]
  simp only [Json.required, Option.bind_some, Json.bool?, h _ hj]
  rfl

theorem reads_readLogical? (hleft : Json.Reads (fun k => Json.optional read (some k)) j left)
    (hright : Json.Reads (fun k => Json.optional read (some k)) j' right) :
    Json.Reads (readLogical? read op)
      (.object [("left", j), ("right", j'), ("closed", .bool closed)])
      (logical op left right closed) := by
  intro k hk
  have ⟨_, .cons hj (.cons hj' (.cons (.scalar _) .nil)), hfields⟩ :=
    Json.exists_fields? (by simp) hk 3
  simp only [List.map] at hfields
  have hread := hleft _ hj
  have hread' := hright _ hj'
  rw [readLogical?, hfields]
  simp only [Json.required, Option.bind_some, Json.bool?, hread, hread']
  rfl

end Readers

section Operands

variable {o : Operand}

theorem reads_readComparison? {op : Option Comparator} {right : Option Operand}
    (ho : o.Each Value.Sound) (hright : ∀ r ∈ right, r.Each Value.Sound) :
    Json.Reads readComparison?
      (.object [("left", o.toJson), ("operator", .ofOption (op.map fun op => .string op.name)),
        ("right", .ofOption (right.map Operand.toJson))])
      (comparison o op right) := by
  intro k hk
  have ⟨_, .cons hj (.cons hname (.cons hj' .nil)), hfields⟩ :=
    Json.exists_fields? (by simp) hk 3
  simp only [List.map] at hfields
  have hname? : ∀ o ∈ op, Json.string o.name ≠ .null ∧
      Json.Reads (fun j => j.unitName?.bind Comparator.ofName?) (.string o.name) o :=
    fun o _ => ⟨nofun, Json.reads_unitName o.ofName?_name⟩
  have hop := Json.reads_optional_ofOption hname? _ hname
  have hread := Json.reads_optional_ofOption
    (fun r hr => ⟨r.toJson_ne_null, Operand.reads_toJson (hright r hr)⟩) _ hj'
  rw [readComparison?, hfields]
  simp only [Json.required, Option.bind_some, Operand.reads_toJson ho _ hj, hop, hread]
  rfl

theorem reads_readSet? {op : SetOperator} {values : List Operand} (ho : o.Each Value.Sound)
    (hvalues : ∀ v ∈ values, v.Each Value.Sound) :
    Json.Reads readSet?
      (.object [("left", o.toJson), ("operator", .string op.name),
        ("values", .array (Operand.allToJson values)), ("closed", .bool closed)])
      (set o op values closed) := by
  intro k hk
  have ⟨_, .cons hj (.cons hname (.cons hitems (.cons (.scalar _) .nil))), hfields⟩ :=
    Json.exists_fields? (by simp) hk 4
  simp only [List.map] at hfields
  have hop := Json.reads_unitName op.ofName?_name _ hname
  rw [Operand.allToJson_eq] at hitems
  have hread :=
    (Json.ReadsAll.of_map fun v hv => Operand.reads_toJson (hvalues v hv)).list? _ hitems
  rw [readSet?, hfields]
  simp only [Json.required, Option.bind_some, Operand.reads_toJson ho _ hj, hop, hread, Json.bool?]
  rfl

end Operands

mutual

/-- A condition is read back from its document with any bound beyond the nesting of it. -/
theorem reads_read? : ∀ (c : Condition) (fuel : Nat), c.Each Value.Sound → c.toJson.depth < fuel →
    Json.Reads (read? fuel) c.toJson c
  | c, 0, _, hdepth => absurd hdepth (Nat.not_lt_zero _)
  | group children closed, fuel + 1, h, hdepth => by
    simp only [toJson, Json.tagged, Json.depth, Json.depth.membersDepth] at hdepth
    exact .tagged (reads_readGroup? (readsAll_read? children fuel (each_group h) (by omega)).list?)
      fun _ => rfl
  | logical op left right closed, fuel + 1, h, hdepth => by
    obtain ⟨hleft, hright⟩ := each_logical h
    simp only [toJson, Json.tagged, Json.depth, Json.depth.membersDepth] at hdepth
    refine .tagged (reads_readLogical? (reads_sideToJson left fuel hleft (by omega))
      (reads_sideToJson right fuel hright (by omega))) fun k => ?_
    cases op with
    | and | or => rfl
  | comparison left op right, fuel + 1, h, _ =>
    .tagged (reads_readComparison? (h left List.mem_cons_self)
      fun r hr => h r (List.mem_cons_of_mem _ (Option.mem_toList.2 hr))) fun _ => rfl
  | set left op values closed, fuel + 1, h, _ =>
    .tagged (reads_readSet? (h left List.mem_cons_self)
      fun v hv => h v (List.mem_cons_of_mem _ hv)) fun _ => rfl

theorem readsAll_read? : ∀ (l : List Condition) (fuel : Nat), (∀ c ∈ l, c.Each Value.Sound) →
    Json.depth.itemsDepth (allToJson l) < fuel → Json.ReadsAll (read? fuel) (allToJson l) l
  | [], _, _, _ => .nil
  | c :: rest, fuel, h, hdepth => by
    obtain ⟨hc, hrest⟩ := List.forall_mem_cons.1 h
    simp only [allToJson, Json.depth.itemsDepth] at hdepth
    exact .cons (reads_read? c fuel hc (by omega)) (readsAll_read? rest fuel hrest (by omega))

theorem reads_sideToJson : ∀ (side : Option Condition) (fuel : Nat),
    (∀ c ∈ side, c.Each Value.Sound) → (sideToJson side).depth < fuel →
    Json.Reads (fun k => Json.optional (read? fuel) (some k)) (sideToJson side) side
  | none, _, _, _ => Json.reads_optional_null
  | some c, fuel, h, hdepth => (reads_read? c fuel (h c rfl) hdepth).optional c.toJson_ne_null

end

theorem reads_toJson {c : Condition} (h : c.Each Value.Sound) : Json.Reads ofJson? c.toJson c := by
  intro k hk
  rw [ofJson?, hk.depth_eq]
  exact reads_read? c _ h (Nat.lt_succ_self _) k hk

end Condition

end GuardedFlow
