import GuardedFlow.Proofs.Builder.Negated
import GuardedFlow.Proofs.Condition.Respaced
import GuardedFlow.Proofs.Predicate.Absent
import GuardedFlow.Proofs.Token.Negated

/-!
# Set tests, ranges and tests for the absent value written out

A set test says of a variable what comparisons with its values say, a range what comparisons with
its ends say, and a test for the absent value what a comparison with an absent operand says. The
conditions are compiled in ways of their own, but to predicates that agree (`Condition.Agree`).

An expression of one comparison or set test has an opposite, which is written with an inequality
sign (`Condition.Flips.compile`). `Condition.expanded_spec` puts all of this together.
-/

namespace GuardedFlow.Condition

variable {α : Type} {r : Resolver α} {scope : String}

/-- Two conditions are compiled, folded or not, to predicates that agree on some of the records. -/
def AgreeOn (r : Resolver α) (scope : String) (items : α → Prop) (c d : Condition) : Prop :=
  ∀ folding source, ∃ p q, Predicate.generate r scope folding c source = .ok p ∧
    Predicate.generate r scope folding d source = .ok q ∧
    ∀ item, items item → p.test item = q.test item

/-- Two conditions are compiled, folded or not, to predicates that agree on every record. -/
def Agree (r : Resolver α) (scope : String) (c d : Condition) : Prop :=
  AgreeOn r scope (fun _ => True) c d

/-- Two conditions are compiled, folded or not, to predicates of which just one holds on each
record. -/
def Opposed (r : Resolver α) (scope : String) (c d : Condition) : Prop :=
  ∀ folding source, ∃ p q, Predicate.generate r scope folding c source = .ok p ∧
    Predicate.generate r scope folding d source = .ok q ∧ ∀ item, p.test item = !q.test item

/-- A comparison of an operand with each of some others, joined from left to right. -/
def each (left : Operand) (op : Comparator) (join : Connective) (first : Operand)
    (rest : List Operand) : Condition :=
  rest.foldl (fun c o => .logical join (some c) (some (.comparison left (some op) (some o))) true)
    (.comparison left (some op) (some first))

/-! ## Shapes -/

section Shapes

variable {name : String} {o : Operand}

theorem treeDefect?_comparison {op : Comparator} (hop : op.isUnary = false) :
    (comparison (.var name) (some op) (some o)).treeDefect? = none :=
  treeDefect?_comparison_eq_none_iff.2 ⟨rfl, by simp [hop]⟩

theorem treeDefect?_nullTest {op : Comparator} (hop : op.isUnary = true) :
    (comparison (.var name) (some op) none).treeDefect? = none :=
  treeDefect?_comparison_eq_none_iff.2 ⟨rfl, by simp [hop]⟩

theorem treeDefect?_set {op : SetOperator} {values : List Operand} (hne : values ≠ [])
    (hrange : op.isRange = true → 2 ≤ values.length) :
    (set (.var name) op values true).treeDefect? = none :=
  treeDefect?_set_eq_none_iff.2 ⟨rfl, setDefect?_eq_none_iff.2 ⟨rfl, hne, hrange⟩⟩

theorem treeDefect?_logical {op : Connective} {c d : Condition} (hc : c.treeDefect? = none)
    (hd : d.treeDefect? = none) :
    (logical op (some c) (some d) true).treeDefect? = none :=
  treeDefect?_logical_eq_none_iff.2 ⟨rfl, c, d, rfl, rfl, hc, hd⟩

theorem treeDefect?_each {op : Comparator} (hop : op.isUnary = false) (join : Connective)
    (rest : List Operand) :
    (each (.var name) op join o rest).treeDefect? = none := by
  have key : ∀ (rest : List Operand) (c : Condition), c.treeDefect? = none →
      (rest.foldl
        (fun c o => .logical join (some c) (some (.comparison (.var name) (some op) (some o))) true)
          c).treeDefect? =
        none := by
    intro rest
    induction rest with
    | nil => exact fun _ hc => hc
    | cons o rest ih => exact fun c hc => ih _ (treeDefect?_logical hc (treeDefect?_comparison hop))
  exact key rest _ (treeDefect?_comparison hop)

end Shapes

/-! ## Set tests, ranges and tests for the absent value -/

theorem agreeOn_of_compile {items : α → Prop} {c d : Condition} {test test' : α → Bool}
    (hc : c.treeDefect? = none) (hd : d.treeDefect? = none) (htest : c.compile r scope = .ok test)
    (htest' : d.compile r scope = .ok test') (h : ∀ item, items item → test item = test' item) :
    AgreeOn r scope items c d :=
  fun _ _ =>
    ⟨_, _, Predicate.generate_of_compile hc htest, Predicate.generate_of_compile hd htest', h⟩

theorem opposed_of_compile {c d : Condition} {test test' : α → Bool} (hc : c.treeDefect? = none)
    (hd : d.treeDefect? = none) (htest : c.compile r scope = .ok test)
    (htest' : d.compile r scope = .ok test') (h : ∀ item, test item = !test' item) :
    Opposed r scope c d :=
  fun _ _ =>
    ⟨_, _, Predicate.generate_of_compile hc htest, Predicate.generate_of_compile hd htest', h⟩

/-- The comparison of a set test and the connective between two of them. -/
def comparatorOf (negated : Bool) : Comparator := if negated then .ne else .eq

def connectiveOf (negated : Bool) : Connective := if negated then .and else .or

theorem holds_comparatorOf (negated : Bool) (l v : Value) :
    (comparatorOf negated).holds l v = (l.looseEquals v != negated) := by
  cases negated
  · exact (Bool.bne_false _).symm
  · exact (Bool.bne_true _).symm

/-- Comparisons that are joined test what a list of candidates does, in the negated case by De
Morgan. -/
theorem compile_each {left : Operand} {l : α → Value} (hl : left.compile r scope = .ok l)
    (negated : Bool) {rest : List Operand} (hrest : ∀ o ∈ rest, ∃ g, o.compile r scope = .ok g)
    {c : Condition} {test : α → Bool} (hc : c.compile r scope = .ok test) :
    ∃ vs test', Operand.compileAll r scope rest = .ok vs ∧
      (rest.foldl (fun c o => .logical (connectiveOf negated) (some c)
        (some (.comparison left (some (comparatorOf negated)) (some o))) true) c).compile r scope =
          .ok test' ∧
      ∀ item, test' item =
        (((test item != negated) || (vs item).any fun v => (l item).looseEquals v) != negated) := by
  induction rest generalizing c test with
  | nil => exact ⟨_, test, rfl, hc, fun item => by cases negated <;> simp⟩
  | cons o rest ih =>
    obtain ⟨⟨g, hg⟩, hrest⟩ := List.forall_mem_cons.1 hrest
    have hunary : (comparatorOf negated).isUnary = false := by cases negated <;> rfl
    have hone := compile_logical hc (compile_comparison hunary hl hg) (connectiveOf negated) true
    obtain ⟨vs, test', hvs, htest', hall⟩ := ih hrest hone
    refine ⟨fun item => g item :: vs item, test', ?_, htest', fun item => ?_⟩
    · rw [Operand.compileAll, hg, hvs]
      rfl
    · rw [hall, List.any_cons, holds_comparatorOf]
      cases negated <;> cases test item <;> cases (l item).looseEquals (g item) <;> rfl

/-- **Sets.** -/
theorem agree_set {name : String} {l : α → Value} (hl : (Operand.var name).compile r scope = .ok l)
    {first : Operand} {rest : List Operand}
    (hvalues : ∀ o ∈ first :: rest, ∃ g, o.compile r scope = .ok g) (negated : Bool) :
    Agree r scope (.set (.var name) (.ofFlags negated false) (first :: rest) true)
      (each (.var name) (comparatorOf negated) (connectiveOf negated) first rest) := by
  obtain ⟨⟨g, hg⟩, hrest⟩ := List.forall_mem_cons.1 hvalues
  have hunary : (comparatorOf negated).isUnary = false := by cases negated <;> rfl
  have hrange := SetOperator.isRange_ofFlags negated false
  obtain ⟨vs, test, hvs, htest, hall⟩ :=
    compile_each hl negated hrest (compile_comparison hunary hl hg)
  have hlist : Operand.compileAll r scope (first :: rest) = .ok fun item => g item :: vs item := by
    rw [Operand.compileAll, hg, hvs]
    rfl
  refine agreeOn_of_compile
    (treeDefect?_set (List.cons_ne_nil _ _) (fun h => nomatch hrange.symm.trans h))
    (treeDefect?_each hunary _ rest) (compile_membership hrange hl hlist true) htest fun item _ =>
      ?_
  rw [hall, List.any_cons, holds_comparatorOf, SetOperator.isNegated_ofFlags, Bool.bne_assoc,
    bne_self_eq_false, Bool.bne_false]

/-- **Ranges.** -/
theorem agree_range {name : String} {l lo hi : α → Value} {low high : Operand}
    (hl : (Operand.var name).compile r scope = .ok l) (hlow : low.compile r scope = .ok lo)
    (hhigh : high.compile r scope = .ok hi) (rest : List Operand) :
    Agree r scope (.set (.var name) .inRange (low :: high :: rest) true)
      (.logical .and (some (.comparison (.var name) (some .ge) (some low)))
        (some (.comparison (.var name) (some .le) (some high))) true) := by
  have hge : (comparison (.var name) (some .ge) (some low)).compile r scope = .ok _ :=
    compile_comparison rfl hl hlow
  have hle : (comparison (.var name) (some .le) (some high)).compile r scope = .ok _ :=
    compile_comparison rfl hl hhigh
  refine agreeOn_of_compile (treeDefect?_set (List.cons_ne_nil _ _) fun _ => by simp)
    (treeDefect?_logical (treeDefect?_comparison rfl) (treeDefect?_comparison rfl))
    (compile_range rfl hl hlow hhigh rest true) (compile_logical hge hle .and true) fun item _ => ?_
  show ((l item).within (lo item) (hi item) != false) = _
  rw [Bool.bne_false, Value.within]
  cases l item with
  | null => rfl
  | _ => rfl

theorem opposed_range {name : String} {l lo hi : α → Value} {low high : Operand}
    (hl : (Operand.var name).compile r scope = .ok l) (hlow : low.compile r scope = .ok lo)
    (hhigh : high.compile r scope = .ok hi) (rest : List Operand) :
    Opposed r scope (.set (.var name) .notInRange (low :: high :: rest) true)
      (.set (.var name) .inRange (low :: high :: rest) true) := by
  refine opposed_of_compile (treeDefect?_set (List.cons_ne_nil _ _) fun _ => by simp)
    (treeDefect?_set (List.cons_ne_nil _ _) fun _ => by simp)
    (compile_range rfl hl hlow hhigh rest true)
      (compile_range rfl hl hlow hhigh rest true) fun item => ?_
  show ((l item).within (lo item) (hi item) != true) =
    !((l item).within (lo item) (hi item) != false)
  rw [Bool.bne_true, Bool.bne_false]

/-- **Tests for the absent value.** -/
theorem agree_nullTest {name : String} {l g : α → Value} {x : Operand}
    (hl : (Operand.var name).compile r scope = .ok l) (hx : x.compile r scope = .ok g) :
    AgreeOn r scope (fun item => g item = .null) (.comparison (.var name) (some .isNull) none)
      (.comparison (.var name) (some .eq) (some x)) ∧
    AgreeOn r scope (fun item => g item = .null) (.comparison (.var name) (some .notNull) none)
      (.comparison (.var name) (some .ne) (some x)) := by
  constructor
  · refine agreeOn_of_compile (treeDefect?_nullTest rfl) (treeDefect?_comparison rfl)
      (compile_nullTest rfl hl)
      (compile_comparison rfl hl hx) fun item hnull => ?_
    show (l item).isNull = (l item).looseEquals (g item)
    rw [hnull, Value.looseEquals_null]
  · refine agreeOn_of_compile (treeDefect?_nullTest rfl) (treeDefect?_comparison rfl)
      (compile_nullTest rfl hl)
      (compile_comparison rfl hl hx) fun item hnull => ?_
    show (!(l item).isNull) = !(l item).looseEquals (g item)
    rw [hnull, Value.looseEquals_null]

/-! ## The opposite of a comparison -/

/-- One comparison or set test, in any number of parentheses. -/
inductive Lone : Condition → Prop where
  | comparison (left : Operand) (op : Option Comparator) (right : Option Operand) :
      Lone (.comparison left op right)
  | set (left : Operand) (op : SetOperator) (values : List Operand) (closed : Bool) :
      Lone (.set left op values closed)
  | group {c : Condition} (closed : Bool) (h : Lone c) : Lone (.group [c] closed)

/-- A comparison with the other sign is of the same shape, and holds where it does not. -/
theorem Flips.compile {c c' : Condition} {test : α → Bool} (h : c.Flips c') (hlone : c.Lone)
    (hdefect : c.treeDefect? = none) (htest : c.compile r scope = .ok test) :
    c'.treeDefect? = none ∧
    ∃ test', c'.compile r scope = .ok test' ∧ ∀ item, test' item = !test item := by
  induction h generalizing test with
  | comparison left right =>
    rw [treeDefect?_comparison_eq_none_iff] at hdefect ⊢
    obtain ⟨l, hl, htest⟩ := bind_eq_ok.1 htest
    obtain ⟨v, hv, htest⟩ := bind_eq_ok.1 htest
    cases htest
    exact ⟨hdefect, _, compile_comparison rfl hl hv, fun _ => rfl⟩
  | nullTest left =>
    rw [treeDefect?_comparison_eq_none_iff] at hdefect ⊢
    obtain ⟨l, hl, htest⟩ := bind_eq_ok.1 htest
    cases htest
    exact ⟨hdefect, _, compile_nullTest rfl hl, fun _ => rfl⟩
  | set left range values closed =>
    rw [treeDefect?_set_eq_none_iff, ← setDefect?_ofFlags
      true, ← treeDefect?_set_eq_none_iff] at hdefect
    refine ⟨hdefect, ?_⟩
    obtain ⟨l, hl, htest⟩ := bind_eq_ok.1 htest
    cases range with
    | false =>
      obtain ⟨candidates, hcandidates, htest⟩ := bind_eq_ok.1 htest
      cases htest
      refine ⟨_, bind_eq_ok.2 ⟨l, hl, bind_eq_ok.2 ⟨candidates, hcandidates, rfl⟩⟩, fun item => ?_⟩
      exact (Bool.bne_true _).trans (congrArg not (Bool.bne_false _).symm)
    | true =>
      rcases values with _ | ⟨low, _ | ⟨high, rest⟩⟩
      · cases htest
      · cases htest
      · obtain ⟨lo, hlow, htest⟩ := bind_eq_ok.1 htest
        obtain ⟨hi, hhigh, htest⟩ := bind_eq_ok.1 htest
        cases htest
        refine ⟨_, compile_range rfl hl hlow hhigh rest closed, fun item => ?_⟩
        exact (Bool.bne_true _).trans (congrArg not (Bool.bne_false _).symm)
  | @group c c' before after closed hchild ih =>
    generalize hchildren : before ++ c :: after = children at hlone
    cases hlone with
    | group _ hc =>
      cases before with
      | cons first before => exact absurd hchildren (by simp)
      | nil =>
        -- the child that differs is the only one
        cases hchildren
        obtain ⟨-, hclosed, hchildren⟩ := treeDefect?_group_eq_none_iff.1 hdefect
        obtain ⟨tests, htests, htest⟩ := bind_eq_ok.1 htest
        cases htest
        obtain ⟨first, hfirst, htests⟩ := bind_eq_ok.1 htests
        cases htests
        obtain ⟨hshape, test', htest', hall⟩ := ih hc (Option.or_eq_none_iff.1 hchildren).1 hfirst
        refine ⟨treeDefect?_group_eq_none_iff.2
          ⟨List.cons_ne_nil _ _, hclosed, Option.or_eq_none_iff.2 ⟨hshape, rfl⟩⟩, test',
          compile_group htest' closed, fun item => ?_⟩
        exact (hall item).trans (congrArg not (Bool.and_true _).symm)
  | left op right closed hleft ih => cases hlone
  | right op left closed hright ih => cases hlone

/-- **The opposite expression.** One comparison or set test with an inequality sign in the place of
its equality sign is read, and compiled, as the opposite. -/
theorem opposite {s s' : String} {c : Condition} (hsign : Token.Negated s s') (h : parse s = .ok c)
    (hlone : c.Lone) :
    (∃ c', parse s' = .ok c' ∧ c.Flips c') ∧
    ∀ folding p, Predicate.ofText r scope folding s = .ok p →
      ∃ p', Predicate.ofText r scope folding s' = .ok p' ∧ ∀ item, p'.test item = !p.test item := by
  obtain ⟨earlier, later, later', t, hkind, hts, hts', hcontent⟩ := hsign.tokenize_eq_ok
  have hc : ofTokens (earlier ++ t :: later) = .ok c := (parse_of_tokenize hts).symm.trans h
  have hkind' : (Token.operator .ne t.offset).kind = .operator .ne := rfl
  obtain ⟨c', hc', hflips⟩ := ofTokens_flips hkind hkind' (Token.unplaced_eq_of_content hcontent) hc
  have h' : parse s' = .ok c' := (parse_of_tokenize hts').trans hc'
  refine ⟨⟨c', h', hflips⟩, fun folding p hp => ?_⟩
  rw [Predicate.ofText, h] at hp
  obtain ⟨hdefect, htest⟩ := Predicate.compile_of_generate hp
  have hplain : c.compile r scope = .ok p.test := by
    cases folding with
    | false => exact htest
    | true => exact (compile_fold r scope c hdefect).symm.trans htest
  obtain ⟨hdefect', test', htest', hall⟩ := hflips.compile hlone hdefect hplain
  exact ⟨⟨Text.trim s', test'⟩, by
    rw [Predicate.ofText, h']; exact Predicate.generate_of_compile hdefect' htest', hall⟩

/-- **Conditions written out.** A set test agrees with the comparisons with its values, a range with
those with its ends, and the opposite range holds where it does not; a test for the absent value
agrees with a comparison with an operand that is absent. An expression of one comparison or set test
has the opposite of its verdict if its equality sign is made an inequality sign. -/
theorem expanded_spec (r : Resolver α) (scope : String) :
    (∀ name, (∃ l, (Operand.var name).compile r scope = .ok l) →
      (∀ first rest, (∀ o ∈ first :: rest, ∃ g, o.compile r scope = .ok g) →
        Agree r scope (.set (.var name) .member (first :: rest) true)
          (each (.var name) .eq .or first rest) ∧
        Agree r scope (.set (.var name) .notMember (first :: rest) true)
          (each (.var name) .ne .and first rest)) ∧
      (∀ low high rest, (∃ g, low.compile r scope = .ok g) → (∃ g, high.compile r scope = .ok g) →
        Agree r scope (.set (.var name) .inRange (low :: high :: rest) true)
          (.logical .and (some (.comparison (.var name) (some .ge) (some low)))
            (some (.comparison (.var name) (some .le) (some high))) true) ∧
        Opposed r scope (.set (.var name) .notInRange (low :: high :: rest) true)
          (.set (.var name) .inRange (low :: high :: rest) true)) ∧
      ∀ x g, x.compile r scope = .ok g →
        AgreeOn r scope (fun item => g item = .null) (.comparison (.var name) (some .isNull) none)
          (.comparison (.var name) (some .eq) (some x)) ∧
        AgreeOn r scope (fun item => g item = .null) (.comparison (.var name) (some .notNull) none)
          (.comparison (.var name) (some .ne) (some x))) ∧
    ∀ s s' c, Token.Negated s s' → parse s = .ok c → c.Lone →
      (∃ c', parse s' = .ok c' ∧ c.Flips c') ∧
      ∀ folding p, Predicate.ofText r scope folding s = .ok p →
        ∃ p', Predicate.ofText r scope folding s' = .ok p' ∧
          ∀ item, p'.test item = !p.test item := by
  refine ⟨?_, fun s s' c hsign h hlone => opposite hsign h hlone⟩
  rintro name ⟨l, hl⟩
  refine ⟨fun first rest hvalues => ⟨agree_set hl hvalues false, agree_set hl hvalues true⟩, ?_,
    fun x g hx => agree_nullTest hl hx⟩
  rintro low high rest ⟨lo, hlow⟩ ⟨hi, hhigh⟩
  exact ⟨agree_range hl hlow hhigh rest, opposed_range hl hlow hhigh rest⟩

/-- The tokens of `(x = {y, null})`. -/
def listed : List Token :=
  [.delimiter .openParen 0, .word "x" 1, .operator .eq 3, .delimiter .openBrace 5, .word "y" 6,
    .separator 7, .word "null" 9, .delimiter .closeBrace 13, .delimiter .closeParen 14]

theorem expanded_spec_listed :
    Agree (Resolver.dynamic "item") "" (.set (.var "x") .notMember [.var "y", .null] true)
      (.logical .and (some (.comparison (.var "x") (some .ne) (some (.var "y"))))
        (some (.comparison (.var "x") (some .ne) (some .null))) true) ∧
    Opposed (Resolver.dynamic "item") "" (.set (.var "x") .notInRange [.var "y", .null] true)
      (.set (.var "x") .inRange [.var "y", .null] true) ∧
    AgreeOn (Resolver.dynamic "item") "" (fun item => item.follow ["z"] = .null)
    (.comparison (.var "x") (some .isNull) none)
      (.comparison (.var "x") (some .eq) (some (.var "z"))) ∧
    ∃ p p', Predicate.ofText (Resolver.dynamic "item") "" true "(x = \x7by, null\x7d)" = .ok p ∧
      Predicate.ofText (Resolver.dynamic "item") "" true "(x != \x7by, null\x7d)" = .ok p' ∧
      ∀ item, p'.test item = !p.test item := by
  obtain ⟨htrees, htexts⟩ := expanded_spec (Resolver.dynamic "item") ""
  obtain ⟨hset, hrange, hnull⟩ := htrees "x" ⟨_, rfl⟩
  have hvalues : ∀ o ∈ [Operand.var "y", .null],
      ∃ g, o.compile (Resolver.dynamic "item") "" = .ok g := by
    simp only [List.forall_mem_cons]
    exact ⟨⟨_, rfl⟩, ⟨_, rfl⟩, nofun⟩
  have hscan : (Token.tokenize "(x = \x7by, null\x7d)").toOption = some listed := by decide +kernel
  have hsign : Token.Negated "(x = \x7by, null\x7d)" "(x != \x7by, null\x7d)" :=
    ⟨"(x ".toList, " \x7by, null\x7d)".toList, listed, .operator .eq 3, rfl, rfl,
      eq_ok_of_toOption hscan, by decide, rfl, rfl⟩
  have hparse : parse "(x = \x7by, null\x7d)" = .ok _ :=
    (parse_of_tokenize (eq_ok_of_toOption hscan)).trans rfl
  obtain ⟨p, hp⟩ :
      ∃ p, Predicate.ofText (Resolver.dynamic "item") "" true "(x = \x7by, null\x7d)" = .ok p :=
    exists_eq_ok (by decide +kernel)
  obtain ⟨p', hp', hopposite⟩ :=
    (htexts _ _ _ hsign hparse (.group true (.group true (.set ..)))).2 true p hp
  exact ⟨(hset (.var "y") [.null] hvalues).2, (hrange (.var "y") .null [] ⟨_, rfl⟩ ⟨_, rfl⟩).2,
    (hnull (.var "z") _ rfl).1, p, p', hp, hp', hopposite⟩

end GuardedFlow.Condition
