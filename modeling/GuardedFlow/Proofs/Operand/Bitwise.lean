import GuardedFlow.Operand.Apply
import GuardedFlow.Proofs.Number.Nearest
import Mathlib.Data.Int.Bitwise

/-!
# Bitwise operators act on whole numbers

The operators on words are the two's-complement operators on the integers that the words are read as
(`BinaryOp.toInt_applyWords`), and the word of a number is the integer that the number is, with one
exception: the guard lets `2 ^ 63` pass, for which there is no word, and it is read as the integer
below (`Number.toWord?_eq_some_iff`). `Number.bitwise_spec` says what follows for the operators on
numbers.
-/

namespace GuardedFlow

/-! ## Words -/

namespace Word

theorem eq_of_testBit_eq {a b : Int} (h : ∀ k, a.testBit k = b.testBit k) : a = b := by
  -- beyond the bits of both, a natural number goes on with zeros and a negative one with ones
  have hsign : ∀ m n : Nat, ¬ ∀ k, (Int.ofNat m).testBit k = (Int.negSucc n).testBit k :=
    fun m n hsame => by
    have hm : m.testBit (m + n) = false :=
      Nat.testBit_lt_two_pow (Nat.lt_of_le_of_lt (Nat.le_add_right m n) Nat.lt_two_pow_self)
    have hn : n.testBit (m + n) = false :=
      Nat.testBit_lt_two_pow (Nat.lt_of_le_of_lt (Nat.le_add_left n m) Nat.lt_two_pow_self)
    have hbit : m.testBit (m + n) = !n.testBit (m + n) := hsame (m + n)
    rw [hm, hn] at hbit
    cases hbit
  match a, b with
  | .ofNat m, .ofNat n => exact congrArg Int.ofNat (Nat.eq_of_testBit_eq h)
  | .ofNat m, .negSucc n => exact (hsign m n h).elim
  | .negSucc m, .ofNat n => exact (hsign n m fun k => (h k).symm).elim
  | .negSucc m, .negSucc n =>
    exact congrArg Int.negSucc (Nat.eq_of_testBit_eq fun k => Bool.not_inj (h k))

/-- A word that is read as a signed integer goes on with its sign. -/
theorem testBit_toInt (w : BitVec 64) (k : Nat) :
    w.toInt.testBit k = if k < 64 then w.getLsbD k else w.msb := by
  cases hsign : w.msb with
  | false =>
    have hvalue : w.toInt = Int.ofNat w.toNat := BitVec.toInt_eq_toNat_of_msb hsign
    rw [hvalue]
    show w.getLsbD k = _
    split
    · rfl
    · next hk => exact BitVec.getLsbD_of_ge w k (Nat.le_of_not_lt hk)
  | true =>
    have hvalue : w.toInt = Int.negSucc (~~~w).toNat := by
      have hlt := w.isLt
      rw [BitVec.toInt_eq_msb_cond, if_pos hsign, BitVec.toNat_not]
      omega
    rw [hvalue]
    show (!(~~~w).getLsbD k) = _
    split
    · next hk => rw [BitVec.getLsbD_not, decide_eq_true hk, Bool.true_and, Bool.not_not]
    · next hk => rw [BitVec.getLsbD_of_ge _ _ (Nat.le_of_not_lt hk), Bool.not_false]

theorem toInt_and (l r : BitVec 64) : (l &&& r).toInt = l.toInt.land r.toInt := by
  refine eq_of_testBit_eq fun k => ?_
  rw [Int.testBit_land]
  simp only [testBit_toInt, BitVec.getLsbD_and, BitVec.msb_and]
  split <;> rfl

theorem toInt_or (l r : BitVec 64) : (l ||| r).toInt = l.toInt.lor r.toInt := by
  refine eq_of_testBit_eq fun k => ?_
  rw [Int.testBit_lor]
  simp only [testBit_toInt, BitVec.getLsbD_or, BitVec.msb_or]
  split <;> rfl

theorem toInt_xor (l r : BitVec 64) : (l ^^^ r).toInt = l.toInt.xor r.toInt := by
  refine eq_of_testBit_eq fun k => ?_
  rw [Int.testBit_lxor]
  simp only [testBit_toInt, BitVec.getLsbD_xor, BitVec.msb_xor]
  split <;> rfl

theorem toInt_not (w : BitVec 64) : (~~~w).toInt = -w.toInt - 1 := by
  have hlt := w.isLt
  simp only [BitVec.toInt_eq_toNat_cond, BitVec.toNat_not]
  omega

theorem toInt_shiftLeft (w : BitVec 64) (n : Nat) :
    (w <<< n).toInt = (w.toInt * Nat.pow 2 n).bmod (Nat.pow 2 64) := by
  rw [BitVec.toInt_shiftLeft, Nat.shiftLeft_eq, BitVec.toInt_eq_toNat_bmod, Int.natCast_mul]
  exact Int.bmod_mul_bmod.symm

theorem toInt_sshiftRight (w : BitVec 64) (n : Nat) :
    (w.sshiftRight n).toInt = w.toInt / Nat.pow 2 n := by
  rw [BitVec.toInt_sshiftRight, Int.shiftRight_eq_div_pow]
  rfl

/-- A shift count is read the same with and without a sign. -/
theorem toNat_lt_iff (w : BitVec 64) : w.toNat < 64 ↔ 0 ≤ w.toInt ∧ w.toInt < 64 := by
  have hlt := w.isLt
  rw [BitVec.toInt_eq_toNat_cond]
  omega

theorem toNat_eq (w : BitVec 64) (h : w.toNat < 64) : w.toNat = w.toInt.toNat := by
  rw [BitVec.toInt_eq_toNat_cond]
  omega

end Word

/-! ## Whole numbers -/

namespace BinaryOp

/-- What a bitwise operator gives for two whole numbers: the bits of a negative one are those of its
two's complement, a shift count is below 64, what is shifted out of 64 bits is lost, and the right
shift keeps the sign. -/
def onIntegers? (op : BinaryOp) (a b : Int) : Option Int :=
  match op with
  | bitAnd => some (a.land b)
  | bitOr => some (a.lor b)
  | bitXor => some (a.xor b)
  | shl => if 0 ≤ b ∧ b < 64 then some ((a * Nat.pow 2 b.toNat).bmod (Nat.pow 2 64)) else none
  | shr => if 0 ≤ b ∧ b < 64 then some (a / Nat.pow 2 b.toNat) else none
  | _ => none

/-- The operators on words are those on whole numbers. -/
theorem toInt_applyWords (op : BinaryOp) (l r : BitVec 64) :
    (op.applyWords l r).map BitVec.toInt = op.onIntegers? l.toInt r.toInt := by
  cases op with
  | bitAnd => exact congrArg some (Word.toInt_and l r)
  | bitOr => exact congrArg some (Word.toInt_or l r)
  | bitXor => exact congrArg some (Word.toInt_xor l r)
  | shl =>
    simp only [applyWords, onIntegers?, ← Word.toNat_lt_iff]
    split
    · next h => rw [Option.map_some, Word.toInt_shiftLeft, Word.toNat_eq r h]
    · rfl
  | shr =>
    simp only [applyWords, onIntegers?, ← Word.toNat_lt_iff]
    split
    · next h => rw [Option.map_some, Word.toInt_sshiftRight, Word.toNat_eq r h]
    · rfl
  | _ => rfl

end BinaryOp

/-! ## Numbers -/

namespace Number

variable {x : Number} {a i j : Int} {w : BitVec 64}

/-- Whether a number is the given whole number. -/
def Is (x : Number) (i : Int) : Prop := x.isFinite = true ∧ x.units = i * unitsPerOne

/-- Whether a number is the given whole number and 64 bits hold it. -/
def Fits (x : Number) (i : Int) : Prop := x.Is i ∧ -Nat.pow 2 63 ≤ i ∧ i < Nat.pow 2 63

/-- Whether an operator reads a number as the given whole number. The least one that is too great
for 64 bits is read as the greatest one that is not. -/
def Read (x : Number) (i : Int) : Prop := x.Fits i ∨ x.Is (Nat.pow 2 63) ∧ i = Nat.pow 2 63 - 1

theorem is_iff : x.Is i ↔ x.toInt? = some i := by
  have hpos : (0 : Int) < unitsPerOne := Int.natCast_pos.2 (by decide +kernel)
  cases x with
  | finite negative e f =>
    rw [Is, toInt?]
    generalize (finite negative e f).units = u
    generalize (unitsPerOne : Int) = one at *
    constructor
    · rintro ⟨-, rfl⟩
      rw [if_pos (Int.mul_emod_left _ _), Int.mul_ediv_cancel _ (Int.ne_of_gt hpos)]
    · intro h
      split at h
      · next hmod =>
        obtain rfl := Option.some.inj h
        exact ⟨rfl, (Int.ediv_mul_cancel (Int.dvd_of_emod_eq_zero hmod)).symm⟩
      · cases h
  | _ =>
    constructor
    · rintro ⟨hfinite, -⟩
      cases hfinite
    · intro h
      cases h

theorem Is.unique (hi : x.Is i) (hj : x.Is j) : i = j :=
  Option.some.inj ((is_iff.1 hi).symm.trans (is_iff.1 hj))

theorem not_fits (h : x.Is (Nat.pow 2 63)) : ¬ x.Fits a := by
  rintro ⟨his, -, hlt⟩
  rw [his.unique h] at hlt
  exact Int.lt_irrefl _ hlt

theorem read_iff_fits (h : ¬ x.Is (Nat.pow 2 63)) : x.Read a ↔ x.Fits a :=
  ⟨fun hread => hread.resolve_right fun hbeyond => h hbeyond.1, .inl⟩

theorem toInt_ofInt (hlow : -Nat.pow 2 63 ≤ a) (hhigh : a < Nat.pow 2 63) :
    (BitVec.ofInt 64 a).toInt = a :=
  BitVec.toInt_ofInt_eq_self (by decide) hlow hhigh

theorem Read.bounds (h : x.Read a) : -Nat.pow 2 63 ≤ a ∧ a < Nat.pow 2 63 := by
  obtain ⟨-, hbounds⟩ | ⟨-, rfl⟩ := h
  · exact hbounds
  · decide

/-- What a number is read as is the whole number that it is, cut down to the greatest word. -/
theorem read_iff :
    x.Read a ↔ ∃ i, x.Is i ∧ i.natAbs ≤ Nat.pow 2 63 ∧ a = min i (Nat.pow 2 63 - 1) := by
  have hpos : 0 < Nat.pow 2 63 := Nat.two_pow_pos 63
  constructor
  · rintro (⟨his, hlow, hhigh⟩ | ⟨his, rfl⟩)
    · exact ⟨a, his, by omega, by omega⟩
    · exact ⟨_, his, by omega, by omega⟩
  · rintro ⟨i, his, hsize, rfl⟩
    rcases Int.lt_or_le i (Nat.pow 2 63) with hlt | hge
    · have hmin : min i (Nat.pow 2 63 - 1) = i := by omega
      exact .inl (hmin.symm ▸ ⟨his, by omega, hlt⟩)
    · obtain rfl : i = Nat.pow 2 63 := by omega
      exact .inr ⟨his, by omega⟩

/-- The word of a number is what the number is read as. -/
theorem toWord?_eq_some_iff : x.toWord? = some w ↔ x.Read w.toInt := by
  unfold toWord?
  constructor
  · intro h
    split at h
    · next i hi =>
      split at h
      · next hsize =>
        obtain rfl := Option.some.inj h
        have hread : x.Read (min i (Nat.pow 2 63 - 1)) := read_iff.2 ⟨i, is_iff.2 hi, hsize, rfl⟩
        rwa [toInt_ofInt hread.bounds.1 hread.bounds.2]
      · cases h
    · cases h
  · intro h
    obtain ⟨i, his, hsize, hcut⟩ := read_iff.1 h
    simp only [is_iff.1 his]
    rw [if_pos hsize, ← hcut, BitVec.ofInt_toInt]

/-- What a number is read as has a word. -/
theorem Read.exists_word (h : x.Read a) : ∃ w : BitVec 64, x.toWord? = some w ∧ w.toInt = a := by
  obtain ⟨hlow, hhigh⟩ := h.bounds
  have hvalue : (BitVec.ofInt 64 a).toInt = a := toInt_ofInt hlow hhigh
  exact ⟨_, toWord?_eq_some_iff.2 (hvalue.symm ▸ h), hvalue⟩

/-- The number of a word is the one that is nearest to the word's integer. -/
theorem nearest_iff_eq_ofWord {z : Number} (w : BitVec 64) : z.Nearest w.toInt ↔ z = ofWord w := by
  have hlow : -Nat.pow 2 63 ≤ w.toInt := BitVec.le_toInt w
  have hhigh : w.toInt < Nat.pow 2 63 := BitVec.toInt_lt
  have hpow : Nat.pow 2 63 ≤ Nat.pow 2 64 := by decide
  exact nearest_iff_eq_ofInt (by omega)

end Number

/-! ## Results -/

/-- A value is the one number that is nearest to a result, or absent where there is no result. -/
def Value.Rounds (v : Value) (result : Int → Prop) : Prop :=
  (∃ (c : Int) (z : Number), result c ∧ v = .number z ∧ ∀ x : Number, x.Nearest c ↔ x = z) ∨
    v = .null ∧ ∀ c, ¬ result c

theorem Value.rounds_ofWord (o : Option (BitVec 64)) :
    (Value.ofNumber? (o.map Number.ofWord)).Rounds fun c => o.map BitVec.toInt = some c := by
  cases o with
  | none => exact .inr ⟨rfl, fun c h => nomatch h⟩
  | some w =>
    exact .inl ⟨w.toInt, Number.ofWord w, rfl, rfl, fun _ => Number.nearest_iff_eq_ofWord w⟩

theorem Value.Rounds.congr {v : Value} {result other : Int → Prop} (h : v.Rounds result)
    (hsame : ∀ c, result c ↔ other c) :
    v.Rounds other := by
  obtain rfl : result = other := funext fun c => propext (hsame c)
  exact h

theorem Value.Rounds.ne_null {v : Value} {result : Int → Prop} {c : Int} (h : v.Rounds result)
    (hc : result c) : v ≠ .null := by
  rintro rfl
  obtain ⟨_, _, -, hvalue, -⟩ | ⟨-, hnone⟩ := h
  · cases hvalue
  · exact hnone c hc

/-- Where two accounts of a result agree except for what the second one does not cover, the second
one is right too just if there is no result for that. -/
theorem Value.Rounds.iff_of_covered {v : Value} {result other : Int → Prop} {beyond : Prop}
    (h : v.Rounds result) (hsame : ¬ beyond → ∀ c, result c ↔ other c)
    (hnone : beyond → ∀ c, ¬ other c) :
    v.Rounds other ↔ (beyond → ∀ c, ¬ result c) := by
  by_cases hbeyond : beyond
  · constructor
    · rintro (⟨c, z, hc, -⟩ | ⟨hv, -⟩) - c' hc'
      · exact hnone hbeyond c hc
      · exact h.ne_null hc' hv
    · intro hnot
      exact h.congr fun c => iff_of_false (hnot hbeyond c) (hnone hbeyond c)
  · exact ⟨fun _ hb => absurd hb hbeyond, fun _ => h.congr (hsame hbeyond)⟩

/-- The result of a bitwise operator on two numbers, each of them read as a whole number. -/
def BinaryOp.Result (op : BinaryOp) (reads : Number → Int → Prop) (x y : Number) (c : Int) : Prop :=
  ∃ a b, reads x a ∧ reads y b ∧ op.onIntegers? a b = some c

/-- The result of the complement of a number that is read as a whole number. -/
def UnaryOp.Result (reads : Number → Int → Prop) (x : Number) (c : Int) : Prop :=
  ∃ a, reads x a ∧ c = -a - 1

def BinaryOp.bitwise : List BinaryOp := [bitAnd, bitOr, bitXor, shl, shr]

theorem BinaryOp.apply_bitwise {op : BinaryOp} (hop : op ∈ bitwise) (x y : Number) :
    op.apply (.number x) (.number y) =
      Value.ofNumber? ((x.toWord?.bind fun l => y.toWord?.bind fun r =>
        op.applyWords l r).map Number.ofWord) := by
  have hwords : op.applyNumbers x y =
      (x.toWord?.bind fun l => y.toWord?.bind fun r => op.applyWords l r).map Number.ofWord := by
    simp only [bitwise, List.mem_cons, List.not_mem_nil, or_false] at hop
    rcases hop with rfl | rfl | rfl | rfl | rfl <;>
      unfold applyNumbers <;> cases x.toWord? <;> cases y.toWord? <;> rfl
  exact congrArg Value.ofNumber? hwords

theorem BinaryOp.rounds_apply {op : BinaryOp} (hop : op ∈ bitwise) (x y : Number) :
    (op.apply (.number x) (.number y)).Rounds (op.Result Number.Read x y) := by
  rw [apply_bitwise hop]
  refine (Value.rounds_ofWord _).congr fun c => ?_
  simp only [Option.map_eq_some_iff, Option.bind_eq_some_iff]
  constructor
  · rintro ⟨w, ⟨l, hl, r, hr, hw⟩, rfl⟩
    refine ⟨l.toInt, r.toInt, Number.toWord?_eq_some_iff.1 hl, Number.toWord?_eq_some_iff.1 hr, ?_⟩
    rw [← toInt_applyWords, hw, Option.map_some]
  · rintro ⟨a, b, ha, hb, hc⟩
    obtain ⟨l, hl, rfl⟩ := ha.exists_word
    obtain ⟨r, hr, rfl⟩ := hb.exists_word
    rw [← toInt_applyWords] at hc
    obtain ⟨w, hw, rfl⟩ := Option.map_eq_some_iff.1 hc
    exact ⟨w, ⟨l, hl, r, hr, hw⟩, rfl⟩

theorem UnaryOp.rounds_apply (x : Number) :
    (bitNot.apply (.number x)).Rounds (UnaryOp.Result Number.Read x) := by
  have happly : bitNot.apply (.number x) =
      Value.ofNumber? ((x.toWord?.map fun w => ~~~w).map Number.ofWord) := by
    rw [Option.map_map]
    rfl
  rw [happly]
  refine (Value.rounds_ofWord _).congr fun c => ?_
  rw [Option.map_map, Option.map_eq_some_iff]
  constructor
  · rintro ⟨w, hw, rfl⟩
    exact ⟨w.toInt, Number.toWord?_eq_some_iff.1 hw, Word.toInt_not w⟩
  · rintro ⟨a, ha, rfl⟩
    obtain ⟨w, hw, rfl⟩ := ha.exists_word
    exact ⟨w, hw, Word.toInt_not w⟩

/-- **Bitwise operators.** An operator on the bits of two numbers gives the number that is nearest
to its result on the whole numbers that they are read as, and nothing where one of them is not read
as a whole number or a shift count is out of range; the complement does so for one number. A number
that 64 bits hold is read as what it is. So what is given is right unless it is given for `2 ^
63`. -/
theorem Number.bitwise_spec (x y : Number) :
    (∀ op ∈ BinaryOp.bitwise,
      (op.apply (.number x) (.number y)).Rounds (op.Result Read x y) ∧
        ((op.apply (.number x) (.number y)).Rounds (op.Result Fits x y) ↔
          (x.Is (Nat.pow 2 63) ∨ y.Is (Nat.pow 2 63) → ∀ c, ¬ op.Result Read x y c))) ∧
      (UnaryOp.bitNot.apply (.number x)).Rounds (UnaryOp.Result Read x) ∧
      ((UnaryOp.bitNot.apply (.number x)).Rounds (UnaryOp.Result Fits x) ↔
        ¬ x.Is (Nat.pow 2 63)) := by
  refine ⟨fun op hop =>
    ⟨BinaryOp.rounds_apply hop x y, (BinaryOp.rounds_apply hop x y).iff_of_covered ?_ ?_⟩,
    UnaryOp.rounds_apply x, ?_⟩
  · intro h c
    have hx : ∀ a, x.Read a ↔ x.Fits a := fun a => read_iff_fits fun hx => h (.inl hx)
    have hy : ∀ b, y.Read b ↔ y.Fits b := fun b => read_iff_fits fun hy => h (.inr hy)
    simp only [BinaryOp.Result, hx, hy]
  · rintro (hx | hy) c ⟨a, b, ha, hb, -⟩
    · exact not_fits hx ha
    · exact not_fits hy hb
  · refine ((UnaryOp.rounds_apply x).iff_of_covered ?_ ?_).trans
      ⟨fun h hx => ?_, fun h hx => absurd hx h⟩
    · intro h c
      simp only [UnaryOp.Result, read_iff_fits h]
    · rintro hx c ⟨a, ha, -⟩
      exact not_fits hx ha
    · exact h hx _ ⟨_, .inr ⟨hx, rfl⟩, rfl⟩

/-- `2 ^ 63` is not refused but read as the number below it, also where that changes the last
bit. -/
theorem Number.bitwise_spec_beyond :
    let x := Number.ofInt (Nat.pow 2 63)
    let one := Number.ofInt 1
    x.Is (Nat.pow 2 63) ∧ BinaryOp.bitAnd.apply (.number x) (.number one) = .number one ∧
      ¬ (BinaryOp.bitAnd.apply (.number x) (.number one)).Rounds
        (BinaryOp.bitAnd.Result Fits x one) ∧
      ¬ (UnaryOp.bitNot.apply (.number x)).Rounds (UnaryOp.Result Fits x) := by
  intro x one
  obtain ⟨hbinary, -, hunary⟩ := bitwise_spec x one
  have hx : x.Is (Nat.pow 2 63) := is_iff.2 (by decide +kernel)
  have hone : one.Is 1 := is_iff.2 (by decide +kernel)
  have hvalue : BinaryOp.bitAnd.applyNumbers (ofInt (Nat.pow 2 63)) (ofInt 1) = some (ofInt 1) := by
    decide +kernel
  have happly : ∀ v w : Number, BinaryOp.bitAnd.apply (.number v) (.number w) =
      Value.ofNumber? (BinaryOp.bitAnd.applyNumbers v w) :=
    fun _ _ => rfl
  have hresult : BinaryOp.bitAnd.Result Read x one _ :=
    ⟨_, 1, .inr ⟨hx, rfl⟩, .inl ⟨hone, by decide, by decide⟩, rfl⟩
  refine ⟨hx, by rw [happly, hvalue, Value.ofNumber?], fun hrounds => ?_,
    fun hrounds => hunary.1 hrounds hx⟩
  exact (hbinary .bitAnd (List.mem_cons_self ..)).2.1 hrounds (.inl hx) _ hresult

end GuardedFlow
