import Mathlib.Data.List.Sort
import Mathlib.Tactic.Common

/-! # Words as sets of bit numbers

A machine word holds a set of small numbers, one bit each. The operations firmware performs on such
a word are read back here as operations on the set: setting and clearing a list of bits, testing and
setting an aligned block, and walking the set bits from the lowest up by `ctz` and `x & (x - 1)`.

* `getLsbD_setAll`, `getLsbD_clearAll` — union and difference with a list of bits.
* `getLsbD_block` — an aligned block is an interval.
* `setBits_eq_cons` — the walk visits the set bits in increasing order. -/

namespace BitSet

variable {w : ℕ}

/-- The word with bit `i` alone. -/
def bit (w i : ℕ) : BitVec w := 1#w <<< i

/-- Of a single bit no other is set. -/
theorem getLsbD_bit (i j : ℕ) : (bit w i).getLsbD j = (decide (j < w) && decide (i = j)) := by
  rw [bit, ← BitVec.twoPow_eq, BitVec.getLsbD_twoPow]
  by_cases h : i = j
  · subst h; simp
  · simp [h]

/-! ## Lists of bits -/

/-- Set the bits of a list one by one. -/
def setAll (x : BitVec w) (l : List ℕ) : BitVec w := l.foldl (fun x i => x ||| bit w i) x

/-- Clear the bits of a list one by one. -/
def clearAll (x : BitVec w) (l : List ℕ) : BitVec w := l.foldl (fun x i => x &&& ~~~bit w i) x

@[simp] theorem setAll_nil (x : BitVec w) : setAll x [] = x := rfl

@[simp] theorem setAll_cons (x : BitVec w) (i : ℕ) (l : List ℕ) :
    setAll x (i :: l) = setAll (x ||| bit w i) l := rfl

@[simp] theorem clearAll_nil (x : BitVec w) : clearAll x [] = x := rfl

@[simp] theorem clearAll_cons (x : BitVec w) (i : ℕ) (l : List ℕ) :
    clearAll x (i :: l) = clearAll (x &&& ~~~bit w i) l := rfl

/-- Setting a list of bits is a union. -/
theorem getLsbD_setAll (x : BitVec w) (l : List ℕ) {j : ℕ} (hj : j < w) :
    (setAll x l).getLsbD j = (x.getLsbD j || decide (j ∈ l)) := by
  induction l generalizing x with
  | nil => simp
  | cons i l ih =>
    rw [setAll_cons, ih, BitVec.getLsbD_or, getLsbD_bit]
    by_cases h : i = j
    · simp [h, hj]
    · simp [h, Ne.symm h]

/-- Clearing a list of bits is a difference. -/
theorem getLsbD_clearAll (x : BitVec w) (l : List ℕ) {j : ℕ} (hj : j < w) :
    (clearAll x l).getLsbD j = (x.getLsbD j && !decide (j ∈ l)) := by
  induction l generalizing x with
  | nil => simp
  | cons i l ih =>
    rw [clearAll_cons, ih, BitVec.getLsbD_and, BitVec.getLsbD_not, getLsbD_bit]
    by_cases h : i = j
    · simp [h, hj]
    · simp [h, Ne.symm h, hj]

/-- Bits that were clear, set and cleared again, leave the word as it was. -/
theorem clearAll_setAll (x : BitVec w) (l : List ℕ) (h : ∀ i ∈ l, x.getLsbD i = false) :
    clearAll (setAll x l) l = x := by
  apply BitVec.eq_of_getLsbD_eq
  intro j hj
  rw [getLsbD_clearAll _ _ hj, getLsbD_setAll _ _ hj]
  by_cases hmem : j ∈ l
  · simp [hmem, h j hmem]
  · simp [hmem]

/-! ## Blocks -/

/-- The `n` bits from `base` on. -/
def block (w base n : ℕ) : BitVec w :=
  if w ≤ n then BitVec.allOnes w else ((1#w <<< n) - 1#w) <<< base

/-- A block that fits the word is an interval of bit numbers. -/
theorem getLsbD_block {base n : ℕ} (h : base + n ≤ w) (j : ℕ) :
    (block w base n).getLsbD j = (decide (base ≤ j) && decide (j < base + n)) := by
  unfold block
  split
  · have hbase : base = 0 := by omega
    have hn : n = w := by omega
    simp [hbase, hn]
  · rename_i hlt
    have hones : (1#w <<< n) - 1#w = BitVec.ofNat w (2 ^ n - 1) := by
      have hle : 1 ≤ 2 ^ n := Nat.one_le_two_pow
      have hpow : 2 ^ n < 2 ^ w := Nat.pow_lt_pow_right (by decide) (by omega)
      apply BitVec.eq_of_toNat_eq
      have h1 : 1 < 2 ^ w := Nat.one_lt_two_pow (by omega)
      rw [BitVec.toNat_sub_of_le]
      · simp [Nat.shiftLeft_eq, Nat.mod_eq_of_lt hpow, Nat.mod_eq_of_lt h1,
          Nat.mod_eq_of_lt (show 2 ^ n - 1 < 2 ^ w by omega)]
      · simp [BitVec.le_def, Nat.shiftLeft_eq, Nat.mod_eq_of_lt hpow, Nat.mod_eq_of_lt h1, hle]
    rw [hones, BitVec.getLsbD_shiftLeft, BitVec.getLsbD_ofNat, Nat.testBit_two_pow_sub_one,
      Bool.eq_iff_iff]
    simp only [Bool.and_eq_true, Bool.not_eq_true', decide_eq_true_eq, decide_eq_false_iff_not]
    omega

/-- A word and a mask share no bit. -/
theorem and_eq_zero_iff {x m : BitVec w} :
    x &&& m = 0#w ↔ ∀ j, m.getLsbD j = true → x.getLsbD j = false := by
  constructor
  · intro h j hm
    have hj := congrArg (BitVec.getLsbD · j) h
    simpa [hm] using hj
  · intro h
    apply BitVec.eq_of_getLsbD_eq
    intro j _
    rw [BitVec.getLsbD_and, BitVec.getLsbD_zero, Bool.and_eq_false_iff]
    cases hm : m.getLsbD j
    · exact Or.inr rfl
    · exact Or.inl (h j hm)

/-! ## Walking the set bits -/

/-- The set bits of a word, in increasing order. -/
def setBits (x : BitVec w) : List ℕ := (List.range w).filter x.getLsbD

@[simp] theorem mem_setBits {x : BitVec w} {i : ℕ} : i ∈ setBits x ↔ x.getLsbD i = true := by
  rw [setBits, List.mem_filter, List.mem_range]
  exact ⟨And.right, fun h => ⟨BitVec.lt_of_getLsbD h, h⟩⟩

/-- The bits that are set are listed from the lowest on. -/
theorem setBits_sorted (x : BitVec w) : (setBits x).Pairwise (· < ·) :=
  List.pairwise_lt_range.filter _

@[simp] theorem setBits_zero : setBits (0#w) = [] := by simp [setBits]

/-- `x & (x - 1)` clears the lowest set bit and no other, on natural numbers. -/
theorem testBit_and_sub_one {x k : ℕ} (hk : x.testBit k = true)
    (hlow : ∀ i < k, x.testBit i = false) (j : ℕ) :
    (x &&& (x - 1)).testBit j = (x.testBit j && decide (j ≠ k)) := by
  have hmod : x % 2 ^ (k + 1) = 2 ^ k := by
    apply Nat.eq_of_testBit_eq
    intro i
    rw [Nat.testBit_mod_two_pow, Nat.testBit_two_pow]
    by_cases hik : i = k
    · simp [hik, hk]
    · by_cases hlt : i < k
      · simp [hlow i hlt, Ne.symm hik]
      · simp [Ne.symm hik, show ¬ i < k + 1 by omega]
  have hpos : 1 ≤ 2 ^ k := Nat.one_le_two_pow
  have hlt : 2 ^ k < 2 ^ (k + 1) := Nat.pow_lt_pow_right (by decide) (by omega)
  obtain ⟨q, hx⟩ : ∃ q, x = 2 ^ (k + 1) * q + 2 ^ k :=
    ⟨x / 2 ^ (k + 1), by rw [← hmod, Nat.div_add_mod]⟩
  have hpred : x - 1 = 2 ^ (k + 1) * q + (2 ^ k - 1) := by omega
  rw [Nat.testBit_and, hpred, hx, Nat.testBit_two_pow_mul_add _ hlt,
    Nat.testBit_two_pow_mul_add _ (by omega : 2 ^ k - 1 < 2 ^ (k + 1))]
  by_cases hj : j < k + 1
  · rw [if_pos hj, if_pos hj, Nat.testBit_two_pow, Nat.testBit_two_pow_sub_one]
    by_cases hjk : j = k
    · simp [hjk]
    · simp [Ne.symm hjk]
  · rw [if_neg hj, if_neg hj]
    have hjk : j ≠ k := by omega
    simp [hjk]

/-- `x & (x - 1)` clears the lowest set bit and no other. -/
theorem getLsbD_and_sub_one {x : BitVec w} (hx : x ≠ 0#w) (j : ℕ) :
    (x &&& (x - 1#w)).getLsbD j = (x.getLsbD j && decide (j ≠ x.ctz.toNat)) := by
  have hone : 1#w ≤ x := by
    rw [BitVec.le_def, BitVec.toNat_ofNat]
    have : x.toNat ≠ 0 := fun h => hx (BitVec.eq_of_toNat_eq (by simpa using h))
    exact Nat.le_trans (Nat.mod_le _ _) (by omega)
  have hw : 0 < w := by
    rcases Nat.eq_zero_or_pos w with rfl | h
    · exact absurd (BitVec.eq_of_toNat_eq (by simp [BitVec.of_length_zero])) hx
    · exact h
  have hsub : (x - 1#w).toNat = x.toNat - 1 := by
    rw [BitVec.toNat_sub_of_le hone, BitVec.toNat_ofNat,
      Nat.mod_eq_of_lt (Nat.one_lt_two_pow (by omega))]
  rw [← BitVec.testBit_toNat, BitVec.toNat_and, hsub]
  exact testBit_and_sub_one (BitVec.getLsbD_true_ctz_of_ne_zero hx)
    (fun i hi => BitVec.getLsbD_false_of_lt_ctz hi) j

/-- The lowest set bit comes first, then those of `x & (x - 1)`. -/
theorem setBits_eq_cons {x : BitVec w} (hx : x ≠ 0#w) :
    setBits x = x.ctz.toNat :: setBits (x &&& (x - 1#w)) := by
  have hfirst : ∀ i ∈ setBits (x &&& (x - 1#w)), x.ctz.toNat < i := by
    intro i hi
    rw [mem_setBits, getLsbD_and_sub_one hx, Bool.and_eq_true, decide_eq_true_eq] at hi
    obtain ⟨hbit, hne⟩ := hi
    by_contra hle
    have hlow := BitVec.getLsbD_false_of_lt_ctz (x := x) (i := i) (by omega)
    exact absurd (hbit.symm.trans hlow) (by decide)
  refine (setBits_sorted x).eq_of_mem_iff
    (List.pairwise_cons.2 ⟨hfirst, setBits_sorted _⟩) fun i => ?_
  rw [List.mem_cons, mem_setBits, mem_setBits, getLsbD_and_sub_one hx, Bool.and_eq_true,
    decide_eq_true_eq]
  by_cases hi : i = x.ctz.toNat
  · simp [hi, BitVec.getLsbD_true_ctz_of_ne_zero hx]
  · simp [hi]

/-- Each step of the walk leaves fewer set bits. -/
theorem length_setBits_and_sub_one {x : BitVec w} (hx : x ≠ 0#w) :
    (setBits x).length = (setBits (x &&& (x - 1#w))).length + 1 := by
  rw [setBits_eq_cons hx, List.length_cons]

/-- There are no more of them than the width. -/
theorem length_setBits_le (x : BitVec w) : (setBits x).length ≤ w :=
  (List.length_filter_le _ _).trans (by simp)

@[simp] theorem setBits_bit {i : ℕ} (hi : i < w) : setBits (bit w i) = [i] := by
  refine (setBits_sorted _).eq_of_mem_iff (List.pairwise_singleton _ _) fun j => ?_
  rw [mem_setBits, getLsbD_bit, List.mem_singleton, Bool.and_eq_true, decide_eq_true_eq,
    decide_eq_true_eq]
  constructor
  · exact fun h => h.2.symm
  · rintro rfl
    exact ⟨hi, rfl⟩

end BitSet
