import Mathlib.Tactic.Common

/-! # Bit fields of a word

A register holds several numbers, each in a run of its bits that a mask selects. Firmware reads the
register, puts a new number into one field and writes it back.

* `insert` — a number put into the field of a mask.
* `and_ushiftRight` — a field is what is left when the mask is applied and moved down.
* `extract_insert`, `extract_insert_of_disjoint` — the field reads back, the others are unchanged. -/

namespace BitFields

variable {w : ℕ}

/-- The mask selects the `n` bits from `s` on. -/
def IsField (mask : BitVec w) (s n : ℕ) : Prop :=
  s + n ≤ w ∧ ∀ j < w, mask.getLsbD j = decide (s ≤ j ∧ j < s + n)

instance (mask : BitVec w) (s n : ℕ) : Decidable (IsField mask s n) :=
  inferInstanceAs (Decidable (_ ∧ _))

/-- The `n` bits of a word from `s` on. -/
def extract (x : BitVec w) (s n : ℕ) : BitVec n := x.extractLsb' s n

/-- A number put into the field of a mask that starts at bit `s`; what does not fit is dropped. -/
def insert (x v mask : BitVec w) (s : ℕ) : BitVec w := x &&& ~~~mask ||| v <<< s &&& mask

/-- A bit of a field is that of the value put in, and any other stays. -/
theorem getLsbD_insert (x v mask : BitVec w) (s : ℕ) {j : ℕ} (hj : j < w) :
    (insert x v mask s).getLsbD j
      = if mask.getLsbD j then decide (s ≤ j) && v.getLsbD (j - s) else x.getLsbD j := by
  unfold insert
  rw [BitVec.getLsbD_or, BitVec.getLsbD_and, BitVec.getLsbD_and, BitVec.getLsbD_not,
    BitVec.getLsbD_shiftLeft]
  cases mask.getLsbD j with
  | false => simp [hj]
  | true =>
    by_cases hs : s ≤ j
    · simp [hj, hs, Nat.not_lt.2 hs]
    · simp [hj, hs, Nat.lt_of_not_le hs]

variable {x v mask : BitVec w} {s n : ℕ}

/-- The field reads back, as many bits of the number as it has. -/
theorem extract_insert (hmask : IsField mask s n) :
    extract (insert x v mask s) s n = v.setWidth n := by
  apply BitVec.eq_of_getLsbD_eq
  intro i hi
  have hin : mask.getLsbD (s + i) = true := by
    rw [hmask.2 (s + i) (by have := hmask.1; omega)]
    exact decide_eq_true ⟨by omega, by omega⟩
  unfold extract
  rw [BitVec.getLsbD_extractLsb', getLsbD_insert _ _ _ _ (by have := hmask.1; omega), if_pos hin,
    BitVec.getLsbD_setWidth, Nat.add_sub_cancel_left, decide_eq_true (Nat.le_add_right s i),
    Bool.true_and]

/-- The bits outside the field do not change. -/
theorem insert_and_not : insert x v mask s &&& ~~~mask = x &&& ~~~mask := by
  apply BitVec.eq_of_getLsbD_eq
  intro j hj
  rw [BitVec.getLsbD_and, BitVec.getLsbD_and, getLsbD_insert _ _ _ _ hj, BitVec.getLsbD_not]
  cases mask.getLsbD j with
  | false => rfl
  | true => simp [hj]

/-- Another field does not change. -/
theorem extract_insert_of_disjoint {s' n' : ℕ} (hmask : IsField mask s n) (hfit : s' + n' ≤ w)
    (h : s' + n' ≤ s ∨ s + n ≤ s') : extract (insert x v mask s) s' n' = extract x s' n' := by
  apply BitVec.eq_of_getLsbD_eq
  intro i hi
  have hout : ¬ mask.getLsbD (s' + i) = true := by
    rw [hmask.2 (s' + i) (by omega), decide_eq_true_iff]
    omega
  unfold extract
  rw [BitVec.getLsbD_extractLsb', BitVec.getLsbD_extractLsb', getLsbD_insert _ _ _ _ (by omega),
    if_neg hout]

/-- The bits that a mask selects, moved down to bit 0. -/
theorem and_ushiftRight (hmask : IsField mask s n) : (x &&& mask) >>> s = (extract x s n).setWidth w := by
  apply BitVec.eq_of_getLsbD_eq
  intro i hi
  unfold extract
  rw [BitVec.getLsbD_ushiftRight, BitVec.getLsbD_and, BitVec.getLsbD_setWidth,
    BitVec.getLsbD_extractLsb', decide_eq_true hi, Bool.true_and]
  by_cases hlt : s + i < w
  · rw [hmask.2 _ hlt, Bool.and_comm]
    exact congrArg (· && x.getLsbD (s + i)) (decide_eq_decide.2 ⟨fun h => by omega, fun h => by omega⟩)
  · rw [BitVec.getLsbD_of_ge _ _ (Nat.not_lt.1 hlt), Bool.false_and, Bool.and_false]

/-- A field of one bit is a flag. -/
theorem and_ne_zero_iff {b : Bool} (hmask : IsField mask s 1) (h : extract x s 1 = BitVec.ofBool b) :
    x &&& mask ≠ 0 ↔ b = true := by
  have hbit : x.getLsbD s = b := by
    have h0 := congrArg (BitVec.getLsbD · 0) h
    simpa [extract] using h0
  have hand : ∀ j < w, (x &&& mask).getLsbD j = (decide (j = s) && b) := by
    intro j hj
    rw [BitVec.getLsbD_and, hmask.2 j hj]
    by_cases heq : j = s
    · subst heq
      simp [hbit]
    · rw [decide_eq_false (show ¬ (s ≤ j ∧ j < s + 1) by omega), decide_eq_false heq, Bool.and_false,
        Bool.false_and]
  have hs : s < w := by
    have := hmask.1
    omega
  constructor
  · intro hne
    by_contra hfalse
    refine hne (BitVec.eq_of_getLsbD_eq fun j hj => ?_)
    rw [hand j hj, Bool.eq_false_iff.2 hfalse, Bool.and_false]
    simp
  · rintro rfl hzero
    have h := hand s hs
    rw [hzero] at h
    simp at h

end BitFields
