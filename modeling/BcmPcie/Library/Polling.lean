import Mathlib.Data.Nat.Find
import Mathlib.Order.Basic
import Mathlib.Tactic.Common

/-! # Polling

A `do … while` loop that takes a sample in each round, what it counts, and a deadline on a clock that
wraps around. The rounds are numbered from 1 on.

* `Polling.poll` — the loop; `exists_poll_iff` — it ends behind the first round that does not want
  another one.
* `Polling.trailing` — how many of the last samples are good; `le_trailing_iff`.
* `Polling.mod_lt_mod_iff` — when a wrapping clock shows that a deadline is still to come. -/

namespace Polling

variable {σ : Type*}

/-! ## Loops -/

/-- The rounds behind round `n`, `fuel` of them at most: which round was the last one, and the state
behind it. -/
def poll (step : ℕ → σ → σ) (again : ℕ → σ → Bool) : (fuel n : ℕ) → σ → Option (ℕ × σ)
  | 0, _, _ => none
  | fuel + 1, n, s =>
    let s := step (n + 1) s
    if again (n + 1) s then poll step again fuel (n + 1) s else some (n + 1, s)

/-- The state behind round `n`. -/
def after (step : ℕ → σ → σ) (s : σ) : ℕ → σ
  | 0 => s
  | n + 1 => step (n + 1) (after step s n)

section Poll

variable {step : ℕ → σ → σ} {again : ℕ → σ → Bool} {s s' : σ}

/-- The loop ends with the first sample after which it is not to go on. -/
theorem poll_eq_some_iff {fuel k m : ℕ} :
    poll step again fuel k (after step s k) = some (m, s') ↔
      k < m ∧ m ≤ k + fuel ∧ s' = after step s m ∧
        (∀ n, k < n → n < m → again n (after step s n) = true) ∧
        again m (after step s m) = false := by
  induction fuel generalizing k with
  | zero =>
    refine ⟨fun h => (by cases h), fun h => ?_⟩
    omega
  | succ fuel ih =>
    have hnext : step (k + 1) (after step s k) = after step s (k + 1) := rfl
    rw [poll, hnext]
    cases hagain : again (k + 1) (after step s (k + 1)) with
    | true =>
      rw [if_pos rfl, ih]
      constructor
      · rintro ⟨hlt, hle, hstate, hbefore, hlast⟩
        refine ⟨by omega, by omega, hstate, fun n hn hnm => ?_, hlast⟩
        rcases Nat.eq_or_lt_of_le (Nat.succ_le_of_lt hn) with rfl | hn
        · exact hagain
        · exact hbefore n hn hnm
      · rintro ⟨hlt, hle, hstate, hbefore, hlast⟩
        -- this round is not the last one
        have hne : m ≠ k + 1 := by
          rintro rfl
          rw [hagain] at hlast
          cases hlast
        exact ⟨by omega, by omega, hstate, fun n hn hnm => hbefore n (by omega) hnm, hlast⟩
    | false =>
      rw [if_neg Bool.false_ne_true, Option.some_inj, Prod.mk.injEq]
      constructor
      · rintro ⟨rfl, rfl⟩
        exact ⟨Nat.lt_succ_self k, by omega, rfl, fun n hn hnm => by omega, hagain⟩
      · rintro ⟨hlt, -, rfl, hbefore, -⟩
        rcases Nat.eq_or_lt_of_le (Nat.succ_le_of_lt hlt) with rfl | hlt
        · exact ⟨rfl, rfl⟩
        · exact absurd (hbefore (k + 1) (Nat.lt_succ_self k) hlt) (by rw [hagain]; exact Bool.false_ne_true)

/-- **The loop ends** behind round `m` if and only if that is the first one that does not want
another. -/
theorem exists_poll_iff {m : ℕ} :
    (∃ fuel, poll step again fuel 0 s = some (m, s')) ↔
      0 < m ∧ s' = after step s m ∧ (∀ n, 0 < n → n < m → again n (after step s n) = true) ∧
        again m (after step s m) = false := by
  constructor
  · rintro ⟨fuel, h⟩
    obtain ⟨hpos, -, hrest⟩ := (@poll_eq_some_iff _ step again s s' fuel 0 m).1 h
    exact ⟨hpos, hrest⟩
  · rintro ⟨hpos, hrest⟩
    exact ⟨m, (@poll_eq_some_iff _ step again s s' m 0 m).2 ⟨hpos, (Nat.zero_add m).ge, hrest⟩⟩

end Poll

/-! ## Samples in a row -/

section Trailing

variable (good : ℕ → Bool)

/-- How many samples up to `n`, the last ones in a row, are good. -/
def trailing : ℕ → ℕ
  | 0 => 0
  | n + 1 => if good (n + 1) then trailing n + 1 else 0

/-- No more than all the samples are good in a row. -/
theorem trailing_le (n : ℕ) : trailing good n ≤ n := by
  induction n with
  | zero => exact le_rfl
  | succ n ih =>
    rw [trailing]
    split <;> omega

/-- **There are `k` in a row** if and only if each of the last `k` samples is good. -/
theorem le_trailing_iff {k n : ℕ} (hk : k ≤ n) :
    k ≤ trailing good n ↔ ∀ i, n - k < i → i ≤ n → good i = true := by
  induction n generalizing k with
  | zero => exact iff_of_true (by omega) fun i hi hle => by omega
  | succ n ih =>
    cases k with
    | zero => exact iff_of_true (Nat.zero_le _) fun i hi hle => by omega
    | succ k =>
      rw [trailing, Nat.add_sub_add_right]
      cases hgood : good (n + 1) with
      | true =>
        rw [if_pos rfl, Nat.add_le_add_iff_right, ih (by omega)]
        refine ⟨fun h i hi hle => ?_, fun h i hi hle => h i hi (by omega)⟩
        rcases Nat.eq_or_lt_of_le hle with rfl | hlt
        · exact hgood
        · exact h i hi (by omega)
      | false =>
        rw [if_neg Bool.false_ne_true]
        refine iff_of_false (by omega) fun h => ?_
        have hlast := h (n + 1) (by omega) le_rfl
        rw [hgood] at hlast
        cases hlast

end Trailing

/-! ## Deadlines -/

/-- **A clock that wraps around** shows less than a deadline that is still to come if and only if it does
not wrap around in between. -/
theorem mod_lt_mod_iff {m a d t : ℕ} (ha : a ≤ t) (ht : t < d) (hd : d < a + m) :
    t % m < d % m ↔ t / m = d / m := by
  have ht' := Nat.div_add_mod t m
  have hd' := Nat.div_add_mod d m
  have hle : t / m ≤ d / m := Nat.div_le_div_right ht.le
  constructor
  · intro hlt
    by_contra hne
    -- once around at least, and not much more
    have hmul : m * (t / m + 1) ≤ m * (d / m) := Nat.mul_le_mul_left m (by omega)
    rw [Nat.mul_add, Nat.mul_one] at hmul
    omega
  · intro heq
    rw [heq] at ht'
    omega

end Polling
