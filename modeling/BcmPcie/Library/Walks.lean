import Mathlib.Data.Finset.Card
import Mathlib.Data.Nat.Find
import Mathlib.Tactic.Common

/-! # Walks

A walk goes from a position to the next one as long as there is one, and may come back to where it has
been. A search along it that gives up after some number of positions still finds what is there, if the
walk has no more positions than that.

* `Walks.chain` — the positions of a walk, one after the other.
* `Walks.search` — the search along a walk, for so many positions.
* `Walks.search_eq_some_iff`, `Walks.search_eq_none_iff` — what it finds. -/

namespace Walks

variable {α : Type*} {next : α → Option α} {start : Option α} {p : α → Bool} {a : α}

/-- The positions of a walk, from `start` on. -/
def chain (next : α → Option α) (start : Option α) : ℕ → Option α
  | 0 => start
  | k + 1 => (chain next start k).bind next

/-- The walk comes to `a`. -/
def OnChain (next : α → Option α) (start : Option α) (a : α) : Prop := ∃ k, chain next start k = some a

/-- `a` is the first position of the walk with `p`. -/
def FirstOnChain (next : α → Option α) (start : Option α) (p : α → Bool) (a : α) : Prop :=
  ∃ k, chain next start k = some a ∧ p a = true ∧
    ∀ j < k, ∀ b, chain next start j = some b → p b = false

/-- The first of `fuel` positions with `p`. -/
def search (next : α → Option α) (p : α → Bool) : (fuel : ℕ) → Option α → Option α
  | 0, _ => none
  | _ + 1, none => none
  | fuel + 1, some a => if p a then some a else search next p fuel (next a)

@[simp] theorem chain_zero : chain next start 0 = start := rfl

/-- The walk behind its first position. -/
theorem chain_succ (k : ℕ) : chain next start (k + 1) = chain next (start.bind next) k := by
  induction k with
  | zero => rfl
  | succ k ih =>
    show (chain next start (k + 1)).bind next = (chain next (start.bind next) k).bind next
    rw [ih]

/-- The chain after `i + k` steps is that of `k` steps from the one after `i`. -/
theorem chain_add (i k : ℕ) : chain next start (i + k) = chain next (chain next start i) k := by
  induction i generalizing start with
  | zero => rw [Nat.zero_add, chain_zero]
  | succ i ih => rw [Nat.add_right_comm, chain_succ, ih, chain_succ]

/-- A walk that comes back to where it has been goes round. -/
theorem chain_of_eq {i j k : ℕ} (hij : chain next start i = chain next start j) (hj : j ≤ k) :
    chain next start k = chain next start (i + (k - j)) := by
  rw [chain_add, hij, ← chain_add, Nat.add_sub_cancel' hj]

/-- What is first on a chain is on it. -/
theorem FirstOnChain.onChain (h : FirstOnChain next start p a) : OnChain next start a :=
  let ⟨k, hk, _⟩ := h
  ⟨k, hk⟩

/-- A walk that comes to a position with `p` comes to a first one. -/
theorem exists_firstOnChain (ha : OnChain next start a) (hp : p a = true) :
    ∃ b, FirstOnChain next start p b := by
  classical
  have hsome : ∃ k, ∃ b, chain next start k = some b ∧ p b = true := by
    obtain ⟨k, hk⟩ := ha
    exact ⟨k, a, hk, hp⟩
  obtain ⟨b, hb, hpb⟩ := Nat.find_spec hsome
  refine ⟨b, Nat.find hsome, hb, hpb, fun j hj c hc => ?_⟩
  have hnone := Nat.find_min hsome hj
  rw [← Bool.not_eq_true]
  exact fun hpc => hnone ⟨c, hc, hpc⟩

/-- There is only one first. -/
theorem FirstOnChain.unique {b : α} (ha : FirstOnChain next start p a)
    (hb : FirstOnChain next start p b) : a = b := by
  obtain ⟨i, hi, hpa, hbefore⟩ := ha
  obtain ⟨j, hj, hpb, hbefore'⟩ := hb
  rcases Nat.lt_trichotomy i j with hlt | rfl | hlt
  · exact absurd hpa (by rw [hbefore' i hlt a hi]; decide)
  · exact Option.some.inj (hi.symm.trans hj)
  · exact absurd hpb (by rw [hbefore j hlt b hj]; decide)

/-- The positions up to the first one with `p` are all different: a walk that had been at one of them
before would have come to the first one earlier. -/
theorem FirstOnChain.injOn {k : ℕ} (hk : chain next start k = some a) (hp : p a = true)
    (hbefore : ∀ j < k, ∀ b, chain next start j = some b → p b = false) :
    Set.InjOn (chain next start) (Set.Iic k) := by
  have hne : ∀ i j, i < j → j ≤ k → chain next start i ≠ chain next start j := by
    intro i j hij hjk heq
    have hearlier := chain_of_eq heq hjk
    rw [hk] at hearlier
    have hfalse := hbefore (i + (k - j)) (by omega) a hearlier.symm
    exact absurd hp (by rw [hfalse]; decide)
  intro i hi j hj heq
  rcases Nat.lt_trichotomy i j with hlt | rfl | hlt
  · exact absurd heq (hne i j hlt hj)
  · rfl
  · exact absurd heq.symm (hne j i hlt hi)

/-- Before a position of the walk there are positions only. -/
theorem chain_ne_none {k j : ℕ} (hk : chain next start k = some a) (hj : j ≤ k) :
    ∃ b, chain next start j = some b := by
  rw [← Option.ne_none_iff_exists']
  intro hnone
  have hend : ∀ i, chain next (none : Option α) i = none := by
    intro i
    induction i with
    | zero => rfl
    | succ i ih =>
      rw [chain_succ]
      exact ih
  rw [← Nat.add_sub_cancel' hj, chain_add, hnone, hend] at hk
  cases hk

/-- **The count.** The first position with `p` is among the first `n`, if the walk has no more than `n`
positions. -/
theorem FirstOnChain.lt_of_card {n k : ℕ}
    (hcard : ∀ s : Finset α, (∀ b ∈ s, OnChain next start b) → s.card ≤ n)
    (hk : chain next start k = some a) (hp : p a = true)
    (hbefore : ∀ j < k, ∀ b, chain next start j = some b → p b = false) : k < n := by
  classical
  have hinj := FirstOnChain.injOn hk hp hbefore
  let position : ℕ → α := fun j => (chain next start j).getD a
  have hposition : ∀ j ≤ k, chain next start j = some (position j) := by
    intro j hj
    obtain ⟨b, hb⟩ := chain_ne_none hk hj
    show _ = some ((chain next start j).getD a)
    rw [hb, Option.getD_some]
  have hle := hcard ((Finset.range (k + 1)).image position) ?_
  · rw [Finset.card_image_of_injOn, Finset.card_range] at hle
    · omega
    · intro i hi j hj heq
      have hi' : i ≤ k := Nat.lt_succ_iff.1 (Finset.mem_range.1 hi)
      have hj' : j ≤ k := Nat.lt_succ_iff.1 (Finset.mem_range.1 hj)
      exact hinj hi' hj' ((hposition i hi').trans ((congrArg some heq).trans (hposition j hj').symm))
  · intro b hb
    obtain ⟨j, hj, rfl⟩ := Finset.mem_image.1 hb
    exact ⟨j, hposition j (Nat.lt_succ_iff.1 (Finset.mem_range.1 hj))⟩

/-! ## The search -/

/-- The search returns the first that passes within its fuel. -/
theorem search_eq_some {fuel : ℕ} : search next p fuel start = some a ↔
    ∃ k < fuel, chain next start k = some a ∧ p a = true ∧
      ∀ j < k, ∀ b, chain next start j = some b → p b = false := by
  -- on the positions looked at: the first is the answer, or the walk goes on behind it
  induction fuel generalizing start with
  | zero => exact iff_of_false (fun h => by cases h) fun ⟨_, hk, _⟩ => absurd hk (Nat.not_lt_zero _)
  | succ fuel ih =>
    cases start with
    | none =>
      refine iff_of_false (fun h => by cases h) ?_
      rintro ⟨k, -, hk, -⟩
      obtain ⟨b, hb⟩ := chain_ne_none hk (Nat.zero_le k)
      cases hb
    | some b =>
      rw [search]
      by_cases hp : p b = true
      · rw [if_pos hp, Option.some.injEq]
        constructor
        · rintro rfl
          exact ⟨0, Nat.succ_pos _, rfl, hp, fun j hj => absurd hj (Nat.not_lt_zero j)⟩
        · rintro ⟨k, -, hk, -, hbefore⟩
          cases k with
          | zero => exact Option.some.inj hk
          | succ k => exact absurd hp (by rw [hbefore 0 (Nat.succ_pos k) b rfl]; decide)
      · rw [if_neg hp, ih]
        constructor
        · rintro ⟨k, hlt, hk, hpa, hbefore⟩
          refine ⟨k + 1, Nat.succ_lt_succ hlt, (chain_succ k).trans hk, hpa, fun j hj c hc => ?_⟩
          cases j with
          | zero =>
            obtain rfl := Option.some.inj hc
            exact Bool.eq_false_of_not_eq_true hp
          | succ j =>
            rw [chain_succ] at hc
            exact hbefore j (Nat.lt_of_succ_lt_succ hj) c hc
        · rintro ⟨k, hlt, hk, hpa, hbefore⟩
          cases k with
          | zero =>
            obtain rfl := Option.some.inj hk
            exact absurd hpa hp
          | succ k =>
            rw [chain_succ] at hk
            refine ⟨k, Nat.lt_of_succ_lt_succ hlt, hk, hpa, fun j hj c hc => ?_⟩
            exact hbefore (j + 1) (Nat.succ_lt_succ hj) c ((chain_succ j).trans hc)

/-- What a search finds is the first on the walk. -/
theorem firstOnChain_of_search {fuel : ℕ} (h : search next p fuel start = some a) :
    FirstOnChain next start p a := by
  obtain ⟨k, -, hk⟩ := search_eq_some.1 h
  exact ⟨k, hk⟩

section Card

variable {fuel : ℕ} (hcard : ∀ s : Finset α, (∀ b ∈ s, OnChain next start b) → s.card ≤ fuel)

include hcard

/-- **A search** along a walk with no more positions than it looks at finds the first one with `p`. -/
theorem search_eq_some_iff : search next p fuel start = some a ↔ FirstOnChain next start p a := by
  refine ⟨firstOnChain_of_search, ?_⟩
  rintro ⟨k, hk, hp, hbefore⟩
  exact search_eq_some.2 ⟨k, FirstOnChain.lt_of_card hcard hk hp hbefore, hk, hp, hbefore⟩

/-- The search returns none if and only if none passes. -/
theorem search_eq_none_iff :
    search next p fuel start = none ↔ ∀ a, OnChain next start a → p a = false := by
  constructor
  · intro hnone a ha
    rw [← Bool.not_eq_true]
    intro hp
    obtain ⟨b, hb⟩ := exists_firstOnChain ha hp
    rw [(search_eq_some_iff hcard).2 hb] at hnone
    cases hnone
  · intro hall
    rw [Option.eq_none_iff_forall_ne_some]
    intro a ha
    obtain ⟨k, hk, hp, -⟩ := firstOnChain_of_search ha
    exact absurd hp (by rw [hall a ⟨k, hk⟩]; decide)

end Card

end Walks
