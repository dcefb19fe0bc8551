import Mathlib.Data.List.Perm.Basic
import Mathlib.Tactic.Common

/-! # Resource ledgers

What a program holds of the resources it has acquired and not given back, and whether its next
requests will be met. A request that is not met acquires nothing.

* `Ledger.acquire`, `Ledger.release` — the two operations.
* `Ledger.held_release_acquire` — what is acquired and given back is not held. -/

/-- A program's account of the resources in `ρ`. -/
structure Ledger (ρ : Type*) where
  /-- Whether each of the next requests is met; once the list is used up, all are. -/
  answers : List Bool := []
  /-- What is held, the latest first. -/
  held : List ρ := []
  deriving Repr

namespace Ledger

variable {ρ : Type*}

/-- Whether the next request is met. -/
def available (l : Ledger ρ) : Bool := l.answers.headD true

/-- A request for `r`: whether it is met, and the account after it. -/
def acquire (l : Ledger ρ) (r : ρ) : Bool × Ledger ρ :=
  (l.available, ⟨l.answers.tail, if l.available then r :: l.held else l.held⟩)

/-- `r` is acquired, on an answer that is not the account's. -/
def hold (l : Ledger ρ) (r : ρ) : Ledger ρ := { l with held := r :: l.held }

/-- `r` is given back. -/
def release [DecidableEq ρ] (l : Ledger ρ) (r : ρ) : Ledger ρ := { l with held := l.held.erase r }

/-- Whether request `k` from here on is met. -/
def met (l : Ledger ρ) (k : ℕ) : Bool := l.answers.getD k true

@[simp] theorem acquire_fst (l : Ledger ρ) (r : ρ) : (l.acquire r).1 = l.available := rfl

@[simp] theorem release_answers [DecidableEq ρ] (l : Ledger ρ) (r : ρ) :
    (l.release r).answers = l.answers := rfl

/-- The next request is met or not. -/
theorem available_eq_met (l : Ledger ρ) : l.available = l.met 0 := by
  unfold available met
  cases l.answers <;> rfl

@[simp] theorem met_acquire (l : Ledger ρ) (r : ρ) (k : ℕ) : (l.acquire r).2.met k = l.met (k + 1) := by
  unfold met acquire
  cases l.answers <;> rfl

@[simp] theorem met_hold (l : Ledger ρ) (r : ρ) (k : ℕ) : (l.hold r).met k = l.met k := rfl

/-- A request that is met is held. -/
theorem held_acquire_of_available {l : Ledger ρ} (h : l.available = true) (r : ρ) :
    (l.acquire r).2.held = r :: l.held := by
  simp only [acquire, if_pos h]

/-- A request that is not met leaves what is held. -/
theorem held_acquire_of_not_available {l : Ledger ρ} (h : l.available = false) (r : ρ) :
    (l.acquire r).2.held = l.held := by
  simp only [acquire, h, Bool.false_eq_true, if_false]

/-- What is acquired and given back is not held. -/
theorem held_release_acquire [DecidableEq ρ] {l : Ledger ρ} (h : l.available = true) (r : ρ) :
    ((l.acquire r).2.release r).held = l.held := by
  simp only [release, held_acquire_of_available h, List.erase_cons_head]

section Perm

variable {l : Ledger ρ} {r : ρ} {rest : List ρ}

/-- A request that is met adds one to what is held, in any order. -/
theorem perm_acquire (h : l.available = true) (hheld : l.held.Perm rest) :
    (l.acquire r).2.held.Perm (r :: rest) := by
  rw [held_acquire_of_available h]
  exact hheld.cons r

/-- What is held is given back, whenever it was acquired. -/
theorem perm_release [DecidableEq ρ] (h : l.held.Perm (r :: rest)) :
    (l.release r).held.Perm rest := by
  have herase := h.erase r
  rwa [List.erase_cons_head] at herase

end Perm

end Ledger
