import BcmPcie.Library.Runs
import Mathlib.Data.Finset.Card

/-! # Tasks over a shared state

Any number of tasks run one program each over a state they share. A task moves from one point of its
program to the next by a partial step on the shared state and its own point, chosen by an event; an
interleaving is a list of events, each with the task that takes it.

* `Config`, `step` — the tasks with their shared state, and one step of one of them.
* `Guarded` — a lock that is held by just the task in a critical section.
* `Counted` — a finite count of the tasks at points of a kind.
* `Guarded.acquire`, `Counted.add`, … — what a step of one task makes of these. -/

namespace Tasks

variable {τ γ π ε : Type*}

/-- A shared state, and the point each task is at. -/
structure Config (τ γ π : Type*) where
  shared : γ
  point : τ → π

section Points

variable [DecidableEq τ] {Q : π → Prop} {f : τ → π} {t : τ} {p : π}

/-- What holds of every task's point holds after one task moves to a point where it does. -/
theorem forall_update (h : ∀ u, u ≠ t → Q (f u)) (hp : Q p) : ∀ u, Q (Function.update f t p u) := by
  intro u
  by_cases hu : u = t
  · subst hu
    rwa [Function.update_self]
  · rw [Function.update_of_ne hu]
    exact h u hu

/-! ## Locks -/

/-- The lock is held by just the task whose point is in the critical section `Q`. -/
structure Guarded (held : Bool) (Q : π → Prop) (f : τ → π) : Prop where
  exclusive : ∀ t u, Q (f t) → Q (f u) → t = u
  held_iff : held = true ↔ ∃ t, Q (f t)

namespace Guarded

variable {held : Bool}

omit [DecidableEq τ] in
/-- With the lock free, no task is in the critical section. -/
theorem not_of_free (h : Guarded false Q f) (u : τ) : ¬ Q (f u) := fun hu =>
  absurd (h.held_iff.2 ⟨u, hu⟩) (by decide)

omit [DecidableEq τ] in
/-- While a task is in the critical section, no other is. -/
theorem not_of_ne (h : Guarded held Q f) (ht : Q (f t)) {u : τ} (hu : u ≠ t) : ¬ Q (f u) :=
  fun hq => hu (h.exclusive u t hq ht)

/-- A task that finds the lock free enters. -/
theorem acquire (h : Guarded false Q f) (hp : Q p) : Guarded true Q (Function.update f t p) := by
  have honly : ∀ u, Q (Function.update f t p u) → u = t := by
    intro u hu
    by_contra hne
    rw [Function.update_of_ne hne] at hu
    exact h.not_of_free u hu
  refine ⟨fun u v hu hv => (honly u hu).trans (honly v hv).symm, iff_of_true rfl ⟨t, ?_⟩⟩
  rwa [Function.update_self]

/-- The task that holds the lock leaves. -/
theorem release (h : Guarded held Q f) (ht : Q (f t)) (hp : ¬ Q p) :
    Guarded false Q (Function.update f t p) := by
  have hnone : ∀ u, ¬ Q (Function.update f t p u) := by
    intro u hu
    by_cases hne : u = t
    · subst hne
      rw [Function.update_self] at hu
      exact hp hu
    · rw [Function.update_of_ne hne] at hu
      exact h.not_of_ne ht hne hu
  refine ⟨fun u v hu => absurd hu (hnone u), iff_of_false (by decide) ?_⟩
  rintro ⟨u, hu⟩
  exact hnone u hu

/-- A task that moves within the critical section, or outside it, leaves the lock alone. -/
theorem keep (h : Guarded held Q f) (hp : Q p ↔ Q (f t)) :
    Guarded held Q (Function.update f t p) := by
  have hsame : ∀ u, Q (Function.update f t p u) ↔ Q (f u) := by
    intro u
    by_cases hu : u = t
    · subst hu
      rw [Function.update_self, hp]
    · rw [Function.update_of_ne hu]
  exact ⟨by simpa only [hsame] using h.exclusive, by simpa only [hsame] using h.held_iff⟩

end Guarded

/-! ## Counting -/

/-- There are `n` tasks whose point is a `Q`. -/
def Counted (Q : π → Prop) (f : τ → π) (n : ℕ) : Prop :=
  ∃ F : Finset τ, (∀ t, t ∈ F ↔ Q (f t)) ∧ F.card = n

namespace Counted

variable {n : ℕ}

omit [DecidableEq τ] in
/-- The counter is 0 if and only if no task is counted. -/
theorem eq_zero_iff (h : Counted Q f n) : n = 0 ↔ ∀ t, ¬ Q (f t) := by
  obtain ⟨F, hF, rfl⟩ := h
  rw [Finset.card_eq_zero, Finset.eq_empty_iff_forall_notMem]
  exact forall_congr' fun t => not_congr (hF t)

omit [DecidableEq τ] in
/-- With no task to count the counter is 0. -/
theorem zero (h : ∀ t, ¬ Q (f t)) : Counted Q f 0 :=
  ⟨∅, fun t => iff_of_false (Finset.notMem_empty t) (h t), rfl⟩

omit [DecidableEq τ] in
/-- With a task to count it is not. -/
theorem pos (h : Counted Q f n) (ht : Q (f t)) : 0 < n := by
  by_contra hn
  exact h.eq_zero_iff.1 (by omega) t ht

/-- A task that moves between points that are both a `Q` or both not leaves the count alone. -/
theorem keep (h : Counted Q f n) (hp : Q p ↔ Q (f t)) : Counted Q (Function.update f t p) n := by
  obtain ⟨F, hF, rfl⟩ := h
  refine ⟨F, fun u => ?_, rfl⟩
  by_cases hu : u = t
  · subst hu
    rw [Function.update_self, hp]
    exact hF u
  · rw [Function.update_of_ne hu]
    exact hF u

/-- A task that moves to a `Q` is one more. -/
theorem add (h : Counted Q f n) (ht : ¬ Q (f t)) (hp : Q p) :
    Counted Q (Function.update f t p) (n + 1) := by
  obtain ⟨F, hF, rfl⟩ := h
  refine ⟨insert t F, fun u => ?_, Finset.card_insert_of_notMem fun hin => ht ((hF t).1 hin)⟩
  rw [Finset.mem_insert]
  by_cases hu : u = t
  · subst hu
    rw [Function.update_self]
    exact iff_of_true (Or.inl rfl) hp
  · rw [Function.update_of_ne hu, or_iff_right hu]
    exact hF u

/-- A task that moves away from a `Q` is one less. -/
theorem sub (h : Counted Q f n) (ht : Q (f t)) (hp : ¬ Q p) :
    Counted Q (Function.update f t p) (n - 1) := by
  obtain ⟨F, hF, rfl⟩ := h
  refine ⟨F.erase t, fun u => ?_, Finset.card_erase_of_mem ((hF t).2 ht)⟩
  rw [Finset.mem_erase]
  by_cases hu : u = t
  · subst hu
    rw [Function.update_self]
    exact iff_of_false (fun h => h.1 rfl) hp
  · rw [Function.update_of_ne hu, and_iff_right hu]
    exact hF u

end Counted

end Points

/-! ## Steps -/

variable [DecidableEq τ]

/-- A task takes an event, if its program can at the point it is at. -/
def step (program : γ → π → ε → Option (γ × π)) (s : Config τ γ π) (e : τ × ε) :
    Option (Config τ γ π) :=
  (program s.shared (s.point e.1) e.2).map fun r => ⟨r.1, Function.update s.point e.1 r.2⟩

/-- A step of the configuration is one of the task's program. -/
theorem step_eq_some {program : γ → π → ε → Option (γ × π)} {s s' : Config τ γ π} {t : τ} {e : ε} :
    step program s (t, e) = some s' ↔ ∃ g p, program s.shared (s.point t) e = some (g, p) ∧
      s' = ⟨g, Function.update s.point t p⟩ := by
  unfold step
  rw [Option.map_eq_some_iff]
  constructor
  · rintro ⟨⟨g, p⟩, h, rfl⟩
    exact ⟨g, p, h, rfl⟩
  · rintro ⟨g, p, h, rfl⟩
    exact ⟨(g, p), h, rfl⟩

end Tasks
