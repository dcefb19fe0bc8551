import Mathlib.Data.List.ReduceOption
import Mathlib.Tactic.Common

/-! # Labelled systems and simulations

A system says which steps a state has, each with the label that an observer sees of it; what is seen of
a path is the list of its labels. One system implements another if whatever is seen of the first could
be seen of the second.

* `Path`, `Path.labels`, `Path.history` — the paths of a system, and what holds of their labels.
* `Since` — what is still so, by the labels so far.
* `Simulation` — every step of one system is matched by a step of another.
* `Simulation.path` — and then every path is.
* `Simulation.of_abstraction` — the simulation that a function of the state and an invariant make.
* `stutters`, `Path.of_stutters` — a system whose steps need not be seen. -/

namespace Simulations

variable {σ τ ℓ : Type*}

/-- The steps that a state has. -/
abbrev System (σ ℓ : Type*) := σ → ℓ → σ → Prop

/-- The paths of a system, with what is seen of them. -/
inductive Path (A : System σ ℓ) : σ → List ℓ → σ → Prop
  | nil (s : σ) : Path A s [] s
  | cons {s t u : σ} {l : ℓ} {ls : List ℓ} (hstep : A s l t) (hrest : Path A t ls u) :
      Path A s (l :: ls) u

namespace Path

variable {A : System σ ℓ} {s t : σ} {ls ls' : List ℓ}

/-- What every step with a label of some kind keeps, and what the labels say while it holds. -/
theorem labels {I : σ → Prop} {P Q : ℓ → Prop} (hstep : ∀ {s l t}, A s l t → I s → P l → I t ∧ Q l)
    (h : Path A s ls t) (hs : I s) (hls : ∀ l ∈ ls, P l) : I t ∧ ∀ l ∈ ls, Q l := by
  induction h with
  | nil => exact ⟨hs, fun _ hl => absurd hl List.not_mem_nil⟩
  | cons hfirst _ ih =>
    obtain ⟨ht, hl⟩ := hstep hfirst hs (hls _ List.mem_cons_self)
    obtain ⟨hu, hrest⟩ := ih ht fun l hmem => hls l (List.mem_cons_of_mem _ hmem)
    exact ⟨hu, List.forall_mem_cons.2 ⟨hl, hrest⟩⟩

/-- A path has a state between any two of its labels. -/
theorem of_append (h : Path A s (ls ++ ls') t) : ∃ u, Path A s ls u ∧ Path A u ls' t := by
  induction ls generalizing s with
  | nil => exact ⟨s, .nil s, h⟩
  | cons l ls ih =>
    obtain _ | ⟨hfirst, hrest⟩ := h
    obtain ⟨u, hu, hu'⟩ := ih hrest
    exact ⟨u, .cons hfirst hu, hu'⟩

/-- What every step keeps, of the labels so far and the state they lead to. -/
theorem history {I : List ℓ → σ → Prop} (hstep : ∀ {h s l t}, I h s → A s l t → I (h ++ [l]) t)
    (hpath : Path A s ls t) {h : List ℓ} (hs : I h s) : I (h ++ ls) t := by
  induction hpath generalizing h with
  | nil => rwa [List.append_nil]
  | @cons s t u l ls hfirst _ ih =>
    rw [← List.singleton_append, ← List.append_assoc]
    exact ih (hstep hs hfirst)

end Path

/-- There has been a label of some kind, and only labels of another kind since. -/
def Since (P Q : ℓ → Prop) (h : List ℓ) : Prop :=
  ∃ before l after, h = before ++ l :: after ∧ P l ∧ ∀ m ∈ after, Q m

/-- Before the first label nothing has happened. -/
theorem not_since_nil (P Q : ℓ → Prop) : ¬ Since P Q [] := by
  rintro ⟨before, l, after, h, -⟩
  exact List.append_ne_nil_of_right_ne_nil before (List.cons_ne_nil l after) h.symm

/-- It has happened with the last label, or it had before and that did not end it. -/
theorem since_concat {P Q : ℓ → Prop} {h : List ℓ} {l : ℓ} :
    Since P Q (h ++ [l]) ↔ P l ∨ Since P Q h ∧ Q l := by
  constructor
  · rintro ⟨before, m, after, heq, hm, hafter⟩
    -- the label is the last one, or before it
    rcases List.eq_nil_or_concat after with rfl | ⟨after, last, rfl⟩
    · obtain ⟨-, hlast⟩ := List.append_inj' heq rfl
      exact Or.inl (List.singleton_inj.1 hlast ▸ hm)
    · rw [List.concat_eq_append, ← List.cons_append, ← List.append_assoc] at heq
      obtain ⟨rfl, hlast⟩ := List.append_inj' heq rfl
      rw [List.singleton_inj.1 hlast]
      rw [List.concat_eq_append] at hafter
      exact Or.inr ⟨⟨before, m, after, rfl, hm, fun k hk => hafter k (List.mem_append_left _ hk)⟩,
        hafter last (List.mem_append_right _ List.mem_cons_self)⟩
  · rintro (hl | ⟨⟨before, m, after, rfl, hm, hafter⟩, hl⟩)
    · exact ⟨h, l, [], rfl, hl, fun _ hk => absurd hk List.not_mem_nil⟩
    · refine ⟨before, m, after ++ [l], by rw [List.append_assoc, List.cons_append], hm, fun k hk => ?_⟩
      rcases List.mem_append.1 hk with hk | hk
      · exact hafter k hk
      · exact List.mem_singleton.1 hk ▸ hl

/-- Every step of `A` from a related state is matched by one of `B` that looks the same. -/
def Simulation (A : System σ ℓ) (B : System τ ℓ) (R : σ → τ → Prop) : Prop :=
  ∀ s t l s', R s t → A s l s' → ∃ t', B t l t' ∧ R s' t'

namespace Simulation

variable {A : System σ ℓ} {B : System τ ℓ} {R : σ → τ → Prop}

/-- **Paths are matched**, step by step. -/
theorem path (h : Simulation A B R) {s s' : σ} {t : τ} {ls : List ℓ} (hpath : Path A s ls s')
    (hR : R s t) : ∃ t', Path B t ls t' ∧ R s' t' := by
  induction hpath generalizing t with
  | nil => exact ⟨t, .nil t, hR⟩
  | cons hstep _ ih =>
    obtain ⟨u, hu, hRu⟩ := h _ _ _ _ hR hstep
    obtain ⟨t', hpath', hRt⟩ := ih hRu
    exact ⟨t', .cons hu hpath', hRt⟩

/-- A function of the state that turns steps into steps, wherever an invariant holds. -/
theorem of_abstraction {I : σ → Prop} {f : σ → τ}
    (hstep : ∀ s l s', I s → A s l s' → I s' ∧ B (f s) l (f s')) :
    Simulation A B fun s t => I s ∧ t = f s := by
  rintro s t l s' ⟨hI, rfl⟩ ha
  obtain ⟨hI', hb⟩ := hstep s l s' hI ha
  exact ⟨f s', hb, hI', rfl⟩

end Simulation

/-! ## Steps that are not seen -/

/-- The system with silent steps added, which do nothing. -/
def stutters (B : System τ ℓ) : System τ (Option ℓ)
  | t, none, t' => t' = t
  | t, some l, t' => B t l t'

/-- Without the silent steps, a path of a system is what it was. -/
theorem Path.of_stutters {B : System τ ℓ} {t t' : τ} {ls : List (Option ℓ)}
    (h : Path (stutters B) t ls t') : Path B t ls.reduceOption t' := by
  induction h with
  | nil t => exact .nil t
  | @cons s t u l ls hstep _ ih =>
    cases l with
    | none =>
      obtain rfl : t = s := hstep
      rwa [List.reduceOption_cons_of_none]
    | some l =>
      rw [List.reduceOption_cons_of_some]
      exact .cons hstep ih

end Simulations
