import Mathlib.Data.Nat.Notation
import Mathlib.Order.Defs.Unbundled
import Mathlib.Tactic.Common

/-! # Computations with state and errors

How a computation in `EStateM` that has succeeded came about: its parts have succeeded, one after the
other. A loop over an initial segment of the numbers is taken apart at its last round.

* `Computations.bind_eq_ok` — a sequence of two.
* `Computations.foldlM_range_invariant` — a loop over `0, …, n - 1`.
* `Computations.onError`, `Computations.zoom` — what is undone after an error, a part of the state.
* `Computations.Relates` — what a computation does to the state, whether it succeeds or fails. -/

universe u

namespace Computations

variable {ε σ α β : Type u}

/-- A sequence of two computations succeeds when both do. -/
theorem bind_eq_ok {x : EStateM ε σ α} {f : α → EStateM ε σ β} {s s' : σ} {b : β} :
    (x >>= f) s = .ok b s' ↔ ∃ a s₁, x s = .ok a s₁ ∧ f a s₁ = .ok b s' := by
  show EStateM.bind x f s = _ ↔ _
  unfold EStateM.bind
  cases hx : x s with
  | ok a s₁ => simp
  | error e s₁ => simp

/-- A sequence of two computations fails when the first does, or the second behind it. -/
theorem bind_eq_error {x : EStateM ε σ α} {f : α → EStateM ε σ β} {s s' : σ} {e : ε} :
    (x >>= f) s = .error e s' ↔
      x s = .error e s' ∨ ∃ a s₁, x s = .ok a s₁ ∧ f a s₁ = .error e s' := by
  show EStateM.bind x f s = _ ↔ _
  unfold EStateM.bind
  cases hx : x s with
  | ok a s₁ => simp
  | error e' s₁ => simp

@[simp] theorem pure_eq_ok {a b : α} {s s' : σ} :
    (pure a : EStateM ε σ α) s = .ok b s' ↔ a = b ∧ s = s' := by
  show EStateM.Result.ok a s = .ok b s' ↔ _
  rw [EStateM.Result.ok.injEq]

@[simp] theorem get_eq_ok {s s' t : σ} :
    (get : EStateM ε σ σ) s = .ok t s' ↔ t = s ∧ s' = s := by
  show EStateM.Result.ok s s = .ok t s' ↔ _
  rw [EStateM.Result.ok.injEq, eq_comm, @eq_comm _ s]

@[simp] theorem modify_eq_ok {f : σ → σ} {s s' : σ} {u : PUnit} :
    (modify f : EStateM ε σ PUnit) s = .ok u s' ↔ s' = f s := by
  show EStateM.Result.ok PUnit.unit (f s) = .ok u s' ↔ _
  rw [EStateM.Result.ok.injEq]
  exact ⟨fun h => h.2.symm, fun h => ⟨rfl, h.symm⟩⟩

@[simp] theorem throw_ne_ok {e : ε} {s s' : σ} {a : α} :
    (throw e : EStateM ε σ α) s ≠ .ok a s' := by
  intro h
  cases h

/-- A loop over `0, …, n - 1` keeps an invariant of the round, the value and the state that each
successful round keeps. -/
theorem foldlM_range_invariant {f : β → ℕ → EStateM ε σ β} {P : ℕ → β → σ → Prop} {n : ℕ}
    (hstep : ∀ i < n, ∀ b s b' s', P i b s → f b i s = .ok b' s' → P (i + 1) b' s') {b b' : β}
    {s s' : σ} (h0 : P 0 b s) (h : (List.range n).foldlM f b s = .ok b' s') : P n b' s' := by
  induction n generalizing b' s' with
  | zero =>
    obtain ⟨rfl, rfl⟩ := pure_eq_ok.1 h
    exact h0
  | succ n ih =>
    rw [List.range_succ, List.foldlM_append] at h
    obtain ⟨b₁, s₁, h₁, h₂⟩ := bind_eq_ok.1 h
    rw [List.foldlM_cons] at h₂
    obtain ⟨b₂, s₂, hround, hend⟩ := bind_eq_ok.1 h₂
    obtain ⟨rfl, rfl⟩ := pure_eq_ok.1 hend
    exact hstep n (Nat.lt_succ_self n) _ _ _ _
      (ih (fun i hi => hstep i (Nat.lt_succ_of_lt hi)) h₁) hround

/-! ## Where a computation ends -/

/-- The state a computation ends in, whether it succeeds or fails. -/
def final (x : EStateM ε σ α) (s : σ) : σ :=
  match x s with
  | .ok _ s' => s'
  | .error _ s' => s'

/-- A computation that succeeds ends in the state it returns. -/
theorem final_of_ok {x : EStateM ε σ α} {s s' : σ} {a : α} (h : x s = .ok a s') : final x s = s' := by
  unfold final
  rw [h]

/-- A computation that fails ends in the state it fails in. -/
theorem final_of_error {x : EStateM ε σ α} {s s' : σ} {e : ε} (h : x s = .error e s') :
    final x s = s' := by
  unfold final
  rw [h]

/-- A sequence goes on in the state the first computation has left. -/
theorem bind_of_ok {x : EStateM ε σ α} {f : α → EStateM ε σ β} {s s' : σ} {a : α}
    (h : x s = .ok a s') : (x >>= f) s = f a s' := by
  show EStateM.bind x f s = _
  unfold EStateM.bind
  rw [h]

/-- After a first part that succeeds the end is that of the rest. -/
theorem final_bind_of_ok {x : EStateM ε σ α} {f : α → EStateM ε σ β} {s s' : σ} {a : α}
    (h : x s = .ok a s') : final (x >>= f) s = final (f a) s' := by
  unfold final
  rw [bind_of_ok h]

/-- A sequence ends where the first computation fails. -/
theorem final_bind_of_error {x : EStateM ε σ α} {f : α → EStateM ε σ β} {s s' : σ} {e : ε}
    (h : x s = .error e s') : final (x >>= f) s = s' :=
  final_of_error (bind_eq_error.2 (Or.inl h))

/-- A handler takes over in the state the computation has failed in. -/
theorem tryCatch_of_error {x : EStateM ε σ α} {f : ε → EStateM ε σ α} {s s' : σ} {e : ε}
    (h : x s = .error e s') : (tryCatch x f) s = f e s' := by
  show EStateM.tryCatch x f s = _
  unfold EStateM.tryCatch
  rw [h]
  rfl

/-- Nothing is caught where nothing fails. -/
theorem tryCatch_of_ok {x : EStateM ε σ α} {f : ε → EStateM ε σ α} {s s' : σ} {a : α}
    (h : x s = .ok a s') : (tryCatch x f) s = .ok a s' := by
  show EStateM.tryCatch x f s = _
  unfold EStateM.tryCatch
  rw [h]

/-- Where a computation fails, what it has set up is undone; the error stays. -/
def onError (undo : σ → σ) (x : EStateM ε σ α) : EStateM ε σ α := fun s =>
  match x s with
  | .ok a s' => .ok a s'
  | .error e s' => .error e (undo s')

/-- Nothing is undone where nothing fails. -/
theorem onError_of_ok {x : EStateM ε σ α} {undo : σ → σ} {s s' : σ} {a : α} (h : x s = .ok a s') :
    onError undo x s = .ok a s' := by
  unfold onError
  rw [h]

/-- A failure is passed on, with its state undone. -/
theorem onError_of_error {x : EStateM ε σ α} {undo : σ → σ} {s s' : σ} {e : ε}
    (h : x s = .error e s') : onError undo x s = .error e (undo s') := by
  unfold onError
  rw [h]

/-- A computation on a part of the state: `get` takes the part out, `put` puts it back. -/
def zoom {τ : Type u} (get : σ → τ) (put : τ → σ → σ) (x : EStateM ε τ α) : EStateM ε σ α := fun s =>
  match x (get s) with
  | .ok a t => .ok a (put t s)
  | .error e t => .error e (put t s)

section Zoom

variable {τ : Type u} {get : σ → τ} {put : τ → σ → σ} {x : EStateM ε τ α} {s : σ} {t : τ}

/-- A computation on a part that succeeds succeeds on the whole. -/
theorem zoom_of_ok {a : α} (h : x (get s) = .ok a t) : zoom get put x s = .ok a (put t s) := by
  unfold zoom
  rw [h]

/-- A computation on a part that fails fails on the whole. -/
theorem zoom_of_error {e : ε} (h : x (get s) = .error e t) : zoom get put x s = .error e (put t s) := by
  unfold zoom
  rw [h]

/-- A computation on a part succeeds on the whole if and only if it does on the part. -/
theorem zoom_eq_ok {a : α} {s' : σ} :
    zoom get put x s = .ok a s' ↔ ∃ t, x (get s) = .ok a t ∧ s' = put t s := by
  unfold zoom
  cases x (get s) with
  | ok b t =>
    dsimp only
    rw [EStateM.Result.ok.injEq]
    constructor
    · rintro ⟨rfl, rfl⟩
      exact ⟨t, rfl, rfl⟩
    · rintro ⟨t', ht, rfl⟩
      obtain ⟨rfl, rfl⟩ := EStateM.Result.ok.inj ht
      exact ⟨rfl, rfl⟩
  | error e t =>
    refine ⟨fun h => (by cases h), ?_⟩
    rintro ⟨t', ht, -⟩
    cases ht

end Zoom

/-! ## What a computation does to the state -/

/-- Whether it succeeds or fails, a computation ends in a state related to the one it starts in. -/
def Relates (R : σ → σ → Prop) (x : EStateM ε σ α) : Prop := ∀ s, R s (final x s)

section Relates

variable {R : σ → σ → Prop}

/-- A change of the state relates what the change relates. -/
theorem Relates.modify {f : σ → σ} (h : ∀ s, R s (f s)) :
    Relates R (modify f : EStateM ε σ PUnit) := h

/-- A choice relates what both its branches relate. -/
theorem Relates.ite {p : Prop} [Decidable p] {x y : EStateM ε σ α} (hx : Relates R x)
    (hy : Relates R y) : Relates R (if p then x else y) := by
  split
  · exact hx
  · exact hy

variable [IsPreorder σ R]

/-- Returning a value changes nothing. -/
theorem Relates.pure (a : α) : Relates R (pure a : EStateM ε σ α) := fun s => refl_of R s

/-- Failing changes nothing. -/
theorem Relates.throw (e : ε) : Relates R (throw e : EStateM ε σ α) := fun s => refl_of R s

/-- Looking at the state changes nothing. -/
theorem Relates.get : Relates R (get : EStateM ε σ σ) := fun s => refl_of R s

/-- One computation after the other relates what both relate. -/
theorem Relates.bind {x : EStateM ε σ α} {f : α → EStateM ε σ β} (hx : Relates R x)
    (hf : ∀ a, Relates R (f a)) : Relates R (x >>= f) := by
  intro s
  have hfirst := hx s
  cases hresult : x s with
  | ok a s' =>
    rw [final_of_ok hresult] at hfirst
    rw [final_bind_of_ok hresult]
    exact trans_of R hfirst (hf a s')
  | error e s' =>
    rw [final_of_error hresult] at hfirst
    rwa [final_bind_of_error hresult]

/-- A computation and its handler relate what both relate. -/
theorem Relates.tryCatch {x : EStateM ε σ α} {f : ε → EStateM ε σ α} (hx : Relates R x)
    (hf : ∀ e, Relates R (f e)) : Relates R (tryCatch x f) := by
  intro s
  have hfirst := hx s
  cases hresult : x s with
  | ok a s' =>
    rw [final_of_ok hresult] at hfirst
    rwa [final_of_ok (tryCatch_of_ok hresult)]
  | error e s' =>
    rw [final_of_error hresult] at hfirst
    have hrun : final (MonadExcept.tryCatch x f) s = final (f e) s' := by
      unfold final
      rw [tryCatch_of_error hresult]
    rw [hrun]
    exact trans_of R hfirst (hf e s')

/-- A loop does what its rounds do. -/
theorem Relates.foldlM {γ : Type*} {f : β → γ → EStateM ε σ β} (h : ∀ b c, Relates R (f b c))
    (l : List γ) (b : β) : Relates R (l.foldlM f b) := by
  induction l generalizing b with
  | nil => exact Relates.pure b
  | cons c l ih =>
    rw [List.foldlM_cons]
    exact (h b c).bind ih

/-- A loop relates what each of its rounds relates. -/
theorem Relates.forM {γ : Type*} {f : γ → EStateM ε σ PUnit} (h : ∀ c, Relates R (f c)) (l : List γ) :
    Relates R (l.forM f) := by
  induction l with
  | nil => exact Relates.pure _
  | cons c l ih =>
    show Relates R (f c >>= fun _ => l.forM f)
    exact (h c).bind fun _ => ih

end Relates

/-- Two states that look the same. -/
def SameView {τ : Type*} (view : σ → τ) (s s' : σ) : Prop := view s' = view s

instance isPreorder_sameView {τ : Type*} (view : σ → τ) : IsPreorder σ (SameView view) where
  refl _ := rfl
  trans _ _ _ h h' := h'.trans h

/-- A computation keeps what `view` shows of the state. -/
abbrev Keeps {τ : Type*} (view : σ → τ) (x : EStateM ε σ α) : Prop := Relates (SameView view) x

/-- What is true of one state is true of another. -/
def Carried (P : σ → Prop) (s s' : σ) : Prop := P s → P s'

instance isPreorder_carried (P : σ → Prop) : IsPreorder σ (Carried P) where
  refl _ := id
  trans _ _ _ h h' := h' ∘ h

/-- A computation that starts where `P` holds ends where `P` holds. -/
abbrev Preserves (P : σ → Prop) (x : EStateM ε σ α) : Prop := Relates (Carried P) x

end Computations
