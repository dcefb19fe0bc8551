import Mathlib.Tactic.Common

/-! # Runs of deterministic transition systems

A system that answers every call is a step function `σ → ε → σ`; a run is the fold of the step over
a list of calls. Two ways of reading a run as a whole are related here: a property of every state it
goes through, and a condition on every call it makes.

* `run_invariant` — what one step preserves holds at the end of every run.
* `along_of_everyStep` — a condition that keeps the property at each step keeps it along the run.
* `along_iff_everyStep` — when the condition is also necessary at each step, the two agree.

A system whose events can be refused is a partial step `σ → ε → Option σ`; `exec` runs it as long as
no event is.

* `exec_invariant` — what every step preserves holds at the end of every run.
* `exec_of_everyEvent`, `exists_of_not_everyEvent` — a condition on every event, used and refuted.
* `throughout_iff_everyEvent` — a condition that every event meets just when a property holds
  throughout.
* `exec_until` — what a step preserves unless it is one of interest holds at the end of every run that
  has no such step. -/

namespace Runs

variable {σ ε : Type*}

/-- The state after a list of calls. -/
def run (step : σ → ε → σ) : σ → List ε → σ
  | s, [] => s
  | s, e :: es => run step (step s e) es

/-- Every state a run goes through satisfies `P`, the first and the last included. -/
def Along (step : σ → ε → σ) (P : σ → Prop) : σ → List ε → Prop
  | s, [] => P s
  | s, e :: es => P s ∧ Along step P (step s e) es

/-- Every call of a run meets the condition `C` in the state it is made in. -/
def EveryStep (step : σ → ε → σ) (C : σ → ε → Prop) : σ → List ε → Prop
  | _, [] => True
  | s, e :: es => C s e ∧ EveryStep step C (step s e) es

section Total

variable {step : σ → ε → σ} {P Q : σ → Prop} {C : σ → ε → Prop}

instance decidableEveryStep [∀ s e, Decidable (C s e)] :
    (s : σ) → (es : List ε) → Decidable (EveryStep step C s es)
  | _, [] => .isTrue trivial
  | s, e :: es =>
    have := decidableEveryStep (step s e) es
    inferInstanceAs (Decidable (C s e ∧ EveryStep step C (step s e) es))

@[simp] theorem run_nil (s : σ) : run step s ([] : List ε) = s := rfl

@[simp] theorem run_cons (s : σ) (e : ε) (es : List ε) :
    run step s (e :: es) = run step (step s e) es := rfl

@[simp] theorem along_nil (s : σ) : Along step P s ([] : List ε) ↔ P s := Iff.rfl

@[simp] theorem along_cons (s : σ) (e : ε) (es : List ε) :
    Along step P s (e :: es) ↔ P s ∧ Along step P (step s e) es := Iff.rfl

@[simp] theorem everyStep_nil (s : σ) : EveryStep step C s ([] : List ε) := trivial

@[simp] theorem everyStep_cons (s : σ) (e : ε) (es : List ε) :
    EveryStep step C s (e :: es) ↔ C s e ∧ EveryStep step C (step s e) es := Iff.rfl

/-- A run over two lists is that over the second after the first. -/
theorem run_append (s : σ) (es fs : List ε) :
    run step s (es ++ fs) = run step (run step s es) fs := by
  induction es generalizing s with
  | nil => rfl
  | cons e es ih => exact ih (step s e)

/-- Every step of two lists meets the condition if those of each do. -/
theorem everyStep_append (s : σ) (es fs : List ε) :
    EveryStep step C s (es ++ fs) ↔ EveryStep step C s es ∧ EveryStep step C (run step s es) fs := by
  induction es generalizing s with
  | nil => simp
  | cons e es ih => simp only [List.cons_append, everyStep_cons, ih, run_cons, and_assoc]

/-- Every call meets the condition just when each call does in the state the calls before it lead
to. -/
theorem everyStep_iff_forall_split {s : σ} {es : List ε} :
    EveryStep step C s es ↔ ∀ pre e post, es = pre ++ e :: post → C (run step s pre) e := by
  constructor
  · rintro h pre e post rfl
    exact ((everyStep_append s pre (e :: post)).1 h).2.1
  · intro h
    induction es generalizing s with
    | nil => trivial
    | cons e es ih =>
      refine ⟨h [] e es rfl, ih fun pre e' post hes => ?_⟩
      exact h (e :: pre) e' post (by rw [hes, List.cons_append])

/-- **Invariant rule.** What every step preserves holds at the end of every run. -/
theorem run_invariant (hstep : ∀ s e, P s → P (step s e)) (s : σ) (es : List ε) (h : P s) :
    P (run step s es) := by
  induction es generalizing s with
  | nil => exact h
  | cons e es ih => exact ih (step s e) (hstep s e h)

/-- A property of a whole run holds of its last state. -/
theorem Along.last {s : σ} {es : List ε} (h : Along step P s es) : P (run step s es) := by
  induction es generalizing s with
  | nil => exact h
  | cons e es ih => exact ih h.2

/-- A property of a whole run holds of its first state. -/
theorem Along.first {s : σ} {es : List ε} (h : Along step P s es) : P s := by
  cases es with
  | nil => exact h
  | cons e es => exact h.1

/-- An auxiliary invariant `Q` and a condition that keeps `P` at each step keep `P` along the run. -/
theorem along_of_everyStep (hQ : ∀ s e, Q s → Q (step s e))
    (hP : ∀ s e, Q s → P s → C s e → P (step s e)) {s : σ} {es : List ε} (hq : Q s) (hp : P s)
    (h : EveryStep step C s es) : Along step P s es := by
  induction es generalizing s with
  | nil => exact hp
  | cons e es ih => exact ⟨hp, ih (hQ s e hq) (hP s e hq hp h.1) h.2⟩

/-- **Exact condition.** When at each step the condition is what keeps `P`, a run satisfies `P`
throughout just when all its calls meet the condition. -/
theorem along_iff_everyStep (hQ : ∀ s e, Q s → Q (step s e))
    (hP : ∀ s e, Q s → P s → (P (step s e) ↔ C s e)) {s : σ} {es : List ε} (hq : Q s) (hp : P s) :
    Along step P s es ↔ EveryStep step C s es := by
  refine ⟨fun h => ?_, along_of_everyStep hQ (fun s e hq hp => (hP s e hq hp).2) hq hp⟩
  induction es generalizing s with
  | nil => trivial
  | cons e es ih =>
    have hnext : P (step s e) := h.2.first
    exact ⟨(hP s e hq hp).1 hnext, ih (hQ s e hq) hnext h.2⟩

end Total

section Partial

/-- The state after a list of events, if none of them is refused. -/
def exec (step : σ → ε → Option σ) : σ → List ε → Option σ
  | s, [] => some s
  | s, e :: es => (step s e).bind (exec step · es)

/-- Every event of a run meets the condition `C` in the state it is taken in. -/
def EveryEvent (step : σ → ε → Option σ) (C : σ → ε → Prop) : σ → List ε → Prop
  | _, [] => True
  | s, e :: es => C s e ∧ ∀ t, step s e = some t → EveryEvent step C t es

variable {step : σ → ε → Option σ} {P : σ → Prop} {A : ε → Prop} {C X : σ → ε → Prop} {s t : σ}
  {e : ε} {es fs : List ε}

@[simp] theorem exec_nil : exec step s ([] : List ε) = some t ↔ s = t := Option.some_inj

@[simp] theorem exec_cons :
    exec step s (e :: es) = some t ↔ ∃ u, step s e = some u ∧ exec step u es = some t :=
  Option.bind_eq_some_iff

@[simp] theorem everyEvent_nil : EveryEvent step C s ([] : List ε) := trivial

@[simp] theorem everyEvent_cons :
    EveryEvent step C s (e :: es) ↔ C s e ∧ ∀ t, step s e = some t → EveryEvent step C t es :=
  Iff.rfl

/-- The conditions on the events of a run can be checked one after the other. -/
instance decidableEveryEvent [∀ s e, Decidable (C s e)] :
    (s : σ) → (es : List ε) → Decidable (EveryEvent step C s es)
  | _, [] => .isTrue trivial
  | s, e :: es =>
    match h : step s e with
    | none => decidable_of_iff (C s e)
        ⟨fun hC => ⟨hC, fun t ht => absurd (h.symm.trans ht) (by simp)⟩, And.left⟩
    | some u =>
      have := decidableEveryEvent u es
      decidable_of_iff (C s e ∧ EveryEvent step C u es)
        (and_congr_right fun _ =>
          ⟨fun hu t ht => Option.some.inj (h.symm.trans ht) ▸ hu, fun hall => hall u h⟩)

/-- An execution of two lists goes through a state between them. -/
theorem exec_append :
    exec step s (es ++ fs) = some t ↔ ∃ u, exec step s es = some u ∧ exec step u fs = some t := by
  induction es generalizing s with
  | nil => simp
  | cons e es ih =>
    simp only [List.cons_append, exec_cons, ih]
    constructor
    · rintro ⟨u, hu, w, hw, ht⟩
      exact ⟨w, ⟨u, hu, hw⟩, ht⟩
    · rintro ⟨w, ⟨u, hu, hw⟩, ht⟩
      exact ⟨u, hu, w, hw, ht⟩

/-- **Invariant rule.** What every step preserves holds at the end of every run. -/
theorem exec_invariant (hstep : ∀ s e t, step s e = some t → P s → P t)
    (h : exec step s es = some t) (hs : P s) : P t := by
  induction es generalizing s with
  | nil => exact exec_nil.1 h ▸ hs
  | cons e es ih =>
    obtain ⟨u, hu, hrest⟩ := exec_cons.1 h
    exact ih hrest (hstep s e u hu hs)

/-- **Until.** Over events that meet `A`, a property that each step preserves unless it is an `X` step
holds at the end of the run, or the run has an `X` step. -/
theorem exec_until (hstep : ∀ s e t, A e → step s e = some t → P s → X s e ∨ P t)
    (h : exec step s es = some t) (hes : ∀ e ∈ es, A e) (hs : P s) :
    (∃ es₁ e es₂ u, es = es₁ ++ e :: es₂ ∧ exec step s es₁ = some u ∧ X u e) ∨ P t := by
  induction es generalizing s with
  | nil => exact Or.inr (exec_nil.1 h ▸ hs)
  | cons e es ih =>
    obtain ⟨u, hu, hrest⟩ := exec_cons.1 h
    obtain hx | hnext := hstep s e u (hes e List.mem_cons_self) hu hs
    · exact Or.inl ⟨[], e, es, s, rfl, rfl, hx⟩
    · obtain ⟨es₁, e', es₂, w, rfl, hw, hx⟩ | hlast :=
        ih hrest (fun e' he' => hes e' (List.mem_cons_of_mem e he')) hnext
      · exact Or.inl ⟨e :: es₁, e', es₂, w, rfl, exec_cons.2 ⟨u, hu, hw⟩, hx⟩
      · exact Or.inr hlast

/-- A condition that keeps a property at each step keeps it to the end of the run. -/
theorem exec_of_everyEvent (hstep : ∀ s e t, step s e = some t → C s e → P s → P t)
    (h : exec step s es = some t) (hC : EveryEvent step C s es) (hs : P s) : P t := by
  induction es generalizing s with
  | nil => exact exec_nil.1 h ▸ hs
  | cons e es ih =>
    obtain ⟨u, hu, hrest⟩ := exec_cons.1 h
    exact ih hrest (hC.2 u hu) (hstep s e u hu hC.1 hs)

/-- A run that breaks a condition breaks it at one of its events. -/
theorem exists_of_not_everyEvent (h : exec step s es = some t) (hC : ¬ EveryEvent step C s es) :
    ∃ es₁ e es₂ u, es = es₁ ++ e :: es₂ ∧ exec step s es₁ = some u ∧ ¬ C u e := by
  induction es generalizing s with
  | nil => exact absurd trivial hC
  | cons e es ih =>
    obtain ⟨u, hu, hrest⟩ := exec_cons.1 h
    by_cases he : C s e
    · have hlater : ¬ EveryEvent step C u es := by
        intro hall
        refine hC ⟨he, fun w hw => ?_⟩
        rwa [Option.some.inj (hu.symm.trans hw)] at hall
      obtain ⟨es₁, e', es₂, w, rfl, hw, hbreak⟩ := ih hrest hlater
      exact ⟨e :: es₁, e', es₂, w, rfl, exec_cons.2 ⟨u, hu, hw⟩, hbreak⟩
    · exact ⟨[], e, es, s, rfl, rfl, he⟩

/-- Every state a run goes through satisfies `P`, the first and the last included. -/
def Throughout (step : σ → ε → Option σ) (P : σ → Prop) (s : σ) (es : List ε) : Prop :=
  ∀ es₁ es₂ u, es = es₁ ++ es₂ → exec step s es₁ = some u → P u

/-- An invariant that every event meeting the condition keeps holds throughout a run whose events all
do. -/
theorem throughout_of_everyEvent (hstep : ∀ s e t, step s e = some t → C s e → P s → P t)
    (hs : P s) (hC : EveryEvent step C s es) : Throughout step P s es := by
  rintro es₁ es₂ u rfl hu
  refine exec_of_everyEvent hstep hu ?_ hs
  induction es₁ generalizing s with
  | nil => trivial
  | cons e es₁ ih =>
    obtain ⟨v, hv, hrest⟩ := exec_cons.1 hu
    refine ⟨hC.1, fun w hw => ?_⟩
    obtain rfl := Option.some.inj (hv.symm.trans hw)
    exact ih (hstep s e v hv hC.1 hs) (hC.2 v hv) hrest

/-- **Exact condition.** When an event that meets the condition keeps the invariant, and one that does
not breaks the property at once, a run satisfies the property throughout just when all its events meet
the condition. -/
theorem throughout_iff_everyEvent {Q : σ → Prop} (hQ : ∀ s, P s → Q s)
    (hstep : ∀ s e t, step s e = some t → P s → C s e ∧ P t ∨ ¬ C s e ∧ ¬ Q t) (hs : P s)
    (h : exec step s es = some t) : Throughout step Q s es ↔ EveryEvent step C s es := by
  have hkeep : ∀ s e t, step s e = some t → C s e → P s → P t := by
    intro s e t he hC hp
    obtain ⟨-, ht⟩ | ⟨hnot, -⟩ := hstep s e t he hp
    · exact ht
    · exact absurd hC hnot
  constructor
  · intro hall
    induction es generalizing s with
    | nil => trivial
    | cons e es ih =>
      obtain ⟨u, hu, hrest⟩ := exec_cons.1 h
      obtain ⟨hC, hnext⟩ | ⟨-, hbad⟩ := hstep s e u hu hs
      · refine ⟨hC, fun w hw => ?_⟩
        obtain rfl := Option.some.inj (hu.symm.trans hw)
        exact ih hnext hrest fun es₁ es₂ v hes hv =>
          hall (e :: es₁) es₂ v (by rw [hes, List.cons_append]) (exec_cons.2 ⟨u, hu, hv⟩)
      · exact absurd (hall [e] es u rfl (exec_cons.2 ⟨u, hu, rfl⟩)) hbad
  · intro hC es₁ es₂ u hes hu
    exact hQ u (throughout_of_everyEvent hkeep hs hC es₁ es₂ u hes hu)

end Partial

end Runs
