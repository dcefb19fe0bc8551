import BcmPcie.Library.Simulations
import BcmPcie.Library.Tasks

/-! # Critical sections

Any number of tasks access a state they share in critical sections only: each is a row of accesses
between taking a lock and giving it back, and a call of a task is a row of sections. Whatever the tasks
do in between, it looks as if every section were carried out at once when the lock is given back.

* `Programs` — what the tasks run.
* `Interleaved` — the tasks, access by access; `atomic` — the same, section by section.
* `atomic_of_interleaved` — the first implements the second.
* `Called.step` — what a task has done since it has made the call it is in. -/

namespace CriticalSections

open Simulations Tasks

/-- The accesses of a critical section, each of the shared state and the registers of the task. -/
abbrev Body (γ κ : Type*) := List (γ × κ → γ × κ)

/-- A body as a whole: its accesses, one after the other. -/
def Body.run {γ κ : Type*} (b : Body γ κ) (x : γ × κ) : γ × κ := b.foldl (fun x access => access x) x

/-- What the tasks run: the sections of every call, with the registers a call starts with, and the body
of every section, which may depend on the task. -/
structure Programs (τ γ κ χ σ : Type*) where
  sections : χ → List σ
  regs : κ
  body : τ → σ → Body γ κ

/-- What is seen of the tasks. -/
inductive Label (τ κ χ σ : Type*)
  /-- A task calls. -/
  | invoke (t : τ) (c : χ)
  /-- A section of a task is done, and has left the registers with it. -/
  | commit (t : τ) (q : σ) (regs : κ)
  /-- A call returns. -/
  | respond (t : τ) (c : χ) (regs : κ)

/-- Where a task is while it is in no section: in no call, or with sections left to do. -/
inductive Outside (κ χ σ : Type*)
  | idle
  | busy (c : χ) (todo : List σ) (regs : κ)

/-- Where a task is. In a section it has accesses left to do. -/
inductive Point (γ κ χ σ : Type*)
  | outside (p : Outside κ χ σ)
  | inside (c : χ) (q : σ) (todo : List σ) (left : Body γ κ) (regs : κ)

variable {τ γ κ χ σ : Type*}

/-- The point is in a section. -/
def Point.IsInside : Point γ κ χ σ → Prop
  | .outside _ => False
  | .inside _ _ _ _ _ => True

/-- The lock and what it protects. -/
structure Locked (γ : Type*) where
  held : Bool
  data : γ

variable [DecidableEq τ]

/-- The tasks, access by access. -/
inductive Interleaved (P : Programs τ γ κ χ σ) :
    System (Config τ (Locked γ) (Point γ κ χ σ)) (Option (Label τ κ χ σ))
  | invoke {s} {t : τ} {c : χ} (h : s.point t = .outside .idle) :
      Interleaved P s (some (.invoke t c))
        ⟨s.shared, Function.update s.point t (.outside (.busy c (P.sections c) P.regs))⟩
  | obtain {s} {t : τ} {c q todo regs} (h : s.point t = .outside (.busy c (q :: todo) regs))
      (hfree : s.shared.held = false) :
      Interleaved P s none
        ⟨⟨true, s.shared.data⟩, Function.update s.point t (.inside c q todo (P.body t q) regs)⟩
  | access {s} {t : τ} {c q todo access left regs}
      (h : s.point t = .inside c q todo (access :: left) regs) :
      Interleaved P s none ⟨⟨s.shared.held, (access (s.shared.data, regs)).1⟩,
        Function.update s.point t (.inside c q todo left (access (s.shared.data, regs)).2)⟩
  | release {s} {t : τ} {c q todo regs} (h : s.point t = .inside c q todo [] regs) :
      Interleaved P s (some (.commit t q regs))
        ⟨⟨false, s.shared.data⟩, Function.update s.point t (.outside (.busy c todo regs))⟩
  | respond {s} {t : τ} {c regs} (h : s.point t = .outside (.busy c [] regs)) :
      Interleaved P s (some (.respond t c regs))
        ⟨s.shared, Function.update s.point t (.outside .idle)⟩

/-- The tasks, section by section. -/
def atomic (P : Programs τ γ κ χ σ) : System (Config τ γ (Outside κ χ σ)) (Label τ κ χ σ)
  | S, .invoke t c, S' => S.point t = .idle ∧
      S' = ⟨S.shared, Function.update S.point t (.busy c (P.sections c) P.regs)⟩
  | S, .commit t q regs', S' => ∃ c todo regs, S.point t = .busy c (q :: todo) regs ∧
      (S'.shared, regs') = (P.body t q).run (S.shared, regs) ∧
      S'.point = Function.update S.point t (.busy c todo regs')
  | S, .respond t c regs, S' => S.point t = .busy c [] regs ∧
      S' = ⟨S.shared, Function.update S.point t .idle⟩

/-- Where a task is if the section it is in has not begun, as long as what is left of its body makes of
the data what the whole body makes of what was there before. -/
inductive Pending (P : Programs τ γ κ χ σ) (data before : γ) (t : τ) :
    Point γ κ χ σ → Outside κ χ σ → Prop
  | outside (p : Outside κ χ σ) : Pending P data before t (.outside p) p
  | inside {c q todo left regs regs₀}
      (h : Body.run left (data, regs) = (P.body t q).run (before, regs₀)) :
      Pending P data before t (.inside c q todo left regs) (.busy c (q :: todo) regs₀)

/-- The states of the two: the lock is held by just the task in a section, and before that section the
shared state was what it is for the atomic system. -/
structure Related (P : Programs τ γ κ χ σ) (s : Config τ (Locked γ) (Point γ κ χ σ))
    (S : Config τ γ (Outside κ χ σ)) : Prop where
  guarded : Guarded s.shared.held Point.IsInside s.point
  pending : ∀ t, Pending P s.shared.data S.shared t (s.point t) (S.point t)
  free : s.shared.held = false → S.shared = s.shared.data

namespace Related

variable {P : Programs τ γ κ χ σ} {s : Config τ (Locked γ) (Point γ κ χ σ)}
  {S : Config τ γ (Outside κ χ σ)} {t : τ}

omit [DecidableEq τ] in
/-- A task outside a section is at the same point in both. -/
theorem point_of_outside (h : Related P s S) {p : Outside κ χ σ} (hp : s.point t = .outside p) :
    S.point t = p := by
  have hpending := h.pending t
  rw [hp] at hpending
  cases hpending
  rfl

omit [DecidableEq τ] in
/-- A task outside does not see what the shared state is. -/
theorem pending_of_outside (h : Related P s S) {u : τ} (hu : ¬ (s.point u).IsInside) (data before : γ) :
    Pending P data before u (s.point u) (S.point u) := by
  cases hp : s.point u with
  | outside p =>
    rw [h.point_of_outside hp]
    exact .outside p
  | inside _ _ _ _ _ =>
    rw [hp] at hu
    exact absurd trivial hu

/-- A task that moves outside leaves the lock and the data alone. -/
theorem move (h : Related P s S) {p p' : Outside κ χ σ} (hp : s.point t = .outside p) :
    Related P ⟨s.shared, Function.update s.point t (.outside p')⟩
      ⟨S.shared, Function.update S.point t p'⟩ := by
  refine ⟨h.guarded.keep (by rw [hp]; exact Iff.rfl), fun u => ?_, h.free⟩
  by_cases hu : u = t
  · rw [hu]
    dsimp only
    rw [Function.update_self, Function.update_self]
    exact .outside p'
  · dsimp only
    rw [Function.update_of_ne hu, Function.update_of_ne hu]
    exact h.pending u

end Related

variable {P : Programs τ γ κ χ σ}

/-- While one task is in a section, or enters it, the points of the others are as they were. -/
theorem Related.others {s : Config τ (Locked γ) (Point γ κ χ σ)} {S : Config τ γ (Outside κ χ σ)}
    (h : Related P s S) {t : τ} (ht : ∀ u, u ≠ t → ¬ (s.point u).IsInside) {data before : γ}
    {p : Point γ κ χ σ} {p' : Outside κ χ σ} (hp : Pending P data before t p p') (u : τ) :
    Pending P data before u (Function.update s.point t p u) (Function.update S.point t p' u) := by
  by_cases hu : u = t
  · rw [hu, Function.update_self, Function.update_self]
    exact hp
  · rw [Function.update_of_ne hu, Function.update_of_ne hu]
    exact h.pending_of_outside (ht u hu) data before

/-- **Sections are carried out as if at once.** -/
theorem atomic_of_interleaved (P : Programs τ γ κ χ σ) :
    Simulation (Interleaved P) (stutters (atomic P)) (Related P) := by
  intro s S l s' h hstep
  cases hstep with
  | invoke hp =>
    exact ⟨_, ⟨h.point_of_outside hp, rfl⟩, h.move hp⟩
  | respond hp =>
    exact ⟨_, ⟨h.point_of_outside hp, rfl⟩, h.move hp⟩
  | @obtain _ t c q todo regs hp hfree =>
    have hguarded := h.guarded
    rw [hfree] at hguarded
    have hpoint := h.point_of_outside hp
    refine ⟨S, rfl, hguarded.acquire trivial, fun u => ?_, fun hheld => by cases hheld⟩
    -- nothing of the section is done yet
    have hnew : Pending P s.shared.data s.shared.data t (.inside c q todo (P.body t q) regs)
        (.busy c (q :: todo) regs) := .inside rfl
    have hpending := h.others (fun u _ => hguarded.not_of_free u) hnew u
    rw [← hpoint, Function.update_eq_self] at hpending
    rw [h.free hfree]
    exact hpending
  | @access _ t c q todo access left regs hp =>
    have hinside : (s.point t).IsInside := by
      rw [hp]
      trivial
    have hbefore := h.pending t
    rw [hp] at hbefore
    generalize hS : S.point t = p at hbefore
    obtain _ | @⟨_, _, _, _, _, before, hrun⟩ := hbefore
    have hnew : Pending P (access (s.shared.data, regs)).1 S.shared t
        (.inside c q todo left (access (s.shared.data, regs)).2) (.busy c (q :: todo) before) := .inside hrun
    refine ⟨S, rfl, h.guarded.keep ⟨fun _ => hinside, fun _ => trivial⟩, fun u => ?_, fun hheld => ?_⟩
    · have hpending := h.others (fun u hu => h.guarded.not_of_ne hinside hu) hnew u
      rw [← hS, Function.update_eq_self] at hpending
      exact hpending
    · have hheld : s.shared.held = false := hheld
      rw [h.guarded.held_iff.2 ⟨t, hinside⟩] at hheld
      cases hheld
  | @release _ t c q todo regs hp =>
    have hinside : (s.point t).IsInside := by
      rw [hp]
      trivial
    have hbefore := h.pending t
    rw [hp] at hbefore
    generalize hS : S.point t = p at hbefore
    obtain _ | hrun := hbefore
    refine ⟨⟨s.shared.data, Function.update S.point t (.busy c todo regs)⟩, ⟨c, todo, _, hS, hrun, rfl⟩,
      h.guarded.release hinside not_false, fun u => ?_, fun _ => rfl⟩
    exact h.others (fun u hu => h.guarded.not_of_ne hinside hu) (.outside _) u

omit [DecidableEq τ] in
/-- All tasks are in no call, and the lock is free. -/
theorem related_of_idle {s : Config τ (Locked γ) (Point γ κ χ σ)} (hfree : s.shared.held = false)
    (hidle : ∀ t, s.point t = .outside .idle) :
    Related P s ⟨s.shared.data, fun _ => .idle⟩ := by
  refine ⟨⟨fun t u ht => ?_, iff_of_false (by rw [hfree]; decide) ?_⟩, fun t => ?_, fun _ => rfl⟩
  · rw [hidle t] at ht
    exact absurd ht not_false
  · rintro ⟨t, ht⟩
    rw [hidle t] at ht
    exact ht
  · rw [hidle t]
    exact .outside _

/-! ## The history of a call -/

/-- The section that a task has done, with the registers it was left with. -/
def Label.commitOf (t : τ) : Label τ κ χ σ → Option (σ × κ)
  | .commit u q regs => if u = t then some (q, regs) else none
  | _ => none

/-- The sections that a task has done. -/
def commitsOf (t : τ) (h : List (Label τ κ χ σ)) : List (σ × κ) := h.filterMap (Label.commitOf t)

/-- By the history, every task in a call has done the sections that are not left of it, and no others,
since it made the call, and the registers are what the sections make of them. -/
def Called (P : Programs τ γ κ χ σ) (R : List (σ × κ) → κ → Prop) (h : List (Label τ κ χ σ))
    (S : Config τ γ (Outside κ χ σ)) : Prop :=
  ∀ t c todo regs, S.point t = .busy c todo regs → ∃ before after, h = before ++ .invoke t c :: after ∧
    (commitsOf t after).map Prod.fst ++ todo = P.sections c ∧ R (commitsOf t after) regs

variable {R : List (σ × κ) → κ → Prop} {h : List (Label τ κ χ σ)}
  {S S' : Config τ γ (Outside κ χ σ)} {l : Label τ κ χ σ}

/-- One more label adds its commit, if it is one of the task. -/
theorem commitsOf_concat (t : τ) (h : List (Label τ κ χ σ)) (l : Label τ κ χ σ) :
    commitsOf t (h ++ [l]) = commitsOf t h ++ (l.commitOf t).toList := by
  unfold commitsOf
  rw [List.filterMap_append]
  cases hl : l.commitOf t with
  | none => rw [List.filterMap_cons_none hl]; rfl
  | some x => rw [List.filterMap_cons_some hl]; rfl

/-- A task that is in the call it was in, with a label that is none of its sections. -/
theorem Called.extend (hcalled : Called P R h S) {t : τ} {c : χ} {todo : List σ} {regs : κ}
    (hp : S.point t = .busy c todo regs) (hl : l.commitOf t = none) :
    ∃ before after, h ++ [l] = before ++ .invoke t c :: after ∧
      (commitsOf t after).map Prod.fst ++ todo = P.sections c ∧ R (commitsOf t after) regs := by
  obtain ⟨before, after, rfl, hsections, hR⟩ := hcalled t c todo regs hp
  refine ⟨before, after ++ [l], by rw [List.append_assoc, List.cons_append], ?_⟩
  rw [commitsOf_concat, hl, Option.toList_none, List.append_nil]
  exact ⟨hsections, hR⟩

/-- **One step** of the atomic system. -/
theorem Called.step (hregs : R [] P.regs)
    (hbody : ∀ t cs q g regs, R cs regs →
      R (cs ++ [(q, ((P.body t q).run (g, regs)).2)]) ((P.body t q).run (g, regs)).2)
    (hcalled : Called P R h S) (hstep : atomic P S l S') : Called P R (h ++ [l]) S' := by
  intro t c todo regs hp
  cases l with
  | invoke u c' =>
    obtain ⟨-, rfl⟩ := hstep
    have hp : Function.update S.point u (.busy c' (P.sections c') P.regs) t = .busy c todo regs := hp
    by_cases hu : t = u
    · rw [hu, Function.update_self] at hp
      cases hp
      exact ⟨h, [], by rw [hu], rfl, hregs⟩
    · rw [Function.update_of_ne hu] at hp
      exact hcalled.extend hp rfl
  | commit u q regs' =>
    obtain ⟨c', todo', regs₀, hfrom, hrun, hpoint⟩ := hstep
    rw [hpoint] at hp
    by_cases hu : t = u
    · rw [hu, Function.update_self] at hp
      cases hp
      obtain ⟨before, after, rfl, hsections, hR⟩ := hcalled u c (q :: todo) regs₀ hfrom
      have hcommit : (Label.commit u q regs : Label τ κ χ σ).commitOf u = some (q, regs) := if_pos rfl
      refine ⟨before, after ++ [.commit u q regs], ?_, ?_, ?_⟩
      · rw [hu, List.append_assoc, List.cons_append]
      · rw [hu, commitsOf_concat, hcommit, List.map_append, List.append_assoc]
        exact hsections
      · rw [hu, commitsOf_concat, hcommit]
        have hnew := hbody u _ q S.shared regs₀ hR
        rw [← hrun] at hnew
        exact hnew
    · rw [Function.update_of_ne hu] at hp
      exact hcalled.extend hp (if_neg fun heq => hu heq.symm)
  | respond u c' regs' =>
    obtain ⟨-, rfl⟩ := hstep
    have hp : Function.update S.point u .idle t = .busy c todo regs := hp
    by_cases hu : t = u
    · rw [hu, Function.update_self] at hp
      cases hp
    · rw [Function.update_of_ne hu] at hp
      exact hcalled.extend hp rfl

end CriticalSections
