import Mathlib.Data.List.Pairwise
import Mathlib.Tactic.Common

/-! # Address windows

A window shows a span of one address space at another place of a second one. Address spaces are
unbounded here; where an address is a machine word, its number is used.

* `Window.translate` — an address seen through a window; `Window.reverse` — the window from the other
  side.
* `Window.translate_eq_some` — what a window does to an address, as one equation.
* `Window.Apart` — two windows take no address in common. -/

namespace Windows

/-- `size` addresses from `source` on are seen from `target` on. -/
@[ext] structure Window where
  source : ℕ
  target : ℕ
  size : ℕ
  deriving DecidableEq, Repr

namespace Window

variable (w w' : Window) {a b : ℕ}

/-- The window takes the address. -/
def Decodes (a : ℕ) : Prop := w.source ≤ a ∧ a < w.source + w.size

instance (a : ℕ) : Decidable (w.Decodes a) := inferInstanceAs (Decidable (_ ∧ _))

/-- A window that decodes an address is not empty. -/
theorem Decodes.size_pos (h : w.Decodes a) : 0 < w.size := by
  obtain ⟨hlow, hhigh⟩ := h
  omega

/-- Where the address is seen. -/
def translate (a : ℕ) : Option ℕ :=
  if w.Decodes a then some (w.target + (a - w.source)) else none

/-- The window from the other side. -/
def reverse : Window := ⟨w.target, w.source, w.size⟩

variable {w w'}

/-- Translation adds the distance between the two ends, which may be negative. -/
theorem translate_eq_some :
    w.translate a = some b ↔ w.Decodes a ∧ a + w.target = b + w.source := by
  unfold translate
  split
  · rename_i h
    have hle := h.1
    rw [Option.some.injEq]
    refine ⟨fun heq => ⟨h, by omega⟩, fun heq => ?_⟩
    have hsum := heq.2
    omega
  · rename_i h
    exact ⟨nofun, fun heq => absurd heq.1 h⟩

/-- No address is taken by both. -/
def Apart (w w' : Window) : Prop :=
  w.source + w.size ≤ w'.source ∨ w'.source + w'.size ≤ w.source

instance (w w' : Window) : Decidable (w.Apart w') := inferInstanceAs (Decidable (_ ∨ _))

/-- Windows are apart from one another. -/
theorem Apart.symm (h : w.Apart w') : w'.Apart w := Or.symm h

/-- An address of one of two windows that are apart is none of the other. -/
theorem Apart.not_decodes (h : w.Apart w') (ha : w.Decodes a) : ¬ w'.Decodes a := by
  intro ha'
  obtain ⟨hlow, hhigh⟩ := ha
  obtain ⟨hlow', hhigh'⟩ := ha'
  unfold Apart at h
  omega

/-- Among windows that are pairwise apart, one alone takes an address. -/
theorem eq_of_decodes {ι : Type*} {f : ι → Window} {l : List ι}
    (h : l.Pairwise fun i j => (f i).Apart (f j)) {i j : ι} (hi : i ∈ l) (hj : j ∈ l)
    (ha : (f i).Decodes a) (ha' : (f j).Decodes a) : i = j := by
  by_contra hne
  have hsymm : Std.Symm fun i j => (f i).Apart (f j) := ⟨fun _ _ hapart => hapart.symm⟩
  exact (h.forall hi hj hne).not_decodes ha ha'

/-- So one alone translates it. -/
theorem filterMap_translate {l : List Window} (h : l.Pairwise Apart) (hw : w ∈ l)
    (hb : w.translate a = some b) : (l.filterMap fun v => v.translate a) = [b] := by
  have hdecodes := (translate_eq_some.1 hb).1
  induction l with
  | nil => cases hw
  | cons v l ih =>
    obtain ⟨hhead, htail⟩ := List.pairwise_cons.1 h
    have hnone {u : Window} (hu : ¬ u.Decodes a) : u.translate a = none := if_neg hu
    rcases List.mem_cons.1 hw with rfl | hmem
    · rw [@List.filterMap_cons_some _ _ (fun v => v.translate a) w l b hb]
      refine congrArg (b :: ·) (List.filterMap_eq_nil_iff.2 fun u hu => ?_)
      exact hnone ((hhead u hu).not_decodes hdecodes)
    · rw [@List.filterMap_cons_none _ _ (fun v => v.translate a) v l
        (hnone ((hhead w hmem).symm.not_decodes hdecodes))]
      exact ih htail hmem

end Window

/-! ## Tables -/

section Search

variable {α : Type*} {P : α → Prop} [DecidablePred P] {l : List α} {x : α}

/-- The first entry of a table that passes a test. -/
theorem of_find?_eq_some (h : (l.find? fun x => decide (P x)) = some x) : x ∈ l ∧ P x :=
  ⟨List.mem_of_find?_eq_some h, of_decide_eq_true (List.find?_some (p := fun x => decide (P x)) h)⟩

/-- Nothing is found if and only if nothing passes. -/
theorem find?_eq_none_iff : (l.find? fun x => decide (P x)) = none ↔ ∀ x ∈ l, ¬ P x := by
  rw [List.find?_eq_none]
  exact forall₂_congr fun x _ => by rw [decide_eq_true_iff]

/-- Tests that agree on a table find the same entry. -/
theorem find?_congr {Q : α → Prop} [DecidablePred Q] (h : ∀ x ∈ l, P x ↔ Q x) :
    (l.find? fun x => decide (P x)) = l.find? fun x => decide (Q x) := by
  induction l with
  | nil => rfl
  | cons x l ih =>
    have hhead := h x List.mem_cons_self
    rw [List.find?_cons, List.find?_cons, ih fun y hy => h y (List.mem_cons_of_mem _ hy),
      decide_eq_decide.2 hhead]

end Search

end Windows
