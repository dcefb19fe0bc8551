import BcmPcie.Lifecycle.LibNode
import Mathlib.Data.Fintype.Defs

/-! # The life cycle of openpci.library

`LibOpen` and `LibClose` of the shim `openpci_main.c`, run by any number of clients, with `LibExpunge`.
The first open opens `bcmpcie.library` and the last close closes it; both wait there, and the shim has
no lock. What clients call in between goes through `bcmBase` without a look at it.

* `shimStep` — a client goes on to the next point where it can wait.
* `shimInv_step` — what every step that meets the condition keeps.
* `shimSafe_run` — a run whose steps do is safe. -/

namespace BcmPcie

open Runs Tasks

variable {τ : Type*}

/-- `OpenPCIBase`, with the account of `bcmpcie.library`. -/
structure OpenPciBase where
  node : LibNode := {}
  /-- `bcmBase` is not `NULL`. -/
  bcmBase : Bool := false
  /-- Opens of `bcmpcie.library` that have succeeded, less its closes. -/
  bcmOpens : ℤ := 0
  deriving DecidableEq, Repr

/-- Where a client is. -/
inductive ShimPoint
  | closed
  /-- In `LibOpen`, in `OpenLibrary` of `bcmpcie.library`. -/
  | opening
  | opened
  /-- In `LibClose`, in `CloseLibrary` of what was read from `bcmBase`. -/
  | closing (base : Bool)
  deriving DecidableEq, Repr

/-- The client's call has started and not returned. -/
def ShimPoint.Running : ShimPoint → Prop
  | .opening => True
  | .closing _ => True
  | _ => False

instance decidableShimRunning (p : ShimPoint) : Decidable p.Running := by
  cases p <;> unfold ShimPoint.Running <;> infer_instance

/-- A client starts a call, or the call it is in goes on, with what `OpenLibrary` has answered. -/
inductive ShimEvent
  | libOpen
  | libClose
  | libExpunge
  | run (ok : Bool)
  deriving DecidableEq, Repr

/-- The base once `LibOpen` has found `bcmBase`, or stored it. -/
def OpenPciBase.opened (g : OpenPciBase) : OpenPciBase := { g with node := g.node.opened }

/-- The base once `OpenLibrary` has answered: the pointer is stored whatever is there by now. -/
def OpenPciBase.answered (g : OpenPciBase) (ok : Bool) : OpenPciBase :=
  { g with bcmBase := ok, bcmOpens := if ok then g.bcmOpens + 1 else g.bcmOpens }

/-- The base once `CloseLibrary` has come back; of `NULL` it closes nothing. -/
def OpenPciBase.dropped (g : OpenPciBase) (base : Bool) : OpenPciBase :=
  { g with bcmBase := false, bcmOpens := if base then g.bcmOpens - 1 else g.bcmOpens }

/-- A client starts a call or its call goes on. -/
def shimStep (g : OpenPciBase) (p : ShimPoint) (e : ShimEvent) :
    Option (OpenPciBase × ShimPoint) :=
  if g.node.removed then none
  else
    match p, e with
    | .closed, .libOpen =>
      if g.bcmBase then some (g.opened, .opened) else some (g, .opening)
    | .opening, .run true => some ((g.answered true).opened, .opened)
    | .opening, .run false => some (g.answered false, .closed)
    | .opened, .libClose =>
      let g := { g with node := g.node.closed }
      if g.node.openCnt = 0 then some (g, .closing g.bcmBase) else some (g, .closed)
    | .closing base, .run _ =>
      let g := g.dropped base
      if g.node.delexp then some ({ g with node := g.node.expunge }, .closed) else some (g, .closed)
    | .closed, .libExpunge => some ({ g with node := g.node.expunge }, .closed)
    | .opened, .libExpunge => some ({ g with node := g.node.expunge }, .opened)
    | _, _ => none

/-- The shim right after `LibInit`. -/
def shimInit : Config τ OpenPciBase ShimPoint := ⟨{}, fun _ => .closed⟩

/-- One step of an interleaving of the clients. -/
abbrev shimRunStep [DecidableEq τ] : Config τ OpenPciBase ShimPoint → τ × ShimEvent →
    Option (Config τ OpenPciBase ShimPoint) :=
  Tasks.step shimStep

/-- **The promise to the clients.** When no call is under way the shim has `bcmpcie.library` open once,
and a pointer to it, while it is open itself, and otherwise not at all; and a client with an open finds
the pointer. -/
structure ShimSafe (s : Config τ OpenPciBase ShimPoint) : Prop where
  quiet : (∀ t, ¬ (s.point t).Running) →
    if s.shared.node.openCnt = 0 then s.shared.bcmOpens = 0 ∧ s.shared.bcmBase = false
    else s.shared.bcmOpens = 1 ∧ s.shared.bcmBase = true
  base : ∀ t, s.point t = .opened → s.shared.bcmBase = true

/-! ## One move -/

/-- The moves of a client on a base that is there. -/
inductive ShimMove (g : OpenPciBase) : ShimPoint → ShimEvent → OpenPciBase → ShimPoint → Prop
  | reopen (hbase : g.bcmBase = true) : ShimMove g .closed .libOpen g.opened .opened
  | firstOpen (hbase : g.bcmBase = false) : ShimMove g .closed .libOpen g .opening
  | answered : ShimMove g .opening (.run true) (g.answered true).opened .opened
  | refused : ShimMove g .opening (.run false) (g.answered false) .closed
  | closeLast (hlast : g.node.closed.openCnt = 0) :
      ShimMove g .opened .libClose { g with node := g.node.closed } (.closing g.bcmBase)
  | close (hlast : g.node.closed.openCnt ≠ 0) :
      ShimMove g .opened .libClose { g with node := g.node.closed } .closed
  | dropped (base ok : Bool) : ShimMove g (.closing base) (.run ok)
      { g.dropped base with node := if g.node.delexp then g.node.expunge else g.node } .closed
  | expunge (p : ShimPoint) (hp : p = .closed ∨ p = .opened) :
      ShimMove g p .libExpunge { g with node := g.node.expunge } p

/-- A step of the shim is one of its moves, before the node was removed. -/
theorem shimStep_move {g g' : OpenPciBase} {p p' : ShimPoint} {e : ShimEvent}
    (h : shimStep g p e = some (g', p')) : g.node.removed = false ∧ ShimMove g p e g' p' := by
  unfold shimStep at h
  by_cases hgone : g.node.removed = true
  · rw [if_pos hgone] at h
    exact absurd h (by simp)
  rw [if_neg hgone] at h
  refine ⟨by simpa using hgone, ?_⟩
  split at h
  · split at h
    · rename_i hbase
      cases h
      exact .reopen hbase
    · rename_i hbase
      cases h
      exact .firstOpen (by simpa using hbase)
  · cases h
    exact .answered
  · cases h
    exact .refused
  · dsimp only at h
    split at h
    · rename_i hlast
      cases h
      exact .closeLast hlast
    · rename_i hlast
      cases h
      exact .close hlast
  · rename_i base ok
    have hdrop := @ShimMove.dropped g base ok
    dsimp only [OpenPciBase.dropped] at h hdrop
    split at h
    · rename_i hdelexp
      rw [if_pos hdelexp] at hdrop
      cases h
      exact hdrop
    · rename_i hdelexp
      rw [if_neg hdelexp] at hdrop
      cases h
      exact hdrop
  · cases h
    exact .expunge _ (Or.inl rfl)
  · cases h
    exact .expunge _ (Or.inr rfl)
  · exact absurd h (by simp)

/-! ## The invariant -/

/-- The client is about to store `NULL`. -/
def ShimPoint.Closing : ShimPoint → Prop
  | .closing _ => True
  | _ => False

instance decidableClosing (p : ShimPoint) : Decidable p.Closing := by
  cases p <;> unfold ShimPoint.Closing <;> infer_instance

/-- What is asked of an answer of `OpenLibrary`: it finds `bcmBase` still unset. -/
def AnswerCond (g : OpenPciBase) : ShimPoint → Prop
  | .opening => g.bcmBase = false
  | _ => True

/-- The condition: a `LibOpen` that finds `bcmBase` finds no client in `CloseLibrary` and room in the
count, and an answer of `OpenLibrary` finds `bcmBase` still unset. -/
def ShimCond (s : Config τ OpenPciBase ShimPoint) : τ × ShimEvent → Prop
  | (_, .libOpen) => s.shared.bcmBase = true →
      (∀ u, ¬ (s.point u).Closing) ∧ s.shared.node.openCnt ≠ BitVec.allOnes 16
  | (t, .run _) => AnswerCond s.shared (s.point t)
  | _ => True

instance decidableAnswerCond (g : OpenPciBase) (p : ShimPoint) : Decidable (AnswerCond g p) := by
  cases p <;> unfold AnswerCond <;> infer_instance

instance decidableShimCond [Fintype τ] (s : Config τ OpenPciBase ShimPoint) (e : τ × ShimEvent) :
    Decidable (ShimCond s e) := by
  obtain ⟨t, e⟩ := e
  cases e <;> unfold ShimCond <;> infer_instance

/-- **The invariant.** The count is the number of clients with an open; the pointer is set while there
are some, and while the last one is closing; `bcmpcie.library` is open once with it, and not at all
without. -/
structure ShimInv (s : Config τ OpenPciBase ShimPoint) : Prop where
  counted : Counted (· = ShimPoint.opened) s.point s.shared.node.openCnt.toNat
  closing : Guarded (s.shared.bcmBase && s.shared.node.openCnt == 0) ShimPoint.Closing s.point
  unset : s.shared.bcmBase = false → s.shared.node.openCnt = 0
  opens : s.shared.bcmOpens = if s.shared.bcmBase then 1 else 0
  argument : ∀ t base, s.point t = .closing base → base = true

/-- At the start the invariant holds. -/
theorem shimInv_shimInit : ShimInv (shimInit : Config τ OpenPciBase ShimPoint) :=
  ⟨Counted.zero fun _ => by simp [shimInit], ⟨fun _ _ h => absurd h not_false,
    iff_of_false Bool.false_ne_true fun ⟨_, h⟩ => h⟩, fun _ => rfl, rfl, fun _ _ h => by
      simp [shimInit] at h⟩

/-- In a state of the invariant the shim is safe. -/
theorem ShimInv.shimSafe {s : Config τ OpenPciBase ShimPoint} (h : ShimInv s) : ShimSafe s := by
  have hset : s.shared.node.openCnt ≠ 0 → s.shared.bcmBase = true := by
    intro hopen
    by_contra hnot
    exact hopen (h.unset (by simpa using hnot))
  -- a pointer that is set without an open belongs to a client that is closing
  refine ⟨fun hquiet => ?_, fun t ht => hset ?_⟩
  · split
    · rename_i hzero
      have hunset : s.shared.bcmBase = false := by
        by_contra hnot
        have hheld : (s.shared.bcmBase && s.shared.node.openCnt == 0) = true := by
          have hset : s.shared.bcmBase = true := by simpa using hnot
          rw [hset, hzero]
          rfl
        obtain ⟨u, hu⟩ := h.closing.held_iff.1 hheld
        refine hquiet u ?_
        cases hpu : s.point u with
        | closing => exact trivial
        | closed | opening | opened =>
          rw [hpu] at hu
          exact absurd hu not_false
      refine ⟨?_, hunset⟩
      rw [h.opens, hunset]
      rfl
    · rename_i hopen
      refine ⟨?_, hset hopen⟩
      rw [h.opens, hset hopen]
      rfl
  · intro hzero
    have hpos := h.counted.pos ht
    rw [hzero] at hpos
    exact absurd hpos (by decide)

variable [DecidableEq τ] {s s' : Config τ OpenPciBase ShimPoint} {t : τ}

/-- A client that comes or goes while none is closing the other library, with the pointer set for as
long as there are clients. -/
theorem ShimInv.move (hs : ShimInv s) {g : OpenPciBase} {p : ShimPoint}
    (hcount : Counted (· = ShimPoint.opened) (Function.update s.point t p) g.node.openCnt.toNat)
    (hclosing : Guarded (g.bcmBase && g.node.openCnt == 0) ShimPoint.Closing
      (Function.update s.point t p))
    (hunset : g.bcmBase = false → g.node.openCnt = 0)
    (hopens : g.bcmOpens = if g.bcmBase then 1 else 0)
    (harg : ∀ base, p = .closing base → base = true) :
    ShimInv ⟨g, Function.update s.point t p⟩ :=
  ⟨hcount, hclosing, hunset, hopens,
    forall_update (Q := fun q : ShimPoint => ∀ base, q = .closing base → base = true)
      (fun u _ => hs.argument u) harg⟩

/-- **LibOpen comes back.** The client is counted, with the pointer set. -/
theorem ShimInv.opened (hs : ShimInv s) {g : OpenPciBase} (ht : s.point t ≠ .opened)
    (hnode : g.node = s.shared.node) (hbase : g.bcmBase = true) (hopens : g.bcmOpens = 1)
    (hnone : ∀ u, ¬ (s.point u).Closing) (hroom : s.shared.node.openCnt ≠ BitVec.allOnes 16) :
    ShimInv ⟨g.opened, Function.update s.point t .opened⟩ := by
  have hsucc := openCnt_opened hroom
  have hnext : s.shared.node.opened.openCnt ≠ 0 := by
    intro hzero
    rw [hzero] at hsucc
    simp at hsucc
  -- nobody is closing, before or after: the count is not zero
  have hidle : (s.shared.bcmBase && s.shared.node.openCnt == 0) = false := by
    by_contra hheld
    obtain ⟨u, hu⟩ := hs.closing.held_iff.1 (by simpa using hheld)
    exact hnone u hu
  have hidle' : (g.opened.bcmBase && g.opened.node.openCnt == 0) = false := by
    have hne : (g.opened.node.openCnt == 0) = false := by
      rw [OpenPciBase.opened, hnode, beq_eq_false_iff_ne]
      exact hnext
    rw [hne, Bool.and_false]
  refine hs.move ?_ ?_ (fun hunset => ?_) ?_ (fun base h => absurd h (by simp))
  · have hcount := hs.counted.add ht (p := .opened) rfl
    rw [← hsucc] at hcount
    rwa [OpenPciBase.opened, hnode]
  · have hkeep := @Guarded.keep _ _ _ ShimPoint.Closing s.point t .opened _ hs.closing
      (iff_of_false not_false (hnone t))
    rw [hidle] at hkeep
    rwa [hidle']
  · exact absurd (hbase.symm.trans hunset) (by decide)
  · have hset : g.opened.bcmBase = true := hbase
    rw [hset, if_pos rfl]
    exact hopens

/-- **LibClose starts.** The client is not counted any more, and the last one goes on to close the
other library. -/
theorem ShimInv.closed (hs : ShimInv s) (ht : s.point t = .opened) :
    ShimInv ⟨{ s.shared with node := s.shared.node.closed }, Function.update s.point t
      (if s.shared.node.closed.openCnt = 0 then .closing s.shared.bcmBase else .closed)⟩ := by
  have hpos := hs.counted.pos ht
  have hopen : s.shared.node.openCnt ≠ 0 := by
    intro hzero
    rw [hzero] at hpos
    exact absurd hpos (by decide)
  have hset : s.shared.bcmBase = true := by
    by_contra hnot
    exact hopen (hs.unset (by simpa using hnot))
  have hpred := openCnt_closed hopen
  have hidle : (s.shared.bcmBase && s.shared.node.openCnt == 0) = false := by
    rw [beq_eq_false_iff_ne.2 hopen, Bool.and_false]
  have hg := hs.closing
  rw [hidle] at hg
  have hcount : ∀ p : ShimPoint, p ≠ .opened → Counted (· = ShimPoint.opened)
      (Function.update s.point t p) s.shared.node.closed.openCnt.toNat := by
    intro p hp
    rw [hpred]
    exact hs.counted.sub ht hp
  -- the last client takes over the duty to close the other library
  split
  · rename_i hlast
    refine hs.move (hcount _ (by simp)) ?_ (fun hunset => ?_) hs.opens fun base h => ?_
    · dsimp only
      rw [hset, hlast]
      exact hg.acquire trivial
    · exact absurd (hset.symm.trans hunset) (by decide)
    · cases h
      exact hset
  · rename_i hlast
    refine hs.move (hcount _ (by simp)) ?_ (fun hunset => ?_) hs.opens fun base h => absurd h (by simp)
    · dsimp only
      rw [beq_eq_false_iff_ne.2 hlast, Bool.and_false]
      exact hg.keep (iff_of_false not_false (by rw [ht]; exact not_false))
    · exact absurd (hset.symm.trans hunset) (by decide)

/-- **LibClose comes back.** The other library is closed, and the pointer gone. -/
theorem ShimInv.dropped (hs : ShimInv s) {base : Bool} (ht : s.point t = .closing base) :
    ShimInv ⟨{ s.shared.dropped base with
        node := if s.shared.node.delexp then s.shared.node.expunge else s.shared.node },
      Function.update s.point t .closed⟩ := by
  obtain rfl := hs.argument t base ht
  have hclosing : (s.point t).Closing := by rw [ht]; exact trivial
  have hheld := hs.closing.held_iff.2 ⟨t, hclosing⟩
  rw [Bool.and_eq_true, beq_iff_eq] at hheld
  obtain ⟨hset, hzero⟩ := hheld
  have hopens := hs.opens
  rw [hset, if_pos rfl] at hopens
  generalize hnode : (if s.shared.node.delexp then s.shared.node.expunge else s.shared.node) = node
  have hcnt : node.openCnt = s.shared.node.openCnt := by
    rw [← hnode]
    split
    · exact expunge_openCnt _
    · rfl
  refine hs.move ?_ ?_ (fun _ => hcnt.trans hzero) ?_ fun base h => absurd h (by simp)
  · have hkeep := hs.counted.keep (t := t) (p := .closed)
      (iff_of_false (by simp) (by rw [ht]; simp))
    dsimp only
    rwa [hcnt]
  · exact hs.closing.release hclosing not_false
  · simp only [OpenPciBase.dropped, if_true, hopens]
    simp

/-- **One step** that meets the condition keeps the invariant. -/
theorem shimInv_step {e : τ × ShimEvent} (hstep : shimRunStep s e = some s') (hC : ShimCond s e)
    (hs : ShimInv s) : ShimInv s' := by
  obtain ⟨t, e⟩ := e
  obtain ⟨g, p, hprog, rfl⟩ := step_eq_some.1 hstep
  obtain ⟨-, hmove⟩ := shimStep_move hprog
  generalize hpt : s.point t = q at hmove
  -- a client in `CloseLibrary` still has the pointer set
  have hquiet : s.shared.bcmBase = false → ∀ u, ¬ (s.point u).Closing := by
    intro hunset u hu
    have hheld := hs.closing.held_iff.2 ⟨u, hu⟩
    rw [hunset] at hheld
    exact absurd hheld (by simp)
  cases hmove with
  | reopen hbase =>
    obtain ⟨hnone, hroom⟩ := hC hbase
    have hopens := hs.opens
    rw [hbase, if_pos rfl] at hopens
    exact hs.opened (by rw [hpt]; simp) rfl hbase hopens hnone hroom
  | firstOpen hbase =>
    refine hs.move (hs.counted.keep ?_) (hs.closing.keep ?_) hs.unset hs.opens
      fun base h => absurd h (by simp)
    · exact iff_of_false (by simp) (by rw [hpt]; simp)
    · exact iff_of_false not_false (hquiet hbase t)
  | answered =>
    simp only [ShimCond, hpt] at hC
    have hunset : s.shared.bcmBase = false := hC
    have hopens := hs.opens
    rw [hunset, if_neg (by decide)] at hopens
    refine hs.opened (by rw [hpt]; simp) rfl rfl ?_ (hquiet hunset) ?_
    · simp only [OpenPciBase.answered, if_true, hopens]
      rfl
    · rw [hs.unset hunset]
      decide
  -- the answer stores the `NULL` that was there
  | refused =>
    simp only [ShimCond, hpt] at hC
    have hunset : s.shared.bcmBase = false := hC
    have hsame : s.shared.answered false = s.shared := by
      rw [OpenPciBase.answered, ← hunset, hunset]
      simp only [Bool.false_eq_true, if_false]
      rw [← hunset]
    rw [hsame]
    refine hs.move (hs.counted.keep ?_) (hs.closing.keep ?_) hs.unset hs.opens
      fun base h => absurd h (by simp)
    · exact iff_of_false (by simp) (by rw [hpt]; simp)
    · exact iff_of_false not_false (hquiet hunset t)
  | closeLast hlast =>
    have hnext := hs.closed hpt
    rwa [if_pos hlast] at hnext
  | close hlast =>
    have hnext := hs.closed hpt
    rwa [if_neg hlast] at hnext
  | dropped base ok => exact hs.dropped hpt
  | expunge _ hp =>
    rw [← hpt, Function.update_eq_self]
    refine ⟨?_, ?_, ?_, hs.opens, hs.argument⟩
    · simpa only [expunge_openCnt] using hs.counted
    · simpa only [expunge_openCnt] using hs.closing
    · simpa only [expunge_openCnt] using hs.unset

/-! ## Runs -/

/-- **The condition is enough.** In a run in which no client opens the shim while another is in
`CloseLibrary`, no answer of `OpenLibrary` comes to a pointer that has been set meanwhile and no open
finds the count full, the promise to the clients holds in every state. -/
theorem shimSafe_run (es : List (τ × ShimEvent)) (hC : EveryEvent shimRunStep ShimCond shimInit es) :
    Throughout shimRunStep ShimSafe shimInit es := fun es₁ es₂ u hes hu =>
  (throughout_of_everyEvent (fun _ _ _ hstep hC hs => shimInv_step hstep hC hs) shimInv_shimInit hC
    es₁ es₂ u hes hu).shimSafe

/-- One client after the other, the second one with two opens in a row by its side. -/
theorem shimSafe_run_sample :
    Throughout shimRunStep ShimSafe (shimInit : Config Bool _ _)
      [(true, .libOpen), (true, .run true), (false, .libOpen), (true, .libClose),
        (false, .libClose), (false, .run true), (true, .libOpen), (true, .run false)] :=
  shimSafe_run _ (by decide +kernel)

/-- The last client closes the shim and waits in `CloseLibrary`; another one opens it meanwhile, and
then loses the pointer. -/
theorem shimSafe_fails_sample :
    ¬ ∀ es : List (Bool × ShimEvent), Throughout shimRunStep ShimSafe shimInit es := by
  intro hall
  have hrun : (exec shimRunStep shimInit [(true, .libOpen), (true, .run true), (true, .libClose),
      (false, .libOpen), (true, .run true)] : Option (Config Bool _ _)).isSome = true := by decide
  obtain ⟨s, hs⟩ := Option.isSome_iff_exists.1 hrun
  have hsafe := hall _ _ [] s (List.append_nil _).symm hs
  have hbad : ∀ u, exec shimRunStep shimInit [(true, .libOpen), (true, .run true),
      (true, .libClose), (false, .libOpen), (true, .run true)] = some u →
      u.point false = .opened ∧ u.shared.bcmBase = false := by
    intro u hu
    cases hu
    exact ⟨rfl, rfl⟩
  obtain ⟨hopened, hgone⟩ := hbad s hs
  exact absurd ((hsafe.base false hopened).symm.trans hgone) (by decide)

end BcmPcie
