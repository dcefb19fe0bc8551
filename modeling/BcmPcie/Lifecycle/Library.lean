import BcmPcie.Lifecycle.LibNode
import Mathlib.Data.Fintype.Defs

/-! # The life cycle of bcmpcie.library

`LibOpen`, `LibClose` and `LibExpunge` of `pcie_main.c`, run by any number of clients. The first open
brings the controller up (`pcie_hw_init`) and the last close takes it down (`pcie_hw_shutdown`), both
under the library's semaphore, and both can wait on the way: for memory, or for `gic400.library` to
open or close. Whether a phase of the former succeeds is up to the event.

* `lifeStep` — a client goes on to the next point where it can wait.
* `lifeInv_step` — what a step keeps that meets the condition, and what one breaks that does not.
* `lifeSafe_iff` — exactly which runs are safe. -/

namespace BcmPcie

open Runs Tasks

variable {τ : Type*}

/-! ## The base -/

/-- The fields of `PCIELibBase` that stand for the controller; a pointer is there or `NULL`. -/
structure PcieHw where
  ctrlReady : Bool := false
  ctrl : Bool := false
  rootBus : Bool := false
  /-- `devListHead`: the list has at least the root port, once it is built. -/
  devList : Bool := false
  dmaPool : Bool := false
  deriving DecidableEq, Repr

/-- The controller is initialised. -/
def PcieHw.Initialised (hw : PcieHw) : Prop :=
  hw.ctrlReady = true ∧ hw.ctrl = true ∧ hw.rootBus = true ∧ hw.devList = true

instance (hw : PcieHw) : Decidable hw.Initialised := inferInstanceAs (Decidable (_ ∧ _))

/-- `PCIELibBase`. -/
structure PcieLibBase where
  node : LibNode := {}
  /-- The semaphore is held. -/
  semaphore : Bool := false
  hw : PcieHw := {}
  deriving DecidableEq, Repr

/-! ## pcie_hw_init -/

/-- Where `pcie_hw_init` can wait. -/
inductive InitPoint
  /-- In `AllocMem` of the controller. -/
  | ctrl
  /-- In `brcm_pcie_probe`: its memory, `gic400.library`. -/
  | probe
  /-- In `AllocMem` of the root bus. -/
  | rootBus
  /-- In the scan, for the memory of its buses and devices. -/
  | bind
  /-- In `pcie_build_dev_list`, for the first node of the list. -/
  | firstDev
  /-- In `pcie_build_dev_list`, for the nodes behind it. -/
  | moreDevs
  /-- In `dma_pool_create`. -/
  | dmaPool
  /-- In `brcm_pcie_remove`, after a failure. -/
  | remove
  deriving DecidableEq, Repr

/-- What `pcie_hw_init` has set up when it gets to a point. -/
def InitPoint.done : InitPoint → PcieHw
  | .ctrl => {}
  | .probe => { ctrl := true }
  | .rootBus => { ctrl := true }
  | .bind => { ctrl := true, rootBus := true }
  | .firstDev => { ctrl := true, rootBus := true }
  | .moreDevs => { ctrl := true, rootBus := true, devList := true }
  | .dmaPool => { ctrlReady := true, ctrl := true, rootBus := true, devList := true }
  | .remove => { ctrl := true }

/-- The label `err_dev_list`, up to `brcm_pcie_remove`. -/
def PcieHw.errDevList (hw : PcieHw) : PcieHw := { hw with devList := false, rootBus := false }

/-- The label `err_dma_pool`. -/
def PcieHw.errDmaPool (hw : PcieHw) : PcieHw := { hw with ctrlReady := false }.errDevList

/-- The label `err_probe`. -/
def PcieHw.errProbe (hw : PcieHw) : PcieHw := { hw with ctrl := false }

/-- How a phase of `pcie_hw_init` ends. -/
inductive InitNext
  | go (p : InitPoint) (hw : PcieHw)
  | succeed (hw : PcieHw)
  | fail (hw : PcieHw)

/-- `pcie_hw_init` from one point to the next. -/
def initStep (hw : PcieHw) : InitPoint → (ok : Bool) → InitNext
  | .ctrl, true => .go .probe { hw with ctrl := true }
  | .ctrl, false => .fail hw
  | .probe, true => .go .rootBus hw
  | .probe, false => .fail hw.errProbe
  | .rootBus, true => .go .bind { hw with rootBus := true }
  | .rootBus, false => .go .remove hw
  | .bind, true => .go .firstDev hw
  | .bind, false => .go .remove hw.errDevList
  | .firstDev, true => .go .moreDevs { hw with devList := true }
  | .firstDev, false => .go .remove hw.errDevList
  | .moreDevs, true => .go .dmaPool { hw with ctrlReady := true }
  | .moreDevs, false => .go .remove hw.errDevList
  | .dmaPool, true => .succeed { hw with dmaPool := true }
  | .dmaPool, false => .go .remove hw.errDmaPool
  | .remove, _ => .fail hw.errProbe

/-- What is set up when `pcie_hw_init` returns 0. -/
def PcieHw.full : PcieHw := ⟨true, true, true, true, true⟩

/-! ## The calls -/

/-- Where a client is: without an open, in a call at a point where it can wait, or with an open. -/
inductive LibPoint
  | closed
  /-- In `LibOpen`, at `ObtainSemaphore`. -/
  | openWait
  /-- In `LibOpen`, in `pcie_hw_init`. -/
  | init (p : InitPoint)
  | opened
  /-- In `LibClose`, at `ObtainSemaphore`. -/
  | closeWait
  /-- In `LibClose`, where `pcie_hw_shutdown` closes `gic400.library`. -/
  | shutdown
  deriving DecidableEq, Repr

/-- The client's `LibOpen` or `LibClose` has started and not returned. -/
def LibPoint.Running : LibPoint → Prop
  | .closed => False
  | .opened => False
  | _ => True

instance decidableLibRunning (p : LibPoint) : Decidable p.Running := by
  cases p <;> unfold LibPoint.Running <;> infer_instance

/-- The client has the semaphore. -/
def LibPoint.InSection : LibPoint → Prop
  | .init _ => True
  | .shutdown => True
  | _ => False

/-- The client's open is in `lib_OpenCnt`. -/
def LibPoint.Holds : LibPoint → Prop
  | .opened => True
  | .closeWait => True
  | _ => False

/-- A client starts a call, or the call it is in goes on; what the call has waited for, if it can
fail, is granted or not. -/
inductive LibEvent
  | libOpen
  | libClose
  | libExpunge
  | run (ok : Bool)
  deriving DecidableEq, Repr

/-- The base while a client holds the semaphore. -/
def PcieLibBase.obtained (g : PcieLibBase) : PcieLibBase := { g with semaphore := true }

/-- The base with the semaphore free and the controller's fields as given. -/
def PcieLibBase.released (g : PcieLibBase) (hw : PcieHw) : PcieLibBase :=
  { g with semaphore := false, hw := hw }

/-- A client starts a call or its call goes on. `LibClose` matches an open that succeeded, and no call
starts on a base that is gone. -/
def lifeStep (g : PcieLibBase) (p : LibPoint) (e : LibEvent) : Option (PcieLibBase × LibPoint) :=
  if g.node.removed then none
  else
    match p, e with
    | .closed, .libOpen => some (g, .openWait)
    | .opened, .libClose => some (g, .closeWait)
    | .closed, .libExpunge => some ({ g with node := g.node.expunge }, .closed)
    | .opened, .libExpunge => some ({ g with node := g.node.expunge }, .opened)
    | .openWait, .run _ =>
      if g.semaphore then none
      else if g.hw.ctrlReady then some ({ g with node := g.node.opened }, .opened)
      else some (g.obtained, .init .ctrl)
    | .init p, .run ok =>
      match initStep g.hw p ok with
      | .go p hw => some ({ g with hw := hw }, .init p)
      | .succeed hw => some ({ g.released hw with node := g.node.opened }, .opened)
      | .fail hw => some (g.released hw, .closed)
    | .closeWait, .run _ =>
      if g.semaphore then none
      else
        let g := { g with node := g.node.closed }
        if g.node.openCnt = 0 then
          some ({ g.obtained with hw := { g.hw with devList := false } }, .shutdown)
        else some (g, .closed)
    | .shutdown, .run _ =>
      -- the count is read again, with the semaphore given back
      let g := g.released {}
      if g.node.openCnt = 0 ∧ g.node.delexp then
        some ({ g with node := g.node.expunge }, .closed)
      else some (g, .closed)
    | _, _ => none

/-- The library right after `LibInit`. -/
def libInit : Config τ PcieLibBase LibPoint := ⟨{}, fun _ => .closed⟩

/-- One step of an interleaving of the clients. -/
abbrev libRunStep [DecidableEq τ] : Config τ PcieLibBase LibPoint → τ × LibEvent →
    Option (Config τ PcieLibBase LibPoint) :=
  Tasks.step lifeStep

/-! ## One move -/

/-- The moves of a client on a base that is there. -/
inductive LifeMove (g : PcieLibBase) : LibPoint → LibEvent → PcieLibBase → LibPoint → Prop
  | libOpen : LifeMove g .closed .libOpen g .openWait
  | libClose : LifeMove g .opened .libClose g .closeWait
  | expunge (p : LibPoint) (hp : p = .closed ∨ p = .opened) :
      LifeMove g p .libExpunge { g with node := g.node.expunge } p
  | reopen (ok : Bool) (hfree : g.semaphore = false) (hready : g.hw.ctrlReady = true) :
      LifeMove g .openWait (.run ok) { g with node := g.node.opened } .opened
  | firstOpen (ok : Bool) (hfree : g.semaphore = false) (hready : g.hw.ctrlReady = false) :
      LifeMove g .openWait (.run ok) g.obtained (.init .ctrl)
  | initGo (p p' : InitPoint) (ok : Bool) (hw : PcieHw) (h : initStep g.hw p ok = .go p' hw) :
      LifeMove g (.init p) (.run ok) { g with hw := hw } (.init p')
  | initSucceed (p : InitPoint) (ok : Bool) (hw : PcieHw) (h : initStep g.hw p ok = .succeed hw) :
      LifeMove g (.init p) (.run ok) { g.released hw with node := g.node.opened } .opened
  | initFail (p : InitPoint) (ok : Bool) (hw : PcieHw) (h : initStep g.hw p ok = .fail hw) :
      LifeMove g (.init p) (.run ok) (g.released hw) .closed
  | closeLast (ok : Bool) (hfree : g.semaphore = false) (hlast : g.node.closed.openCnt = 0) :
      LifeMove g .closeWait (.run ok)
        ⟨g.node.closed, true, { g.hw with devList := false }⟩ .shutdown
  | close (ok : Bool) (hfree : g.semaphore = false) (hlast : g.node.closed.openCnt ≠ 0) :
      LifeMove g .closeWait (.run ok) { g with node := g.node.closed } .closed
  | shutdownExpunge (ok : Bool) (hcnt : g.node.openCnt = 0) (hdelexp : g.node.delexp = true) :
      LifeMove g .shutdown (.run ok) { g.released {} with node := g.node.expunge } .closed
  | shutdown (ok : Bool) (h : ¬ (g.node.openCnt = 0 ∧ g.node.delexp = true)) :
      LifeMove g .shutdown (.run ok) (g.released {}) .closed

/-- A step of the library is one of its moves, before the node was removed. -/
theorem lifeStep_move {g g' : PcieLibBase} {p p' : LibPoint} {e : LibEvent}
    (h : lifeStep g p e = some (g', p')) : g.node.removed = false ∧ LifeMove g p e g' p' := by
  unfold lifeStep at h
  by_cases hgone : g.node.removed = true
  · rw [if_pos hgone] at h
    exact absurd h (by simp)
  rw [if_neg hgone] at h
  refine ⟨by simpa using hgone, ?_⟩
  -- the branches in the order of the definition: the four events, then the points of a running call
  split at h
  · cases h
    exact .libOpen
  · cases h
    exact .libClose
  · cases h
    exact .expunge _ (Or.inl rfl)
  · cases h
    exact .expunge _ (Or.inr rfl)
  · split at h
    · exact absurd h (by simp)
    · rename_i hfree
      split at h
      · rename_i hready
        cases h
        exact .reopen _ (by simpa using hfree) hready
      · rename_i hready
        cases h
        exact .firstOpen _ (by simpa using hfree) (by simpa using hready)
  · split at h
    · rename_i hinit
      cases h
      exact .initGo _ _ _ _ hinit
    · rename_i hinit
      cases h
      exact .initSucceed _ _ _ hinit
    · rename_i hinit
      cases h
      exact .initFail _ _ _ hinit
  · split at h
    · exact absurd h (by simp)
    · rename_i hfree
      dsimp only at h
      split at h
      · rename_i hlast
        cases h
        exact .closeLast _ (by simpa using hfree) hlast
      · rename_i hlast
        cases h
        exact .close _ (by simpa using hfree) hlast
  · dsimp only at h
    split at h
    · rename_i hexp
      cases h
      exact .shutdownExpunge _ hexp.1 hexp.2
    · rename_i hexp
      cases h
      exact .shutdown _ hexp
  · exact absurd h (by simp)

/-! ## The invariant -/

/-- What a phase of `pcie_hw_init` leaves is what the next point, success or failure expects. -/
theorem initStep_done (p : InitPoint) (ok : Bool) :
    match initStep p.done p ok with
    | .go p' hw => hw = p'.done
    | .succeed hw => hw = PcieHw.full
    | .fail hw => hw = {} := by
  cases p <;> cases ok <;> rfl

/-- What the base looks like to a client in the critical section: nobody has the library open, and the
fields of the controller are those set up so far. -/
def PcieLibBase.SeenFrom (g : PcieLibBase) : LibPoint → Prop
  | .init p => g.node.openCnt = 0 ∧ g.hw = p.done
  | .shutdown => g.node.openCnt = 0
  | _ => True

/-- Outside the section a task relies on nothing. -/
theorem seenFrom_of_not_inSection {g : PcieLibBase} {p : LibPoint} (h : ¬ p.InSection) :
    g.SeenFrom p := by
  cases p with
  | init => exact absurd trivial h
  | shutdown => exact absurd trivial h
  | closed | openWait | opened | closeWait => exact trivial

/-- What a task relies on is the count and the hardware. -/
theorem seenFrom_congr {g g' : PcieLibBase} {p : LibPoint} (h : g.SeenFrom p)
    (hcnt : g'.node.openCnt = g.node.openCnt) (hhw : g'.hw = g.hw) : g'.SeenFrom p := by
  cases p with
  | init => exact ⟨hcnt.trans h.1, hhw.trans h.2⟩
  | shutdown => exact hcnt.trans h
  | closed | openWait | opened | closeWait => exact trivial

/-- **The invariant.** The semaphore is held by the client in the critical section, the count is the
number of clients with an open, and while the semaphore is free the controller is set up or not
according to the count. -/
structure LifeInv (s : Config τ PcieLibBase LibPoint) : Prop where
  guarded : Guarded s.shared.semaphore LibPoint.InSection s.point
  counted : Counted LibPoint.Holds s.point s.shared.node.openCnt.toNat
  seen : ∀ t, s.shared.SeenFrom (s.point t)
  free : s.shared.semaphore = false →
    s.shared.hw = if s.shared.node.openCnt = 0 then {} else PcieHw.full
  alive : s.shared.node.removed = true → ∀ t, ¬ (s.point t).Running

/-- At the start the invariant holds. -/
theorem lifeInv_libInit : LifeInv (libInit : Config τ PcieLibBase LibPoint) :=
  ⟨⟨fun _ _ h => absurd h not_false, iff_of_false Bool.false_ne_true fun ⟨_, h⟩ => h⟩,
    Counted.zero fun _ => not_false, fun _ => trivial, fun _ => rfl,
    fun h => absurd h Bool.false_ne_true⟩

/-- **The promise to the clients.** No call is under way on a base that is gone, and while the
semaphore is free the controller is initialised just when the library is open. -/
structure LifeSafe (s : Config τ PcieLibBase LibPoint) : Prop where
  alive : s.shared.node.removed = true → ∀ t, ¬ (s.point t).Running
  ready : s.shared.semaphore = false → (s.shared.hw.Initialised ↔ s.shared.node.openCnt ≠ 0)

/-- In a state of the invariant the library is safe. -/
theorem LifeInv.lifeSafe {s : Config τ PcieLibBase LibPoint} (h : LifeInv s) : LifeSafe s := by
  refine ⟨h.alive, fun hfree => ?_⟩
  rw [h.free hfree]
  split
  · rename_i hzero
    exact iff_of_false (by decide) (not_not.2 hzero)
  · rename_i hopen
    exact iff_of_true (by decide) hopen

/-- What is asked of a client whose call goes on at a point: an open finds room in the count, and the
base is expunged at the end of a close only while no other call is under way. -/
def RunCond (s : Config τ PcieLibBase LibPoint) (t : τ) : LibPoint → Prop
  | .openWait => s.shared.node.openCnt ≠ BitVec.allOnes 16
  | .shutdown => s.shared.node.delexp = true → ∀ u, u ≠ t → ¬ (s.point u).Running
  | _ => True

/-- The condition: the base is expunged only while no other call is under way, and an open finds room
in the count. -/
def LifeCond (s : Config τ PcieLibBase LibPoint) : τ × LibEvent → Prop
  | (_, .libExpunge) => s.shared.node.openCnt = 0 → ∀ u, ¬ (s.point u).Running
  | (t, .run _) => RunCond s t (s.point t)
  | _ => True

section

variable [Fintype τ] [DecidableEq τ] (s : Config τ PcieLibBase LibPoint)

instance decidableRunCond (t : τ) (p : LibPoint) : Decidable (RunCond s t p) := by
  cases p <;> unfold RunCond <;> infer_instance

instance decidableLifeCond (e : τ × LibEvent) : Decidable (LifeCond s e) := by
  obtain ⟨t, e⟩ := e
  cases e <;> unfold LifeCond <;> infer_instance

end

variable [DecidableEq τ] {s s' : Config τ PcieLibBase LibPoint} {t : τ}

/-- A move that leaves the section, the count and the controller alone, on a base that stays. -/
theorem LifeInv.outside (hs : LifeInv s) {p : LibPoint} (hsec : p.InSection ↔ (s.point t).InSection)
    (hnot : ¬ p.InSection) (hholds : p.Holds ↔ (s.point t).Holds)
    (hthere : s.shared.node.removed = false) : LifeInv ⟨s.shared, Function.update s.point t p⟩ :=
  ⟨hs.guarded.keep hsec, hs.counted.keep hholds,
    forall_update (fun u _ => hs.seen u) (seenFrom_of_not_inSection hnot), hs.free,
    fun hgone => absurd (hthere.symm.trans hgone) (by decide)⟩

/-- **LibExpunge.** It keeps the invariant, or frees the base under a running call. -/
theorem lifeInv_expunge (hs : LifeInv s) (hthere : s.shared.node.removed = false) :
    let s' : Config τ PcieLibBase LibPoint :=
      ⟨{ s.shared with node := s.shared.node.expunge }, Function.update s.point t (s.point t)⟩
    LifeCond s (t, .libExpunge) ∧ LifeInv s' ∨ ¬ LifeCond s (t, .libExpunge) ∧ ¬ LifeSafe s' := by
  rw [Function.update_eq_self]
  dsimp only
  have hremoved := expunge_removed_iff s.shared.node hthere
  by_cases hC : LifeCond s (t, .libExpunge)
  · refine Or.inl ⟨hC, hs.guarded, ?_, fun u => seenFrom_congr (hs.seen u) (expunge_openCnt _) rfl, ?_,
      fun hgone => hC (hremoved.1 hgone)⟩
    · simpa only [expunge_openCnt] using hs.counted
    · simpa only [expunge_openCnt] using hs.free
  · refine Or.inr ⟨hC, fun hsafe => hC fun hzero => ?_⟩
    exact hsafe.alive (hremoved.2 hzero)

/-- **The end of LibOpen.** The client that is let in is counted, unless the count is full. -/
theorem lifeInv_reopen (hs : LifeInv s) (ok : Bool) (hpt : s.point t = .openWait)
    (hfree : s.shared.semaphore = false) (hready : s.shared.hw.ctrlReady = true)
    (hthere : s.shared.node.removed = false) :
    let s' : Config τ PcieLibBase LibPoint :=
      ⟨{ s.shared with node := s.shared.node.opened }, Function.update s.point t .opened⟩
    LifeCond s (t, .run ok) ∧ LifeInv s' ∨ ¬ LifeCond s (t, .run ok) ∧ ¬ LifeSafe s' := by
  have hhw := hs.free hfree
  -- the controller is up with the semaphore free, so some client has the library open
  have hopen : s.shared.node.openCnt ≠ 0 := by
    intro hzero
    rw [hhw, if_pos hzero] at hready
    exact absurd hready (by decide)
  rw [if_neg hopen] at hhw
  have hcond : LifeCond s (t, .run ok) ↔ s.shared.node.openCnt ≠ BitVec.allOnes 16 := by
    simp only [LifeCond, RunCond, hpt]
  dsimp only
  by_cases hroom : s.shared.node.openCnt = BitVec.allOnes 16
  · -- the count starts again at zero, with the controller up
    refine Or.inr ⟨fun hC => hcond.1 hC hroom, fun hsafe => ?_⟩
    have hinit : s.shared.hw.Initialised := by rw [hhw]; decide
    exact (hsafe.ready hfree).1 hinit (openCnt_opened_of_allOnes hroom)
  · have hsucc := openCnt_opened hroom
    have hnext : s.shared.node.opened.openCnt ≠ 0 := by
      intro hzero
      rw [hzero] at hsucc
      simp at hsucc
    have hsec : ∀ u, ¬ (s.point u).InSection := by
      have hg := hs.guarded
      rw [hfree] at hg
      exact hg.not_of_free
    refine Or.inl ⟨hcond.2 hroom, hs.guarded.keep ?_, ?_, ?_, fun _ => ?_, fun hgone => ?_⟩
    · exact iff_of_false not_false (hsec t)
    · have hcount := @Counted.add _ _ _ LibPoint.Holds s.point t .opened _ hs.counted
        (by rw [hpt]; exact not_false) trivial
      rwa [← hsucc] at hcount
    · exact forall_update (fun u _ => seenFrom_of_not_inSection (hsec u)) trivial
    · rw [if_neg hnext]
      exact hhw
    · exact absurd (hthere.symm.trans hgone) (by decide)

/-- **In the critical section.** A client that goes on within it, or leaves it with nobody having the
library open, keeps the invariant. -/
theorem LifeInv.within (hs : LifeInv s) (ht : (s.point t).InSection) {g : PcieLibBase} {p : LibPoint}
    (hsem : g.semaphore = true ↔ p.InSection)
    (hcount : Counted LibPoint.Holds (Function.update s.point t p) g.node.openCnt.toNat)
    (hseen : g.SeenFrom p)
    (hfree : g.semaphore = false → g.hw = if g.node.openCnt = 0 then {} else PcieHw.full)
    (halive : g.node.removed = true → ∀ u, ¬ (Function.update s.point t p u).Running) :
    LifeInv ⟨g, Function.update s.point t p⟩ := by
  refine ⟨?_, hcount, forall_update (fun u hu => ?_) hseen, hfree, halive⟩
  · by_cases hp : p.InSection
    · have hheld := hs.guarded.held_iff.2 ⟨t, ht⟩
      have hg := hs.guarded.keep (iff_of_true hp ht)
      rw [hheld] at hg
      rwa [hsem.2 hp]
    · have hg : g.semaphore = false := by simpa only [hp, iff_false, Bool.not_eq_true] using hsem
      rw [hg]
      exact hs.guarded.release ht hp
  · exact seenFrom_of_not_inSection (hs.guarded.not_of_ne ht hu)

/-- **pcie_hw_init.** From one of its points to the next, to success or to failure. -/
theorem lifeInv_init (hs : LifeInv s) {q : InitPoint} (ok : Bool) (hpt : s.point t = .init q)
    (hthere : s.shared.node.removed = false) :
    LifeInv (match initStep s.shared.hw q ok with
      | .go p hw => ⟨{ s.shared with hw := hw }, Function.update s.point t (.init p)⟩
      | .succeed hw => ⟨{ s.shared.released hw with node := s.shared.node.opened },
          Function.update s.point t .opened⟩
      | .fail hw => ⟨s.shared.released hw, Function.update s.point t .closed⟩) := by
  have ht : (s.point t).InSection := by rw [hpt]; exact trivial
  have hheld := hs.guarded.held_iff.2 ⟨t, ht⟩
  have hseen := hs.seen t
  rw [hpt] at hseen
  obtain ⟨hzero, hhw⟩ := hseen
  have hdone := initStep_done q ok
  have hnotHeld : ¬ (s.point t).Holds := by rw [hpt]; exact not_false
  have hgone : ∀ {P : Prop}, s.shared.node.removed = true → P := fun hgone =>
    absurd (hthere.symm.trans hgone) (by decide)
  rw [hhw]
  -- `initStep` goes on, succeeds or fails; the semaphore is released in the last two
  split at hdone
  · rename_i p hw _
    refine hs.within ht (iff_of_true hheld trivial) (hs.counted.keep ?_) ⟨hzero, hdone⟩
      (fun hfree => ?_) hgone
    · exact iff_of_false not_false hnotHeld
    · exact absurd (hheld.symm.trans hfree) (by decide)
  · rename_i hw _
    -- the first open
    have hone : s.shared.node.opened.openCnt = 1 := by rw [opened_openCnt, hzero]; rfl
    refine hs.within ht (iff_of_false (by simp [PcieLibBase.released]) not_false) ?_ trivial
      (fun _ => ?_) hgone
    · have hcount := @Counted.add _ _ _ LibPoint.Holds s.point t .opened _ hs.counted hnotHeld trivial
      rw [hzero] at hcount
      dsimp only
      rw [hone]
      exact hcount
    · dsimp only [PcieLibBase.released]
      rw [hone, if_neg (by decide)]
      exact hdone
  · rename_i hw _
    refine hs.within ht (iff_of_false (by simp [PcieLibBase.released]) not_false)
      (hs.counted.keep (iff_of_false not_false hnotHeld)) trivial (fun _ => ?_) hgone
    have hcnt : (s.shared.released hw).node.openCnt = 0 := hzero
    rw [if_pos hcnt]
    exact hdone

/-- **The end of LibClose.** The last one may free the base, and keeps the invariant unless that is
under a running call. -/
theorem lifeInv_shutdown (hs : LifeInv s) (ok : Bool) (hpt : s.point t = .shutdown)
    (hthere : s.shared.node.removed = false) :
    let s' : Config τ PcieLibBase LibPoint :=
      ⟨{ s.shared.released {} with
          node := if s.shared.node.delexp then s.shared.node.expunge else s.shared.node },
        Function.update s.point t .closed⟩
    LifeCond s (t, .run ok) ∧ LifeInv s' ∨ ¬ LifeCond s (t, .run ok) ∧ ¬ LifeSafe s' := by
  have ht : (s.point t).InSection := by rw [hpt]; exact trivial
  have hseen := hs.seen t
  rw [hpt] at hseen
  have hzero : s.shared.node.openCnt = 0 := hseen
  have hremoved := (expunge_removed_iff s.shared.node hthere).2 hzero
  have hcond : LifeCond s (t, .run ok) ↔
      (s.shared.node.delexp = true → ∀ u, u ≠ t → ¬ (s.point u).Running) := by
    simp only [LifeCond, RunCond, hpt]
  dsimp only
  -- an expunge that was put off is made up for here, whoever else is in a call
  generalize hnode : (if s.shared.node.delexp then s.shared.node.expunge else s.shared.node) = node
  have hcnt : node.openCnt = 0 := by
    rw [← hnode]
    split
    · rw [expunge_openCnt, hzero]
    · exact hzero
  -- the base goes with the last close: fatal just when another client is about to use it
  by_cases hC : LifeCond s (t, .run ok)
  · refine Or.inl ⟨hC, hs.within ht (iff_of_false (by simp [PcieLibBase.released]) not_false) ?_
      trivial (fun _ => ?_) fun hgone => ?_⟩
    · have hcount := @Counted.keep _ _ _ LibPoint.Holds s.point t .closed _ hs.counted
        (iff_of_false not_false (by rw [hpt]; exact not_false))
      dsimp only
      rwa [hcnt, ← hzero]
    · dsimp only [PcieLibBase.released]
      rw [hcnt, if_pos rfl]
    · -- the base is gone, so the expunge was due
      have hdelexp : s.shared.node.delexp = true := by
        by_contra hnot
        rw [if_neg hnot] at hnode
        rw [← hnode] at hgone
        exact absurd (hthere.symm.trans hgone) (by decide)
      exact forall_update (Q := fun p : LibPoint => ¬ p.Running)
        (fun u hu => hcond.1 hC hdelexp u hu) not_false
  · refine Or.inr ⟨hC, fun hsafe => hC (hcond.2 fun hdelexp u hu hrun => ?_)⟩
    rw [if_pos hdelexp] at hnode
    have hnot := hsafe.alive (by dsimp only; rw [← hnode]; exact hremoved) u
    dsimp only at hnot
    rw [Function.update_of_ne hu] at hnot
    exact hnot hrun

/-- **LibClose.** The last client to close goes on to take the controller down. -/
theorem lifeInv_close (hs : LifeInv s) (hpt : s.point t = .closeWait)
    (hfree : s.shared.semaphore = false) (hthere : s.shared.node.removed = false) :
    LifeInv (if s.shared.node.closed.openCnt = 0 then
      ⟨⟨s.shared.node.closed, true, { s.shared.hw with devList := false }⟩,
        Function.update s.point t .shutdown⟩
      else ⟨{ s.shared with node := s.shared.node.closed }, Function.update s.point t .closed⟩) := by
  have hholds : (s.point t).Holds := by rw [hpt]; exact trivial
  have hpos := hs.counted.pos hholds
  have hopen : s.shared.node.openCnt ≠ 0 := by
    intro hzero
    rw [hzero] at hpos
    exact absurd hpos (by decide)
  have hpred := openCnt_closed hopen
  have hcount : ∀ p : LibPoint, ¬ p.Holds →
      Counted LibPoint.Holds (Function.update s.point t p) s.shared.node.closed.openCnt.toNat := by
    intro p hp
    rw [hpred]
    exact hs.counted.sub hholds hp
  have hg := hs.guarded
  rw [hfree] at hg
  have hsec : ∀ u, ¬ (s.point u).InSection := hg.not_of_free
  have hgone : ∀ {P : Prop}, s.shared.node.removed = true → P := fun hgone =>
    absurd (hthere.symm.trans hgone) (by decide)
  -- the last client keeps the semaphore until the controller is down
  split
  · rename_i hlast
    refine ⟨hg.acquire trivial, hcount _ not_false, ?_, fun h => absurd h (by simp), hgone⟩
    exact forall_update (fun u _ => seenFrom_of_not_inSection (hsec u)) hlast
  · rename_i hlast
    refine ⟨hs.guarded.keep (iff_of_false not_false (hsec t)), hcount _ not_false, ?_, fun _ => ?_,
      hgone⟩
    · exact forall_update (fun u _ => seenFrom_of_not_inSection (hsec u)) trivial
    · dsimp only
      rw [if_neg hlast, hs.free hfree, if_neg hopen]

/-- **One step** that meets the condition keeps the invariant, and one that does not breaks the
promise. -/
theorem lifeInv_step {e : τ × LibEvent} (hs : LifeInv s) (hstep : libRunStep s e = some s') :
    LifeCond s e ∧ LifeInv s' ∨ ¬ LifeCond s e ∧ ¬ LifeSafe s' := by
  obtain ⟨t, e⟩ := e
  obtain ⟨g, p, hprog, rfl⟩ := step_eq_some.1 hstep
  obtain ⟨hthere, hmove⟩ := lifeStep_move hprog
  generalize hpt : s.point t = q at hmove
  have hnosec : ∀ {r : LibPoint}, q = r → ¬ r.InSection → ¬ (s.point t).InSection := by
    rintro r rfl hr
    rwa [hpt]
  -- the condition asks something of an expunge, of a `LibOpen` let in and of a shutdown only
  have hcond : ∀ ok, e = .run ok → q ≠ .openWait → q ≠ .shutdown → LifeCond s (t, e) := by
    rintro ok rfl hne hne'
    simp only [LifeCond, RunCond, hpt]
  -- the lemmas above, one for each kind of move; only `firstOpen` is argued here
  cases hmove with
  | libOpen =>
    refine Or.inl ⟨trivial, hs.outside ?_ not_false ?_ hthere⟩
    · exact iff_of_false not_false (hnosec rfl not_false)
    · exact iff_of_false not_false (by rw [hpt]; exact not_false)
  | libClose =>
    refine Or.inl ⟨trivial, hs.outside ?_ not_false ?_ hthere⟩
    · exact iff_of_false not_false (hnosec rfl not_false)
    · exact iff_of_true trivial (by rw [hpt]; exact trivial)
  | expunge _ hp =>
    rw [← hpt]
    exact lifeInv_expunge hs hthere
  | reopen ok hfree hready => exact lifeInv_reopen hs ok hpt hfree hready hthere
  | firstOpen ok hfree hready =>
    have hg := hs.guarded
    rw [hfree] at hg
    have hhw := hs.free hfree
    have hzero : s.shared.node.openCnt = 0 := by
      by_contra hopen
      rw [hhw, if_neg hopen] at hready
      exact absurd hready (by decide)
    rw [if_pos hzero] at hhw
    have hroom : LifeCond s (t, .run ok) := by
      simp only [LifeCond, RunCond, hpt]
      rw [hzero]
      decide
    refine Or.inl ⟨hroom, hg.acquire trivial, hs.counted.keep ?_, ?_, fun h => absurd h (by simp
      [PcieLibBase.obtained]), fun hgone => absurd (hthere.symm.trans hgone) (by decide)⟩
    · exact iff_of_false not_false (by rw [hpt]; exact not_false)
    · exact forall_update (fun u _ => seenFrom_of_not_inSection (hg.not_of_free u)) ⟨hzero, hhw⟩
  | initGo q p ok hw hinit =>
    have hnext := lifeInv_init hs ok hpt hthere
    rw [hinit] at hnext
    exact Or.inl ⟨hcond ok rfl (by simp) (by simp), hnext⟩
  | initSucceed q ok hw hinit =>
    have hnext := lifeInv_init hs ok hpt hthere
    rw [hinit] at hnext
    exact Or.inl ⟨hcond ok rfl (by simp) (by simp), hnext⟩
  | initFail q ok hw hinit =>
    have hnext := lifeInv_init hs ok hpt hthere
    rw [hinit] at hnext
    exact Or.inl ⟨hcond ok rfl (by simp) (by simp), hnext⟩
  | closeLast ok hfree hlast =>
    have hnext := lifeInv_close hs hpt hfree hthere
    rw [if_pos hlast] at hnext
    exact Or.inl ⟨hcond ok rfl (by simp) (by simp), hnext⟩
  | close ok hfree hlast =>
    have hnext := lifeInv_close hs hpt hfree hthere
    rw [if_neg hlast] at hnext
    exact Or.inl ⟨hcond ok rfl (by simp) (by simp), hnext⟩
  | shutdownExpunge ok hcnt hdelexp =>
    have hnext := lifeInv_shutdown hs ok hpt hthere
    dsimp only at hnext
    rwa [if_pos hdelexp] at hnext
  | shutdown ok hnot =>
    have hzero : s.shared.node.openCnt = 0 := by
      have hseen := hs.seen t
      rwa [hpt] at hseen
    have hnext := lifeInv_shutdown hs ok hpt hthere
    dsimp only at hnext
    rwa [if_neg fun hdelexp => hnot ⟨hzero, hdelexp⟩] at hnext

/-! ## Runs -/

/-- **Exact condition.** In just the runs in which the base is expunged only while no other `LibOpen`
or `LibClose` is under way, and in which no open finds the count full, the promise to the clients
holds in every state. -/
theorem lifeSafe_iff {es : List (τ × LibEvent)} (h : exec libRunStep libInit es = some s) :
    Throughout libRunStep LifeSafe libInit es ↔ EveryEvent libRunStep LifeCond libInit es :=
  throughout_iff_everyEvent (fun _ hs => hs.lifeSafe) (fun _ _ _ hstep hs => lifeInv_step hs hstep)
    lifeInv_libInit h

/-- A client opens the library and closes it again, and a second one does while the first is in the way;
then the library is expunged. -/
theorem lifeSafe_iff_sample :
    let es := [(true, .libOpen), (false, .libOpen)] ++ List.replicate 8 (true, .run true) ++
      [(false, .run true), (true, .libClose), (true, .run true), (false, .libClose),
        (false, .run true), (false, .run true), (true, .libExpunge)]
    Throughout libRunStep LifeSafe (libInit : Config Bool _ _) es := by
  intro es
  have hrun : (exec libRunStep (libInit : Config Bool _ _) es).isSome = true := by decide +kernel
  obtain ⟨s, hs⟩ := Option.isSome_iff_exists.1 hrun
  exact (lifeSafe_iff hs).2 (by decide +kernel)

/-- The library is expunged while its first client waits in `LibOpen`, for the controller's memory. -/
theorem lifeSafe_fails_sample :
    ¬ ∀ es : List (Bool × LibEvent), ∀ s, exec libRunStep libInit es = some s →
      Throughout libRunStep LifeSafe libInit es := by
  intro hall
  have hrun : (exec libRunStep libInit [(true, .libOpen), (true, .run true), (false, .libExpunge)]
      : Option (Config Bool _ _)).isSome = true := by decide
  obtain ⟨s, hs⟩ := Option.isSome_iff_exists.1 hrun
  have hsafe := hall _ s hs _ [] s (List.append_nil _).symm hs
  have hbad : ∀ u, exec libRunStep libInit [(true, .libOpen), (true, .run true),
      (false, .libExpunge)] = some u → u.shared.node.removed = true ∧ (u.point true).Running := by
    intro u hu
    cases hu
    exact ⟨rfl, trivial⟩
  obtain ⟨hgone, hrunning⟩ := hbad s hs
  exact hsafe.alive hgone true hrunning

end BcmPcie
