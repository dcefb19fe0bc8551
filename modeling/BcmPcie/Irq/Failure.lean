import BcmPcie.Irq.LibraryCalls

/-! # Calls that fail

An allocation or a registration that fails leaves everything as it was, the scratch slots of an idle
device apart. The obsolete `pci_add_intserver` is two core calls, so its second failure has the first
success to undo.

* `libAddIntServer_of_false` — the undoing is complete.
* `failed_unchanged` — no failing call of a run changes the state. -/

namespace BcmPcie

open Runs

variable {ι σ : Type*}

/-- The second state is the first, but for the scratch slots of devices without an allocation. -/
structure SameButScratch (s s' : IrqState ι σ) : Prop where
  pcie : s'.pcie = s.pcie
  devs : ∀ i, ∃ slots, s'.devs i = (s.devs i).setSlots slots ∧
    ((s.devs i).active.mode ≠ .idle → slots = (s.devs i).active.slots)

/-- A state is the same as itself. -/
theorem SameButScratch.refl (s : IrqState ι σ) : SameButScratch s s :=
  ⟨rfl, fun i => ⟨(s.devs i).active.slots, rfl, fun _ => rfl⟩⟩

/-- A record put back with other slots is the same if the function is idle. -/
theorem sameButScratch_put [DecidableEq ι] (s : IrqState ι σ) (i : ι) {pcie : PciController σ}
    {dev : PciDevice} {slots : ℕ → ℕ} (hpcie : pcie = s.pcie)
    (hdev : dev = (s.devs i).setSlots slots)
    (hslots : (s.devs i).active.mode ≠ .idle → slots = (s.devs i).active.slots) :
    SameButScratch s (s.put i pcie dev) := by
  refine ⟨hpcie, fun j => ?_⟩
  by_cases hj : j = i
  · subst hj
    rw [put_devs_self]
    exact ⟨slots, hdev, hslots⟩
  · rw [put_devs_of_ne _ _ _ _ hj]
    exact (SameButScratch.refl s).devs j

@[simp] theorem put_put [DecidableEq ι] (s : IrqState ι σ) (i : ι) (pcie pcie' : PciController σ)
    (dev dev' : PciDevice) : (s.put i pcie dev).put i pcie' dev' = s.put i pcie' dev' := by
  unfold IrqState.put
  rw [Function.update_idem]

/-! ## The core -/

section Core

variable {pcie : PciController σ} {dev : PciDevice}

@[simp] theorem setActive_setActive (dev : PciDevice) (mode mode' : IrqMode) (n n' : ℕ) :
    (dev.setActive mode n).setActive mode' n' = dev.setActive mode' n' := rfl

/-- Setting the mode and number that a record has changes nothing. -/
theorem setActive_of_eq {mode : IrqMode} {n : ℕ} (hmode : dev.active.mode = mode)
    (hn : dev.active.nvec = n) : dev.setActive mode n = dev := by
  subst hmode hn
  rfl

/-- An allocation that fails leaves the controller and all but the scratch slots alone. -/
theorem AllocOutcome.of_error {min max : ℕ} {flags : BitVec 32} {e : Errno}
    {r : PciController σ × PciDevice × Except Errno ℕ}
    (h : AllocOutcome pcie dev min max flags r) (he : r.2.2 = .error e) :
    r.1 = pcie ∧ ∃ slots, r.2.1 = dev.setSlots slots ∧
      (dev.active.mode ≠ .idle → slots = dev.active.slots) := by
  cases h with
  | refused _ slots hslots => exact ⟨rfl, slots, rfl, hslots⟩
  | msix => exact absurd he (by simp)
  | msi => exact absurd he (by simp)
  | intx => exact absurd he (by simp)

/-- A granted count is within the range that was asked for. -/
theorem AllocOutcome.range {min max : ℕ} {flags : BitVec 32} {n : ℕ}
    {r : PciController σ × PciDevice × Except Errno ℕ}
    (h : AllocOutcome pcie dev min max flags r) (hok : r.2.2 = .ok n) : min ≤ n ∧ n ≤ max := by
  cases h with
  | refused => exact absurd hok (by simp)
  | msix n' slots used _ _ _ _ hmin hmax =>
    obtain rfl : n' = n := by simpa using hok
    exact ⟨hmin, hmax⟩
  | msi k base slots used _ _ _ hmin hmax =>
    obtain rfl : 2 ^ k = n := by simpa using hok
    exact ⟨hmin, hmax⟩
  | intx slots _ _ _ hmin hmax =>
    obtain rfl : 1 = n := by simpa using hok
    exact ⟨hmin, hmax⟩

variable [Gic400 σ]

/-- A registration that fails leaves the controller and the device alone. -/
theorem AddOutcome.of_error (hgic : Gic400.RefusalIsSilent σ) {vec : ℕ} {isr : Option Interrupt}
    {e : Errno} {r : PciController σ × PciDevice × Except Errno Unit}
    (h : AddOutcome pcie dev vec isr r) (he : r.2.2 = .error e) : r.1 = pcie ∧ r.2.1 = dev := by
  cases h with
  | badVec => exact ⟨rfl, rfl⟩
  | busy => exact ⟨rfl, rfl⟩
  | gicRefused _ _ hrefused => exact ⟨brcmIntxAddServer_of_error pcie dev isr hgic hrefused, rfl⟩
  | intx => exact absurd he (by simp)
  | slot => exact absurd he (by simp)

/-- A vector on a slot without a server takes one. -/
theorem pciIrqAddServer_ok {vec : ℕ} (isr : Option Interrupt) (hvec : vec < dev.active.nvec)
    (hmode : dev.active.mode ≠ .intx) (hfree : pcie.msi.servers (dev.active.slots vec) = none) :
    (pciIrqAddServer pcie dev vec isr).2.2 = .ok () := by
  have hnone : pciIrqVecServer pcie dev vec = none := by
    rw [pciIrqVecServer, if_neg hmode]
    exact hfree
  rw [pciIrqAddServer, if_neg (Nat.not_le.2 hvec), if_neg (not_not.2 hnone), if_neg hmode]

/-- Freeing an INTx vector without a server only records that there is no allocation. -/
theorem pciIrqVectorsFree_intx (hmode : dev.active.mode = .intx) (hnvec : dev.active.nvec = 1)
    (hnone : dev.active.intxServer = none) :
    pciIrqVectorsFree pcie dev = (pcie, dev.setActive .idle 0) := by
  have hserver : pciIrqVecServer pcie dev 0 = none := by
    rw [pciIrqVecServer, if_pos hmode]
    exact hnone
  have hdetach : detachServers pcie dev 1 = (pcie, dev) := by
    simp only [detachServers, List.range_one, List.foldl_cons, List.foldl_nil, detachServer, hserver]
  have hoff : switchOff dev = dev := by
    rw [switchOff, if_neg (by rw [hmode]; decide), if_neg (by rw [hmode]; decide)]
  rw [pciIrqVectorsFree, hnvec, hdetach]
  dsimp only
  rw [hoff, if_neg (not_not.2 hmode)]

end Core

/-! ## The library -/

variable [DecidableEq ι] [Gic400 σ] {s : IrqState ι σ}

omit [Gic400 σ] in
/-- `AllocIntVectors` that returns a negative code changes nothing. -/
theorem libAllocIntVectors_of_neg (dev : Option ι) (min max : ℕ) (flags : BitVec 32)
    (hfail : (libAllocIntVectors s dev min max flags).2 < 0) :
    SameButScratch s (libAllocIntVectors s dev min max flags).1 := by
  obtain _ | i := dev
  · exact SameButScratch.refl s
  · have hout := pciIrqVectorsAlloc_outcome s.pcie (s.devs i) min max flags
    simp only [libAllocIntVectors] at hfail ⊢
    generalize pciIrqVectorsAlloc s.pcie (s.devs i) min max flags = r at hout hfail ⊢
    cases hr : r.2.2 with
    | ok n =>
      rw [hr] at hfail
      exact absurd hfail (not_lt.2 (Int.natCast_nonneg n))
    | error e =>
      obtain ⟨hpcie, slots, hdev, hslots⟩ := hout.of_error hr
      exact sameButScratch_put s i hpcie hdev hslots

/-- `AddIntVectorServer` that returns a negative code changes nothing. -/
theorem libAddIntVectorServer_of_neg (hgic : Gic400.RefusalIsSilent σ) (dev : Option ι) (vec : ℕ)
    (isr : Option Interrupt) (hfail : (libAddIntVectorServer s dev vec isr).2 < 0) :
    SameButScratch s (libAddIntVectorServer s dev vec isr).1 := by
  obtain _ | i := dev
  · exact SameButScratch.refl s
  · obtain _ | server := isr
    · exact SameButScratch.refl s
    · have hout := pciIrqAddServer_outcome s.pcie (s.devs i) vec (some server)
      simp only [libAddIntVectorServer] at hfail ⊢
      generalize pciIrqAddServer s.pcie (s.devs i) vec (some server) = r at hout hfail ⊢
      cases hr : r.2.2 with
      | ok u =>
        rw [hr] at hfail
        exact absurd hfail (lt_irrefl 0)
      | error e =>
        obtain ⟨hpcie, hdev⟩ := hout.of_error hgic hr
        rw [hpcie, hdev, put_self]
        exact SameButScratch.refl s

omit [DecidableEq ι] in
/-- Registering a server right after its vector was allocated fails only for an INTx vector, and then
leaves just the allocation behind. -/
theorem addServer_fresh_error (hgic : Gic400.RefusalIsSilent σ) (hled : s.SlotsOwned) (i : ι)
    {min max : ℕ} {flags : BitVec 32} {n : ℕ} {isr : Option Interrupt} {e : Errno}
    {r : PciController σ × PciDevice × Except Errno ℕ}
    (hout : AllocOutcome s.pcie (s.devs i) min max flags r) (hok : r.2.2 = .ok n)
    (hadd : (pciIrqAddServer r.1 r.2.1 0 isr).2.2 = .error e) :
    (s.devs i).active.mode = .idle ∧ (pciIrqAddServer r.1 r.2.1 0 isr).1 = s.pcie ∧
      ∃ slots, (pciIrqAddServer r.1 r.2.1 0 isr).2.1
        = ((s.devs i).setSlots slots).setActive .intx 1 := by
  have haddout := pciIrqAddServer_outcome r.1 r.2.1 0 isr
  obtain ⟨hpcie, hdev⟩ := haddout.of_error hgic hadd
  -- a fresh slot has no server, so binding to it succeeds
  have hfresh : ∀ {used : BitVec 32} {slots : ℕ → ℕ} {n : ℕ},
      Reserves s.pcie.msi.used used slots n → 1 ≤ n → s.pcie.msi.servers (slots 0) = none :=
    fun hres hn => hled.servers_of_free (hres.lt 0 hn) (hres.free 0 hn)
  cases hout with
  | refused => exact absurd hok (by simp)
  | msix n slots used _ _ _ hpos _ _ _ _ hres =>
    have hslots : (pciMsixProgram (s.pcie.setUsed used) ((s.devs i).setSlots slots) n).active.slots
        = slots := by
      rw [(pciMsixProgram_sameRecord _ _ n).active]
      rfl
    have hadd' := @pciIrqAddServer_ok _ (s.pcie.setUsed used)
      ((pciMsixProgram (s.pcie.setUsed used) ((s.devs i).setSlots slots) n).setActive .msix n) _
      0 isr hpos (by simp) (by rw [setActive_active, hslots]; exact hfresh hres hpos)
    exact absurd (hadd'.symm.trans hadd) (by simp)
  | msi k base slots used _ _ _ _ _ _ _ _ hres =>
    have hslots : (pciMsiProgram (s.pcie.setUsed used)
        ((s.devs i).setSlots (blockSlots slots base (2 ^ k))) (2 ^ k)).active.slots
        = blockSlots slots base (2 ^ k) := by
      rw [(pciMsiProgram_sameRecord _ _ _).active]
      rfl
    have hadd' := @pciIrqAddServer_ok _ (s.pcie.setUsed used)
      ((pciMsiProgram (s.pcie.setUsed used)
        ((s.devs i).setSlots (blockSlots slots base (2 ^ k))) (2 ^ k)).setActive .msi (2 ^ k)) _
      0 isr (Nat.two_pow_pos k) (by simp)
      (by rw [setActive_active, hslots]; exact hfresh hres (Nat.two_pow_pos k))
    exact absurd (hadd'.symm.trans hadd) (by simp)
  | intx slots hidle => exact ⟨hidle, hpcie, slots, hdev⟩

/-- **The obsolete registration.** `pci_add_intserver` that returns `FALSE` changes nothing: where
its allocation succeeded and the registration did not, it frees the vector again. -/
theorem libAddIntServer_of_false (hgic : Gic400.RefusalIsSilent σ) (hled : s.SlotsOwned)
    (isr : Option Interrupt) (dev : Option ι) (hfail : (libAddIntServer s isr dev).2 = false) :
    SameButScratch s (libAddIntServer s isr dev).1 := by
  obtain _ | server := isr
  · exact SameButScratch.refl s
  obtain _ | i := dev
  · exact SameButScratch.refl s
  simp only [libAddIntServer] at hfail ⊢
  generalize (if (s.devs i).intx.preferMsi then pciIrqMsi ||| pciIrqIntx else pciIrqIntx) = flags
    at hfail ⊢
  have hout := pciIrqVectorsAlloc_outcome s.pcie (s.devs i) 1 1 flags
  generalize pciIrqVectorsAlloc s.pcie (s.devs i) 1 1 flags = r at hout hfail ⊢
  cases hr : r.2.2 with
  | error e =>
    obtain ⟨hpcie, slots, hdev, hslots⟩ := hout.of_error hr
    exact sameButScratch_put s i hpcie hdev hslots
  | ok n =>
    -- one vector was asked for, so one was granted
    have hn : n = 1 := by
      have hrange := hout.range hr
      omega
    subst hn
    have hfresh := fun e => @addServer_fresh_error _ _ _ _ hgic hled i _ _ _ _ (some server) e _ hout hr
    rw [hr] at hfail
    simp only [put_devs_self, put_pcie] at hfail ⊢
    generalize pciIrqAddServer r.1 r.2.1 0 (some server) = q at hfresh hfail ⊢
    cases hq : q.2.2 with
    | ok u =>
      rw [hq] at hfail
      exact absurd hfail (by simp)
    | error e =>
      -- on a fresh vector only the GIC refuses, so it is INTx, and the free call undoes the record
      obtain ⟨hidle, hpcie, slots, hdev⟩ := hfresh e hq
      have hshape : AllocShape (s.devs i).active := hled.shape i
      have hnone : (s.devs i).active.intxServer = none := by
        by_contra hne
        exact absurd (hidle.symm.trans (hshape.intxServer hne)) (by decide)
      simp only [libFreeIntVectors, put_pcie, put_devs_self, hpcie, hdev]
      have hfree := @pciIrqVectorsFree_intx _ s.pcie
        (((s.devs i).setSlots slots).setActive .intx 1) _ rfl rfl hnone
      rw [hfree, put_put, put_put]
      refine @sameButScratch_put _ _ _ s i _ _ slots rfl ?_ fun hmode => absurd hidle hmode
      rw [setActive_setActive]
      exact setActive_of_eq hidle (hshape.idle hidle)

/-- **Failing calls.** In every state reached from probe by library calls, an `AllocIntVectors` or
`AddIntVectorServer` that returns a negative code and a `pci_add_intserver` that returns `FALSE` leave
the pool, the servers, the slot masks and every device as they were, but for the scratch slots of a
device without an allocation. -/
theorem failed_unchanged (hgic : Gic400.RefusalIsSilent σ) (h : Probed s) (cs : List (LibCall ι)) :
    let t := run libStep s cs
    (∀ dev min max flags, (libAllocIntVectors t dev min max flags).2 < 0 →
      SameButScratch t (libAllocIntVectors t dev min max flags).1) ∧
    (∀ dev vec isr, (libAddIntVectorServer t dev vec isr).2 < 0 →
      SameButScratch t (libAddIntVectorServer t dev vec isr).1) ∧
    ∀ isr dev, (libAddIntServer t isr dev).2 = false →
      SameButScratch t (libAddIntServer t isr dev).1 := by
  have hled : (run libStep s cs).SlotsOwned :=
    run_invariant (P := IrqState.SlotsOwned) slotsOwned_libStep s cs h.slotsOwned
  exact ⟨fun dev min max flags => libAllocIntVectors_of_neg dev min max flags,
    fun dev vec isr => libAddIntVectorServer_of_neg hgic dev vec isr,
    fun isr dev => libAddIntServer_of_false hgic hled isr dev⟩

/-- The second device's INTx server is refused, as both are on one interrupt; its allocation is undone.
-/
theorem failed_unchanged_sample :
    (libAddIntServer (run libStep sampleState [.addIntServer (some ⟨0x1000⟩) (some false)])
      (some ⟨0x2000⟩) (some true)).2 = false ∧
    SameButScratch (run libStep sampleState [.addIntServer (some ⟨0x1000⟩) (some false)])
      (libAddIntServer (run libStep sampleState [.addIntServer (some ⟨0x1000⟩) (some false)])
        (some ⟨0x2000⟩) (some true)).1 := by
  have hfalse : (libAddIntServer (run libStep sampleState
      [.addIntServer (some ⟨0x1000⟩) (some false)]) (some ⟨0x2000⟩) (some true)).2 = false := by
    decide +kernel
  exact ⟨hfalse, (failed_unchanged gicTable_refusalIsSilent sampleState_probed _).2.2 _ _ hfalse⟩

end BcmPcie
