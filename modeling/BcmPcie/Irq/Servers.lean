import BcmPcie.Irq.Vectors

/-! # Adding and removing servers

What `pci_irq_add_server` and `pci_irq_rem_server` can do, and what the teardown loop of
`pci_irq_vectors_free` makes of the latter.

* `pciIrqAddServer_outcome`, `pciIrqRemServer_outcome` — every way the two functions can go.
* `detachServers_invariant` — the induction rule of the teardown loop.
* `detachServers_gone` — after it, no vector has a server. -/

namespace BcmPcie

open BitSet

variable {σ : Type*} [Gic400 σ]

section Gates

variable (dev : PciDevice) (vec : ℕ)

omit [Gic400 σ]

/-- Closing a vector keeps the record. -/
theorem pciIrqVecClose_sameRecord : SameRecord dev (pciIrqVecClose dev vec) := by
  unfold pciIrqVecClose
  split
  · rfl
  · exact pciMsiUpdateMask_sameRecord dev _ _

/-- Opening a vector keeps the record. -/
theorem pciIrqVecOpen_sameRecord : SameRecord dev (pciIrqVecOpen dev vec) := by
  unfold pciIrqVecOpen
  split
  · rfl
  · exact pciMsiUpdateMask_sameRecord dev _ _

@[simp] theorem setIntxServer_cfg (isr : Option Interrupt) : (dev.setIntxServer isr).cfg = dev.cfg :=
  rfl

@[simp] theorem setIntxServer_tableMem (isr : Option Interrupt) :
    (dev.setIntxServer isr).tableMem = dev.tableMem := rfl

@[simp] theorem setIntxServer_msi (isr : Option Interrupt) : (dev.setIntxServer isr).msi = dev.msi :=
  rfl

@[simp] theorem setIntxServer_msix (isr : Option Interrupt) :
    (dev.setIntxServer isr).msix = dev.msix := rfl

@[simp] theorem setIntxServer_intx (isr : Option Interrupt) :
    (dev.setIntxServer isr).intx = dev.intx := rfl

@[simp] theorem setIntxServer_active (isr : Option Interrupt) :
    (dev.setIntxServer isr).active = { dev.active with intxServer := isr } := rfl

end Gates

section Outcomes

variable (pcie : PciController σ) (dev : PciDevice) (vec : ℕ) (isr : Option Interrupt)

/-- The outcomes of `pci_irq_add_server`. -/
inductive AddOutcome : PciController σ × PciDevice × Except Errno Unit → Prop
  | badVec (hvec : dev.active.nvec ≤ vec) : AddOutcome (pcie, dev, .error .einval)
  | busy (hvec : vec < dev.active.nvec) (hserver : pciIrqVecServer pcie dev vec ≠ none) :
      AddOutcome (pcie, dev, .error .ebusy)
  | gicRefused (hmode : dev.active.mode = .intx) (e : Errno)
      (hgic : (brcmIntxAddServer pcie dev isr).2 = .error e) :
      AddOutcome ((brcmIntxAddServer pcie dev isr).1, dev, .error e)
  | intx (hvec : vec < dev.active.nvec) (hmode : dev.active.mode = .intx)
      (hfree : dev.active.intxServer = none) :
      AddOutcome ((brcmIntxAddServer pcie dev isr).1, pciIntx (dev.setIntxServer isr) true, .ok ())
  | slot (hvec : vec < dev.active.nvec) (hmode : dev.active.mode ≠ .intx)
      (hfree : pcie.msi.servers (dev.active.slots vec) = none) :
      AddOutcome (brcmMsiSlotBind pcie (dev.active.slots vec) isr, pciIrqVecOpen dev vec, .ok ())

/-- `pci_irq_add_server` has one of its outcomes. -/
theorem pciIrqAddServer_outcome :
    AddOutcome pcie dev vec isr (pciIrqAddServer pcie dev vec isr) := by
  unfold pciIrqAddServer
  split
  · rename_i hvec
    exact .badVec hvec
  · rename_i hvec
    have hlt : vec < dev.active.nvec := Nat.not_le.1 hvec
    split
    · rename_i hserver
      exact .busy hlt hserver
    · rename_i hserver
      rw [not_not, pciIrqVecServer] at hserver
      by_cases hmode : dev.active.mode = .intx
      · rw [if_pos hmode] at hserver ⊢
        split
        · rename_i pcie' e hgic
          have hres := @AddOutcome.gicRefused _ _ pcie dev vec isr
            hmode e (by rw [hgic])
          rwa [hgic] at hres
        · rename_i pcie' hgic
          have hres := @AddOutcome.intx _ _ pcie _ _ isr hlt hmode hserver
          rwa [hgic] at hres
      · rw [if_neg hmode] at hserver ⊢
        exact .slot hlt hmode hserver

/-- The outcomes of `pci_irq_rem_server`. -/
inductive RemOutcome : PciController σ × PciDevice → Prop
  | ignored : RemOutcome (pcie, dev)
  | intx (hvec : vec < dev.active.nvec) (hmode : dev.active.mode = .intx)
      (hserver : dev.active.intxServer = isr) :
      RemOutcome (brcmIntxRemServer pcie dev isr, (pciIntx dev false).setIntxServer none)
  | slot (hvec : vec < dev.active.nvec) (hmode : dev.active.mode ≠ .intx)
      (hserver : pcie.msi.servers (dev.active.slots vec) = isr) :
      RemOutcome (brcmMsiSlotUnbind pcie (dev.active.slots vec), pciIrqVecClose dev vec)

/-- `pci_irq_rem_server` has one of its outcomes. -/
theorem pciIrqRemServer_outcome :
    RemOutcome pcie dev vec isr (pciIrqRemServer pcie dev vec isr) := by
  unfold pciIrqRemServer
  split
  · exact .ignored
  · rename_i hvec
    rw [not_or, not_le, not_not, pciIrqVecServer] at hvec
    obtain ⟨hlt, hserver⟩ := hvec
    by_cases hmode : dev.active.mode = .intx
    · rw [if_pos hmode] at hserver ⊢
      have hres := @RemOutcome.intx _ _ pcie _ _ _ hlt hmode hserver
      simpa only [brcmIntxRemServer, pciIntx_intx] using hres
    · rw [if_neg hmode] at hserver ⊢
      have hres := @RemOutcome.slot _ _ pcie _ _ _ hlt hmode hserver
      rwa [← (pciIrqVecClose_sameRecord dev vec).active] at hres

end Outcomes

section Mask

variable (pcie : PciController σ) (dev : PciDevice) (vec : ℕ)

omit [Gic400 σ]

/-- The outcomes of the runtime mask (`open' = false`) and unmask (`open' = true`). -/
inductive MaskOutcome (open' : Bool) : PciController σ × PciDevice × Bool → Prop
  | badVec (hvec : dev.active.nvec ≤ vec) : MaskOutcome open' (pcie, dev, false)
  | intx (hvec : vec < dev.active.nvec) (hmode : dev.active.mode = .intx) :
      MaskOutcome open' (pcie, pciIntx dev open', true)
  | slot (hvec : vec < dev.active.nvec) (hmode : dev.active.mode ≠ .intx) :
      MaskOutcome open'
        (if open' then brcmMsiSlotUnmask pcie (dev.active.slots vec)
          else brcmMsiSlotMask pcie (dev.active.slots vec), dev, true)

/-- `pci_irq_vec_mask` has one of its outcomes. -/
theorem pciIrqVecMask_outcome : MaskOutcome pcie dev vec false (pciIrqVecMask pcie dev vec) := by
  unfold pciIrqVecMask
  split
  · rename_i hvec
    exact .badVec hvec
  · rename_i hvec
    split
    · rename_i hmode
      exact .intx (Nat.not_le.1 hvec) hmode
    · rename_i hmode
      exact .slot (Nat.not_le.1 hvec) hmode

/-- `pci_irq_vec_unmask` has one of its outcomes. -/
theorem pciIrqVecUnmask_outcome :
    MaskOutcome pcie dev vec true (pciIrqVecUnmask pcie dev vec) := by
  unfold pciIrqVecUnmask
  split
  · rename_i hvec
    exact .badVec hvec
  · rename_i hvec
    split
    · rename_i hmode
      exact .intx (Nat.not_le.1 hvec) hmode
    · rename_i hmode
      exact .slot (Nat.not_le.1 hvec) hmode

variable {pcie dev vec}

/-- The runtime mask leaves the pool, the servers and the allocation alone. -/
theorem MaskOutcome.same {open' : Bool} {r : PciController σ × PciDevice × Bool}
    (h : MaskOutcome pcie dev vec open' r) :
    r.1.msi = pcie.msi ∧ r.2.1.active = dev.active ∧ SameRecord dev r.2.1 := by
  cases h with
  | badVec => exact ⟨rfl, rfl, SameRecord.refl dev⟩
  | intx => exact ⟨rfl, pciIntx_active dev open', pciIntx_sameRecord dev open'⟩
  | slot => cases open' <;> exact ⟨rfl, rfl, SameRecord.refl dev⟩

end Mask

/-! ## The teardown loop -/

/-- **Induction rule of the teardown loop.** What removing a server keeps holds after the loop. -/
theorem detachServers_invariant {P : PciController σ → PciDevice → Prop}
    (hrem : ∀ pcie dev vec isr, P pcie dev →
      P (pciIrqRemServer pcie dev vec isr).1 (pciIrqRemServer pcie dev vec isr).2)
    (pcie : PciController σ) (dev : PciDevice) (n : ℕ) (h : P pcie dev) :
    P (detachServers pcie dev n).1 (detachServers pcie dev n).2 := by
  unfold detachServers
  induction n with
  | zero => exact h
  | succ n ih =>
    rw [List.range_succ, List.foldl_append, List.foldl_cons, List.foldl_nil, detachServer]
    split
    · exact hrem _ _ _ _ ih
    · exact ih

/-- Removing a server leaves all of the allocation but the INTx server as it was. -/
theorem pciIrqRemServer_active (pcie : PciController σ) (dev : PciDevice) (vec : ℕ)
    (isr : Option Interrupt) :
    (pciIrqRemServer pcie dev vec isr).2.active
      = { dev.active with intxServer := (pciIrqRemServer pcie dev vec isr).2.active.intxServer } := by
  have hout := pciIrqRemServer_outcome pcie dev vec isr
  generalize pciIrqRemServer pcie dev vec isr = r at hout ⊢
  cases hout with
  | ignored => rfl
  | intx => simp only [setIntxServer_active, pciIntx_active]
  | slot => rw [(pciIrqVecClose_sameRecord dev vec).active]

/-- Detaching the servers changes of the mode's state the INTx server only. -/
theorem detachServers_active (pcie : PciController σ) (dev : PciDevice) (n : ℕ) :
    (detachServers pcie dev n).2.active
      = { dev.active with intxServer := (detachServers pcie dev n).2.active.intxServer } := by
  refine detachServers_invariant
    (P := fun _ d => d.active = { dev.active with intxServer := d.active.intxServer })
    (fun p d v isr h => ?_) pcie dev n rfl
  rw [pciIrqRemServer_active, h]

/-- The second controller is the first with some slots unbound and masked. -/
structure SlotsQuieted (pcie pcie' : PciController σ) : Prop where
  used : pcie'.msi.used = pcie.msi.used
  targetAddr : pcie'.msi.targetAddr = pcie.msi.targetAddr
  /-- A slot is as it was, or has no server and is masked. -/
  slot : ∀ j,
    pcie'.msi.servers j = pcie.msi.servers j ∧
      (j < 32 → pcie'.intr2.mask.getLsbD j = pcie.intr2.mask.getLsbD j) ∨
    pcie'.msi.servers j = none ∧ (j < 32 → pcie'.intr2.mask.getLsbD j = true)

omit [Gic400 σ] in
/-- Doing nothing leaves the slots as they are. -/
theorem SlotsQuieted.refl (pcie : PciController σ) : SlotsQuieted pcie pcie :=
  ⟨rfl, rfl, fun _ => Or.inl ⟨rfl, fun _ => rfl⟩⟩

omit [Gic400 σ] in
/-- Two steps that only quiet slots quiet slots together. -/
theorem SlotsQuieted.trans {pcie pcie' pcie'' : PciController σ} (h : SlotsQuieted pcie pcie')
    (h' : SlotsQuieted pcie' pcie'') : SlotsQuieted pcie pcie'' := by
  refine ⟨h'.used.trans h.used, h'.targetAddr.trans h.targetAddr, fun j => ?_⟩
  obtain ⟨hs', hm'⟩ | hquiet := h'.slot j
  · obtain ⟨hs, hm⟩ | ⟨hs, hm⟩ := h.slot j
    · exact Or.inl ⟨hs'.trans hs, fun hj => (hm' hj).trans (hm hj)⟩
    · exact Or.inr ⟨hs'.trans hs, fun hj => (hm' hj).trans (hm hj)⟩
  · exact Or.inr hquiet

/-- Removing a server quiets at most its slot. -/
theorem pciIrqRemServer_quieted (pcie : PciController σ) (dev : PciDevice) (vec : ℕ)
    (isr : Option Interrupt) : SlotsQuieted pcie (pciIrqRemServer pcie dev vec isr).1 := by
  have hout := pciIrqRemServer_outcome pcie dev vec isr
  generalize pciIrqRemServer pcie dev vec isr = r at hout ⊢
  cases hout with
  | ignored => exact SlotsQuieted.refl pcie
  | intx => exact ⟨rfl, rfl, fun _ => Or.inl ⟨rfl, fun _ => rfl⟩⟩
  | slot =>
    refine ⟨rfl, rfl, fun j => ?_⟩
    by_cases hj : j = dev.active.slots vec
    · right
      refine ⟨by rw [brcmMsiSlotUnbind_servers, hj, Function.update_self], fun hlt => ?_⟩
      rw [brcmMsiSlotUnbind_mask _ _ hlt, decide_eq_true hj.symm, Bool.or_true]
    · left
      refine ⟨by rw [brcmMsiSlotUnbind_servers, Function.update_of_ne hj], fun hlt => ?_⟩
      rw [brcmMsiSlotUnbind_mask _ _ hlt, decide_eq_false (Ne.symm hj), Bool.or_false]

/-- The teardown loop quiets slots and does nothing else to the demux. -/
theorem detachServers_quieted (pcie : PciController σ) (dev : PciDevice) (n : ℕ) :
    SlotsQuieted pcie (detachServers pcie dev n).1 :=
  detachServers_invariant (P := fun p _ => SlotsQuieted pcie p)
    (fun p d v isr h => h.trans (pciIrqRemServer_quieted p d v isr)) pcie dev n
    (SlotsQuieted.refl pcie)

/-- A device without an INTx server is not given one by the teardown loop. -/
theorem detachServers_intxServer_none (pcie : PciController σ) (dev : PciDevice) (n : ℕ)
    (h : dev.active.intxServer = none) :
    (detachServers pcie dev n).2.active.intxServer = none := by
  refine detachServers_invariant (P := fun _ d => d.active.intxServer = none)
    (fun p d v isr h => ?_) pcie dev n h
  have hout := pciIrqRemServer_outcome p d v isr
  generalize pciIrqRemServer p d v isr = r at hout ⊢
  cases hout with
  | ignored => exact h
  | intx => rfl
  | slot => rwa [(pciIrqVecClose_sameRecord d v).active]

/-- Removing the server a vector has leaves the vector without one. -/
theorem pciIrqVecServer_remServer (pcie : PciController σ) (dev : PciDevice) {vec : ℕ}
    (hvec : vec < dev.active.nvec) :
    pciIrqVecServer (pciIrqRemServer pcie dev vec (pciIrqVecServer pcie dev vec)).1
      (pciIrqRemServer pcie dev vec (pciIrqVecServer pcie dev vec)).2 vec = none := by
  unfold pciIrqRemServer
  rw [if_neg (by simp [Nat.not_le.2 hvec])]
  by_cases hmode : dev.active.mode = .intx
  · rw [if_pos hmode]
    simp [pciIrqVecServer, hmode]
  · rw [if_neg hmode]
    have hactive := (pciIrqVecClose_sameRecord dev vec).active
    simp [pciIrqVecServer, hactive, hmode, brcmMsiSlotServer]

/-- Removing a server gives no vector one. -/
theorem pciIrqVecServer_remServer_none (pcie : PciController σ) (dev : PciDevice) (vec : ℕ)
    (isr : Option Interrupt) {v : ℕ} (h : pciIrqVecServer pcie dev v = none) :
    pciIrqVecServer (pciIrqRemServer pcie dev vec isr).1 (pciIrqRemServer pcie dev vec isr).2 v
      = none := by
  have hout := pciIrqRemServer_outcome pcie dev vec isr
  generalize pciIrqRemServer pcie dev vec isr = r at hout ⊢
  cases hout with
  | ignored => exact h
  | intx hvec hmode => simp [pciIrqVecServer, hmode]
  | slot hvec hmode =>
    have hactive := (pciIrqVecClose_sameRecord dev vec).active
    simp only [pciIrqVecServer, hmode, hactive, if_false, brcmMsiSlotServer,
      brcmMsiSlotUnbind_servers, Function.update_apply] at h ⊢
    split
    · rfl
    · exact h

/-- **Teardown.** After the loop no vector it went over has a server. -/
theorem detachServers_gone (pcie : PciController σ) (dev : PciDevice) {n : ℕ}
    (hn : n ≤ dev.active.nvec) :
    ∀ v < n, pciIrqVecServer (detachServers pcie dev n).1 (detachServers pcie dev n).2 v = none := by
  induction n with
  | zero => exact fun v hv => absurd hv (Nat.not_lt_zero v)
  | succ n ih =>
    have hsucc : detachServers pcie dev (n + 1) = detachServer (detachServers pcie dev n) n := by
      simp only [detachServers, List.range_succ, List.foldl_append, List.foldl_cons, List.foldl_nil]
    have hactive := detachServers_active pcie dev n
    intro v hv
    rw [hsucc]
    generalize detachServers pcie dev n = st at ih hactive ⊢
    obtain ⟨p, d⟩ := st
    have hlast : n < d.active.nvec := by rw [hactive]; exact hn
    unfold detachServer
    by_cases hvn : v = n
    · subst hvn
      split
      · rename_i server hserver
        dsimp only at hserver ⊢
        rw [← hserver]
        exact pciIrqVecServer_remServer p d hlast
      · rename_i hserver
        exact hserver
    · have hearlier := ih (by omega) v (by omega)
      split
      · exact pciIrqVecServer_remServer_none p d n _ hearlier
      · exact hearlier

/-! ## Teardown as a whole -/

omit [Gic400 σ] in
/-- Switching a function's interrupts off keeps the record. -/
theorem switchOff_sameRecord (dev : PciDevice) : SameRecord dev (switchOff dev) := by
  unfold switchOff
  split
  · exact pciMsixSetCtrl_sameRecord dev _ _
  · split
    · exact pciMsiShutdown_sameRecord dev
    · exact SameRecord.refl dev

/-- Beyond what the loop does, teardown changes the pool of the controller, and switches the device
off. -/
theorem pciIrqVectorsFree_eq (pcie : PciController σ) (dev : PciDevice) :
    ∃ used, pciIrqVectorsFree pcie dev
      = ((detachServers pcie dev dev.active.nvec).1.setUsed used,
        (switchOff (detachServers pcie dev dev.active.nvec).2).setActive .idle 0) := by
  simp only [pciIrqVectorsFree]
  split
  · exact ⟨_, rfl⟩
  · exact ⟨(detachServers pcie dev dev.active.nvec).1.msi.used, rfl⟩

end BcmPcie
