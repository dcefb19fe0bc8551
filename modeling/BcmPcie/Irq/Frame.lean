import BcmPcie.Irq.State

/-! # What no call changes

A call moves registers, the mask shadow and the allocation record of its device. What probe decoded —
where the capabilities are, what they can do, which bits of configuration space are writable —
stays, so a fact about it that holds after probe holds in every state.

* `SameFunction` — the same function, up to what calls change.
* `irqStep_sameFunction` — every core call leaves every device the same function. -/

namespace BcmPcie

variable {ι σ : Type*}

/-! ## Writable bits -/

section Writable

variable (dev : PciDevice)

@[simp] theorem pciIntx_rw (enable : Bool) : (pciIntx dev enable).cfg.rw = dev.cfg.rw :=
  (pciIntx_sameOutside dev enable (List.mem_singleton.2 rfl)).1

@[simp] theorem pciMsixSetCtrl_rw (clear set : BitVec 16) :
    (pciMsixSetCtrl dev clear set).cfg.rw = dev.cfg.rw := pciWriteConfig_rw _ _ _ _

@[simp] theorem pciMsixProgram_rw (pcie : PciController σ) (nvec : ℕ) :
    (pciMsixProgram pcie dev nvec).cfg.rw = dev.cfg.rw :=
  (pciMsixProgram_sameOutside dev pcie nvec).1

@[simp] theorem pciMsiUpdateMask_rw (clear set : BitVec 32) :
    (pciMsiUpdateMask dev clear set).cfg.rw = dev.cfg.rw := by
  unfold pciMsiUpdateMask
  split
  · rfl
  · exact pciWriteConfig_rw _ _ _ _

@[simp] theorem pciMsiSetEnable_rw (enable : Bool) :
    (pciMsiSetEnable dev enable).cfg.rw = dev.cfg.rw := pciWriteConfig_rw _ _ _ _

@[simp] theorem pciMsiWriteMsg_rw (pcie : PciController σ) (nvec : ℕ) :
    (pciMsiWriteMsg pcie dev nvec).cfg.rw = dev.cfg.rw :=
  (pciMsiWriteMsg_sameOutside pcie dev nvec).1

@[simp] theorem pciMsiProgram_rw (pcie : PciController σ) (nvec : ℕ) :
    (pciMsiProgram pcie dev nvec).cfg.rw = dev.cfg.rw := by
  simp only [pciMsiProgram, pciMsiSetEnable_rw, pciIntx_rw, pciMsiWriteMsg_rw, pciMsiUpdateMask_rw]

@[simp] theorem switchOff_rw : (switchOff dev).cfg.rw = dev.cfg.rw := by
  unfold switchOff
  split
  · exact pciMsixSetCtrl_rw dev _ _
  · split
    · simp only [pciMsiShutdown, pciMsiUpdateMask_rw, pciMsiSetEnable_rw]
    · rfl

@[simp] theorem pciIrqVecClose_rw (vec : ℕ) : (pciIrqVecClose dev vec).cfg.rw = dev.cfg.rw := by
  unfold pciIrqVecClose
  split
  · rfl
  · exact pciMsiUpdateMask_rw dev _ _

@[simp] theorem pciIrqVecOpen_rw (vec : ℕ) : (pciIrqVecOpen dev vec).cfg.rw = dev.cfg.rw := by
  unfold pciIrqVecOpen
  split
  · rfl
  · exact pciMsiUpdateMask_rw dev _ _

end Writable

/-! ## The same function -/

/-- The second record is the same function as the first: what probe found out about it is unchanged.
-/
structure SameFunction (dev dev' : PciDevice) : Prop where
  rw : dev'.cfg.rw = dev.cfg.rw
  msi : dev'.msi = { dev.msi with mask := dev'.msi.mask }
  msix : dev'.msix = dev.msix
  gicIrq : dev'.intx.gicIrq = dev.intx.gicIrq

namespace SameFunction

variable {dev dev' dev'' : PciDevice}

/-- A function is the same as itself. -/
theorem refl (dev : PciDevice) : SameFunction dev dev := ⟨rfl, rfl, rfl, rfl⟩

/-- The same function through two steps. -/
theorem trans (h : SameFunction dev dev') (h' : SameFunction dev' dev'') :
    SameFunction dev dev'' :=
  ⟨h'.rw.trans h.rw, by rw [h'.msi, h.msi], h'.msix.trans h.msix, h'.gicIrq.trans h.gicIrq⟩

/-- A change of registers that keeps the record and the writable bits is one of the same function. -/
theorem of_sameRecord (h : SameRecord dev dev') (hrw : dev'.cfg.rw = dev.cfg.rw) :
    SameFunction dev dev' :=
  ⟨hrw, h.msi, h.msix, by rw [h.intx]⟩

/-- The same function has its MSI capability decoded alike. -/
theorem msiDecoded (h : SameFunction dev dev') (hdec : MsiDecoded dev) : MsiDecoded dev' := by
  unfold MsiDecoded at hdec ⊢
  rw [h.msi]
  exact hdec

/-- The same function has its MSI-X capability decoded alike. -/
theorem msixDecoded (h : SameFunction dev dev') (hdec : MsixDecoded dev) : MsixDecoded dev' := by
  unfold MsixDecoded at hdec ⊢
  rw [h.msix]
  exact hdec

/-- The capabilities of the same function overlap no more than before. -/
theorem capsApart (h : SameFunction dev dev') (hapart : CapsApart dev) : CapsApart dev' := by
  unfold CapsApart msiLength at hapart ⊢
  rw [h.msi, h.msix]
  exact hapart

/-- The same function can have INTx switched off. -/
theorem intxWritable (h : SameFunction dev dev') (hw : IntxWritable dev) : IntxWritable dev' :=
  (intxWritable_iff h.rw).2 hw

/-- The same function has as many mask bits. -/
theorem msiMultiMask (h : SameFunction dev dev') : msiMultiMask dev' = msiMultiMask dev := by
  unfold BcmPcie.msiMultiMask
  rw [h.msi]

/-- The same function can have its mask written. -/
theorem maskWritable (h : SameFunction dev dev') (hw : MaskWritable dev) : MaskWritable dev' := by
  intro hmaskable
  unfold RegisterFile.Writable
  rw [h.msiMultiMask, h.rw, h.msi]
  exact hw (by rwa [h.msi] at hmaskable)

end SameFunction

/-! ## Every call -/

/-- An allocation leaves the device the same function. -/
theorem AllocOutcome.sameFunction {pcie : PciController σ} {dev : PciDevice} {min max : ℕ}
    {flags : BitVec 32} {r : PciController σ × PciDevice × Except Errno ℕ}
    (h : AllocOutcome pcie dev min max flags r) : SameFunction dev r.2.1 := by
  cases h with
  | refused => exact ⟨rfl, rfl, rfl, rfl⟩
  | msix n slots used =>
    have hprog := SameFunction.of_sameRecord
      (pciMsixProgram_sameRecord (dev.setSlots slots) (pcie.setUsed used) n)
      (pciMsixProgram_rw _ _ _)
    exact ⟨hprog.rw, hprog.msi, hprog.msix, hprog.gicIrq⟩
  | msi k base slots used =>
    have hprog := SameFunction.of_sameRecord
      (pciMsiProgram_sameRecord (dev.setSlots (blockSlots slots base (2 ^ k)))
        (pcie.setUsed used) (2 ^ k)) (pciMsiProgram_rw _ _ _)
    exact ⟨hprog.rw, hprog.msi, hprog.msix, hprog.gicIrq⟩
  | intx => exact ⟨rfl, rfl, rfl, rfl⟩

variable [Gic400 σ]

/-- Adding a server leaves the device the same function. -/
theorem AddOutcome.sameFunction {pcie : PciController σ} {dev : PciDevice} {vec : ℕ}
    {isr : Option Interrupt} {r : PciController σ × PciDevice × Except Errno Unit}
    (h : AddOutcome pcie dev vec isr r) : SameFunction dev r.2.1 := by
  cases h with
  | badVec => exact SameFunction.refl dev
  | busy => exact SameFunction.refl dev
  | gicRefused => exact SameFunction.refl dev
  | intx =>
    have hintx := SameFunction.of_sameRecord (pciIntx_sameRecord (dev.setIntxServer isr) true)
      (pciIntx_rw _ _)
    exact ⟨hintx.rw, hintx.msi, hintx.msix, hintx.gicIrq⟩
  | slot =>
    exact SameFunction.of_sameRecord (pciIrqVecOpen_sameRecord dev vec) (pciIrqVecOpen_rw dev vec)

/-- Removing a server leaves the device the same function. -/
theorem RemOutcome.sameFunction {pcie : PciController σ} {dev : PciDevice} {vec : ℕ}
    {isr : Option Interrupt} {r : PciController σ × PciDevice}
    (h : RemOutcome pcie dev vec isr r) : SameFunction dev r.2 := by
  cases h with
  | ignored => exact SameFunction.refl dev
  | intx =>
    have hintx := SameFunction.of_sameRecord (pciIntx_sameRecord dev false) (pciIntx_rw _ _)
    exact ⟨hintx.rw, hintx.msi, hintx.msix, hintx.gicIrq⟩
  | slot =>
    exact SameFunction.of_sameRecord (pciIrqVecClose_sameRecord dev vec) (pciIrqVecClose_rw dev vec)

omit [Gic400 σ] in
/-- The runtime mask leaves the device the same function. -/
theorem MaskOutcome.sameFunction {pcie : PciController σ} {dev : PciDevice} {vec : ℕ}
    {open' : Bool} {r : PciController σ × PciDevice × Bool}
    (h : MaskOutcome pcie dev vec open' r) : SameFunction dev r.2.1 := by
  cases h with
  | badVec => exact SameFunction.refl dev
  | intx => exact SameFunction.of_sameRecord (pciIntx_sameRecord dev _) (pciIntx_rw _ _)
  | slot => exact SameFunction.refl dev

/-- Teardown leaves the device the same function. -/
theorem pciIrqVectorsFree_sameFunction (pcie : PciController σ) (dev : PciDevice) :
    SameFunction dev (pciIrqVectorsFree pcie dev).2 := by
  obtain ⟨used, heq⟩ := pciIrqVectorsFree_eq pcie dev
  have hdetach : SameFunction dev (detachServers pcie dev dev.active.nvec).2 :=
    detachServers_invariant (P := fun _ d => SameFunction dev d)
      (fun p d v isr h => h.trans (pciIrqRemServer_outcome p d v isr).sameFunction) pcie dev _
      (SameFunction.refl dev)
  have hoff := hdetach.trans (SameFunction.of_sameRecord (switchOff_sameRecord _) (switchOff_rw _))
  rw [heq]
  exact ⟨hoff.rw, hoff.msi, hoff.msix, hoff.gicIrq⟩

variable [DecidableEq ι]

/-- **Frame.** Every core call leaves every device the same function. -/
theorem irqStep_sameFunction (s : IrqState ι σ) (c : IrqCall ι) (j : ι) :
    SameFunction (s.devs j) ((irqStep s c).devs j) := by
  have htarget : SameFunction (s.devs c.target) (c.apply s.pcie (s.devs c.target)).2 := by
    cases c with
    | vectorsAlloc i min max flags =>
      exact (pciIrqVectorsAlloc_outcome s.pcie (s.devs i) min max flags).sameFunction
    | vectorsFree i => exact pciIrqVectorsFree_sameFunction s.pcie (s.devs i)
    | addServer i vec isr => exact (pciIrqAddServer_outcome s.pcie (s.devs i) vec isr).sameFunction
    | remServer i vec isr => exact (pciIrqRemServer_outcome s.pcie (s.devs i) vec isr).sameFunction
    | vecMask i vec => exact (pciIrqVecMask_outcome s.pcie (s.devs i) vec).sameFunction
    | vecUnmask i vec => exact (pciIrqVecUnmask_outcome s.pcie (s.devs i) vec).sameFunction
  unfold irqStep
  by_cases hj : j = c.target
  · subst hj
    rwa [put_devs_self]
  · rw [put_devs_of_ne _ _ _ _ hj]
    exact SameFunction.refl _

end BcmPcie
