import BcmPcie.Irq.LibraryCalls

/-! # The INTx gate

A device in INTx mode is meant to assert its shared, level-triggered line only while its own server is
attached: `INTX_DISABLE` is set after the allocation, before a server is added, and after it is
removed. Removing a server does set it; an allocation takes the bit as it finds it, and the runtime
unmask clears it without looking for a server.

* `intxGuarded_vectorStep_iff` — exactly which typed calls keep the guard.
* `along_intxGuarded_iff` — the same of a whole run. -/

namespace BcmPcie

open Runs

variable {ι σ : Type*}

/-- A device in INTx mode without a server does not assert its line. -/
def IntxGuard (dev : PciDevice) : Prop :=
  dev.active.mode = .intx → dev.active.intxServer = none → IntxDisabled dev

instance (dev : PciDevice) : Decidable (IntxGuard dev) :=
  inferInstanceAs (Decidable (_ → _ → _))

/-- Every device keeps the INTx guard. -/
def IntxGuarded (s : IrqState ι σ) : Prop := ∀ i, IntxGuard (s.devs i)

/-- The call does not open INTx for a device without a server: an `AllocIntVectors` that picks INTx
finds `INTX_DISABLE` set, and an `UnmaskIntVector` of an INTx vector finds a server. -/
def OpensIntxAttached (s : IrqState ι σ) : VectorCall ι → Prop
  | .allocIntVectors (some i) min max flags =>
    PicksIntx s.pcie (s.devs i) min max flags → IntxDisabled (s.devs i)
  | .unmaskIntVector (some i) vec =>
    vec < (s.devs i).active.nvec → (s.devs i).active.mode = .intx →
      (s.devs i).active.intxServer ≠ none
  | _ => True

/-- In another mode the guard says nothing. -/
theorem intxGuard_of_ne {dev : PciDevice} (h : dev.active.mode ≠ .intx) : IntxGuard dev :=
  fun hmode => absurd hmode h

/-- After the probe no function is in INTx mode. -/
theorem Probed.intxGuarded {s : IrqState ι σ} (h : Probed s) : IntxGuarded s := by
  intro i
  refine intxGuard_of_ne ?_
  rw [(h.devs i).decoded.1]
  decide

/-- **Allocation.** It keeps the guard just when it does not pick INTx with the line let through. -/
theorem intxGuard_alloc_iff (pcie : PciController σ) {dev : PciDevice}
    (hshape : AllocShape dev.active) (hdec : MsixDecoded dev) (h : IntxGuard dev) (min max : ℕ)
    (flags : BitVec 32) :
    IntxGuard (pciIrqVectorsAlloc pcie dev min max flags).2.1 ↔
      (PicksIntx pcie dev min max flags → IntxDisabled dev) := by
  have hout := pciIrqVectorsAlloc_outcome pcie dev min max flags
  by_cases hidle : dev.active.mode = .idle
  · have hpick := pciIrqVectorsAlloc_intx_iff pcie dev min max flags hidle (fun h => (hdec.2 h).2)
    rw [← hpick]
    generalize pciIrqVectorsAlloc pcie dev min max flags = r at hout ⊢
    have hnot : r.2.1.active.mode ≠ .intx → (IntxGuard r.2.1 ↔
        (r.2.1.active.mode = .intx → IntxDisabled dev)) :=
      fun hne => iff_of_true (intxGuard_of_ne hne) fun hm => absurd hm hne
    cases hout with
    | refused => exact hnot (by simp [hidle])
    | msix => exact hnot (by simp)
    | msi => exact hnot (by simp)
    | intx slots =>
      have hnone : dev.active.intxServer = none := by
        by_contra hne
        exact absurd (hidle.symm.trans (hshape.intxServer hne)) (by decide)
      exact ⟨fun hg _ => hg rfl hnone, fun hd _ _ => hd rfl⟩
  -- a device with an allocation is refused, and its registers are left alone
  · generalize pciIrqVectorsAlloc pcie dev min max flags = r at hout ⊢
    refine iff_of_true ?_ fun hpick => absurd hpick.1 hidle
    cases hout with
    | refused e slots hslots =>
      rw [hslots hidle]
      exact h
    | msix _ _ _ hi => exact absurd hi hidle
    | msi _ _ _ _ hi => exact absurd hi hidle
    | intx _ hi => exact absurd hi hidle

variable [DecidableEq ι] [Gic400 σ] {s : IrqState ι σ}

omit [Gic400 σ] in
/-- With all devices guarded before, a change of one is guarded just when that one is. -/
theorem intxGuarded_put_iff (h : IntxGuarded s) (i : ι) (pcie : PciController σ) (dev : PciDevice) :
    IntxGuarded (s.put i pcie dev) ↔ IntxGuard dev := by
  refine ⟨fun hall => ?_, fun hdev => forall_devs_put s i pcie dev h hdev⟩
  have hi := hall i
  rwa [put_devs_self] at hi

omit [DecidableEq ι] in
/-- A server that is added is there when the line is let through. -/
theorem intxGuard_add {pcie : PciController σ} {dev : PciDevice} {vec : ℕ}
    {isr : Option Interrupt} (h : IntxGuard dev) (hisr : isr ≠ none)
    {r : PciController σ × PciDevice × Except Errno Unit}
    (hout : AddOutcome pcie dev vec isr r) : IntxGuard r.2.1 := by
  cases hout with
  | badVec => exact h
  | busy => exact h
  | gicRefused => exact h
  | intx =>
    intro _ hnone
    rw [pciIntx_active] at hnone
    exact absurd hnone hisr
  | slot _ hmode =>
    refine intxGuard_of_ne ?_
    rwa [(pciIrqVecOpen_sameRecord dev vec).active]

omit [DecidableEq ι] in
/-- The line is closed before its server goes. -/
theorem intxGuard_rem {pcie : PciController σ} {dev : PciDevice} {vec : ℕ}
    {isr : Option Interrupt} (h : IntxGuard dev) (hw : IntxWritable dev)
    {r : PciController σ × PciDevice} (hout : RemOutcome pcie dev vec isr r) : IntxGuard r.2 := by
  cases hout with
  | ignored => exact h
  | intx => exact fun _ _ => intxDisabled_pciIntx_false dev hw
  | slot _ hmode =>
    refine intxGuard_of_ne ?_
    rwa [(pciIrqVecClose_sameRecord dev vec).active]

omit [DecidableEq ι] [Gic400 σ] in
/-- The runtime mask closes the line. -/
theorem intxGuard_mask (pcie : PciController σ) {dev : PciDevice} (vec : ℕ) (h : IntxGuard dev)
    (hw : IntxWritable dev) : IntxGuard (pciIrqVecMask pcie dev vec).2.1 := by
  have hout := pciIrqVecMask_outcome pcie dev vec
  generalize pciIrqVecMask pcie dev vec = r at hout ⊢
  cases hout with
  | badVec => exact h
  | intx => exact fun _ _ => intxDisabled_pciIntx_false dev hw
  | slot => exact h

omit [DecidableEq ι] [Gic400 σ] in
/-- **The runtime unmask.** It keeps the guard just when an INTx vector it opens has a server. -/
theorem intxGuard_unmask_iff (pcie : PciController σ) {dev : PciDevice} (vec : ℕ)
    (h : IntxGuard dev) (hw : IntxWritable dev) :
    IntxGuard (pciIrqVecUnmask pcie dev vec).2.1 ↔
      (vec < dev.active.nvec → dev.active.mode = .intx → dev.active.intxServer ≠ none) := by
  have hout := pciIrqVecUnmask_outcome pcie dev vec
  generalize pciIrqVecUnmask pcie dev vec = r at hout ⊢
  cases hout with
  | badVec hvec => exact iff_of_true h fun hlt => absurd hvec (Nat.not_le.2 hlt)
  | intx hvec hmode =>
    constructor
    · intro hg _ _ hnone
      refine intxDisabled_pciIntx_true dev hw (hg ?_ ?_)
      · rwa [pciIntx_active]
      · rwa [pciIntx_active]
    · intro hserver _ hnone
      rw [pciIntx_active] at hnone
      exact absurd hnone (hserver hvec hmode)
  | slot _ hmode => exact iff_of_true h fun _ hm => absurd hm hmode

/-- What the guard rests on besides itself: the ledger, what probe decoded, and a command register
that implements `INTX_DISABLE`. -/
structure IntxReady (s : IrqState ι σ) : Prop where
  ledger : s.SlotsOwned
  decoded : ∀ i, MsixDecoded (s.devs i)
  writable : ∀ i, IntxWritable (s.devs i)

/-- A call on a vector leaves the functions ready. -/
theorem IntxReady.vectorStep (h : IntxReady s) (c : VectorCall ι) :
    IntxReady (vectorStep s c) := by
  have hsame : SameFunctions s (BcmPcie.vectorStep s c) :=
    sameFunctions_libStep s s (.vector c) fun j => SameFunction.refl _
  exact ⟨slotsOwned_vectorStep s c h.ledger, fun i => (hsame i).msixDecoded (h.decoded i),
    fun i => (hsame i).intxWritable (h.writable i)⟩

/-- **One typed call.** It keeps the guard just when it does not open INTx for a device without a
server. -/
theorem intxGuarded_vectorStep_iff (hr : IntxReady s) (h : IntxGuarded s) (c : VectorCall ι) :
    IntxGuarded (vectorStep s c) ↔ OpensIntxAttached s c := by
  rw [vectorStep_eq]
  -- only an allocation and an unmask can open the line of a device without a server
  cases c with
  | allocIntVectors dev min max flags =>
    cases dev with
    | none => exact iff_of_true h trivial
    | some i =>
      exact (intxGuarded_put_iff h i _ _).trans
        (intxGuard_alloc_iff s.pcie (hr.ledger.shape i) (hr.decoded i) (h i) min max flags)
  | freeIntVectors dev =>
    refine iff_of_true ?_ trivial
    cases dev with
    | none => exact h
    | some i =>
      refine (intxGuarded_put_iff h i _ _).2 (intxGuard_of_ne ?_)
      have hidle := (pciIrqVectorsFree_ledger s.pcie (s.devs i) (hr.ledger.shape i)).1
      simp only [IrqCall.apply, IrqCall.target]
      rw [hidle]
      decide
  | addIntVectorServer dev vec isr =>
    refine iff_of_true ?_ trivial
    obtain _ | i := dev
    · exact h
    · obtain _ | server := isr
      · exact h
      · exact (intxGuarded_put_iff h i _ _).2 (intxGuard_add (h i) (Option.some_ne_none server)
          (pciIrqAddServer_outcome s.pcie (s.devs i) vec _))
  | remIntVectorServer dev vec isr =>
    refine iff_of_true ?_ trivial
    obtain _ | i := dev
    · exact h
    · obtain _ | server := isr
      · exact h
      · exact (intxGuarded_put_iff h i _ _).2 (intxGuard_rem (h i) (hr.writable i)
          (pciIrqRemServer_outcome s.pcie (s.devs i) vec (some server)))
  | maskIntVector dev vec =>
    refine iff_of_true ?_ trivial
    cases dev with
    | none => exact h
    | some i => exact (intxGuarded_put_iff h i _ _).2 (intxGuard_mask s.pcie vec (h i) (hr.writable i))
  | unmaskIntVector dev vec =>
    cases dev with
    | none => exact iff_of_true h trivial
    | some i =>
      exact (intxGuarded_put_iff h i _ _).trans
        (intxGuard_unmask_iff s.pcie vec (h i) (hr.writable i))

/-- **The INTx gate over a run.** From probe, on devices that implement `INTX_DISABLE`, a device in INTx
mode without a server is quiet at every point of a run just when no call of the run opens INTx for a
device without a server. -/
theorem along_intxGuarded_iff (h : Probed s) (hw : ∀ i, IntxWritable (s.devs i))
    (cs : List (VectorCall ι)) :
    Along vectorStep IntxGuarded s cs ↔ EveryStep vectorStep OpensIntxAttached s cs :=
  along_iff_everyStep (Q := IntxReady) (fun _ c hr => hr.vectorStep c)
    (fun _ c hr hs => intxGuarded_vectorStep_iff hr hs c)
    ⟨h.slotsOwned, fun i => (h.devs i).decoded.2.2, hw⟩ h.intxGuarded

/-- An INTx vector as allocated after probe: no server is attached, and the line is let through. -/
theorem intxGuarded_fails_sample :
    Probed sampleState ∧
      ¬ IntxGuarded (run vectorStep sampleState
        [.allocIntVectors (some false) 1 1 pciIrqIntx]) :=
  ⟨sampleState_probed, fun h => absurd (h false) (by decide +kernel)⟩

/-- The sample device can have INTx switched off. -/
theorem sampleDevice_intxWritable : IntxWritable sampleDevice :=
  sampleDevice_writable _ (by decide)

/-- A device that is given MSI, loses its vectors, and is given INTx: `INTX_DISABLE` is set by the
MSI allocation, and stays. -/
theorem along_intxGuarded_sample :
    Along vectorStep IntxGuarded sampleState
      [.allocIntVectors (some false) 1 1 pciIrqMsi, .freeIntVectors (some false),
        .allocIntVectors (some false) 1 1 pciIrqIntx] ↔
    EveryStep vectorStep OpensIntxAttached sampleState
      [.allocIntVectors (some false) 1 1 pciIrqMsi, .freeIntVectors (some false),
        .allocIntVectors (some false) 1 1 pciIrqIntx] :=
  along_intxGuarded_iff sampleState_probed (fun _ => sampleDevice_intxWritable) _

end BcmPcie
