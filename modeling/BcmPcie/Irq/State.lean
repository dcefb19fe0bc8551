import BcmPcie.Irq.Servers
import BcmPcie.Library.Runs

/-! # The interrupt layer as a state machine

One controller and its devices, under the calls of `pci_irq.h`. `ι` names the devices of the
controller; nothing is assumed of how many there are.

* `irqStep` — one call of the core.
* `Probed` — the states that probe leaves. -/

namespace BcmPcie

variable {ι σ : Type*}

/-- A controller and its devices. -/
structure IrqState (ι σ : Type*) where
  pcie : PciController σ
  devs : ι → PciDevice

/-- The calls of the core that change the state. -/
inductive IrqCall (ι : Type*)
  | vectorsAlloc (dev : ι) (min max : ℕ) (flags : BitVec 32)
  | vectorsFree (dev : ι)
  | addServer (dev : ι) (vec : ℕ) (isr : Option Interrupt)
  | remServer (dev : ι) (vec : ℕ) (isr : Option Interrupt)
  | vecMask (dev : ι) (vec : ℕ)
  | vecUnmask (dev : ι) (vec : ℕ)
  deriving DecidableEq

/-- The device a call is about. -/
def IrqCall.target : IrqCall ι → ι
  | .vectorsAlloc dev .. => dev
  | .vectorsFree dev => dev
  | .addServer dev .. => dev
  | .remServer dev .. => dev
  | .vecMask dev _ => dev
  | .vecUnmask dev _ => dev

variable [DecidableEq ι]

/-- The state with a controller and one device replaced. -/
def IrqState.put (s : IrqState ι σ) (i : ι) (pcie : PciController σ) (dev : PciDevice) :
    IrqState ι σ :=
  ⟨pcie, Function.update s.devs i dev⟩

section Put

variable (s : IrqState ι σ) (i : ι) (pcie : PciController σ) (dev : PciDevice)

@[simp] theorem put_pcie : (s.put i pcie dev).pcie = pcie := rfl

@[simp] theorem put_devs_self : (s.put i pcie dev).devs i = dev := Function.update_self _ _ _

/-- Putting back one record leaves the others. -/
theorem put_devs_of_ne {j : ι} (h : j ≠ i) : (s.put i pcie dev).devs j = s.devs j :=
  Function.update_of_ne h _ _

@[simp] theorem put_self : s.put i s.pcie (s.devs i) = s := by
  unfold IrqState.put
  rw [Function.update_eq_self]

/-- A property of every device survives a change of one that keeps it. -/
theorem forall_devs_put {P : PciDevice → Prop} (h : ∀ j, P (s.devs j)) (hdev : P dev) :
    ∀ j, P ((s.put i pcie dev).devs j) := by
  intro j
  by_cases hj : j = i
  · subst hj
    rwa [put_devs_self]
  · rw [put_devs_of_ne s i pcie dev hj]
    exact h j

end Put

variable [Gic400 σ]

/-- What a call makes of its device and the controller. -/
def IrqCall.apply (pcie : PciController σ) (dev : PciDevice) :
    IrqCall ι → PciController σ × PciDevice
  | .vectorsAlloc _ min max flags =>
    let r := pciIrqVectorsAlloc pcie dev min max flags
    (r.1, r.2.1)
  | .vectorsFree _ => pciIrqVectorsFree pcie dev
  | .addServer _ vec isr =>
    let r := pciIrqAddServer pcie dev vec isr
    (r.1, r.2.1)
  | .remServer _ vec isr => pciIrqRemServer pcie dev vec isr
  | .vecMask _ vec =>
    let r := pciIrqVecMask pcie dev vec
    (r.1, r.2.1)
  | .vecUnmask _ vec =>
    let r := pciIrqVecUnmask pcie dev vec
    (r.1, r.2.1)

/-- One call of the core. -/
def irqStep (s : IrqState ι σ) (c : IrqCall ι) : IrqState ι σ :=
  let r := c.apply s.pcie (s.devs c.target)
  s.put c.target r.1 r.2

/-! ## Probe -/

omit [DecidableEq ι] [Gic400 σ]

/-- A function as probe leaves it: freshly created, its interrupt capabilities decoded. -/
def DeviceProbed (dev : PciDevice) : Prop :=
  ∃ raw : PciDevice, raw.active = {} ∧ raw.msi = {} ∧ raw.msix = {} ∧
    dev = pciMsixInit (pciMsiInit raw)

/-- A controller and its devices as probe leaves them: no slot reserved or bound, every slot masked,
the doorbell where the root complex was set up to expect it. -/
structure Probed (s : IrqState ι σ) : Prop where
  used : s.pcie.msi.used = 0
  servers : ∀ j, s.pcie.msi.servers j = none
  mask : s.pcie.intr2.mask = BitVec.allOnes 32
  targetAddr : s.pcie.msi.targetAddr = brcmMsiTargetAddrLt4gb
  devs : ∀ i, DeviceProbed (s.devs i)

/-! ### What probe decodes -/

/-- Setting up MSI leaves the mode. -/
theorem pciMsiInit_active (dev : PciDevice) : (pciMsiInit dev).active = dev.active := by
  unfold pciMsiInit
  dsimp only
  split <;> rfl

/-- Setting up MSI leaves the MSI-X state. -/
theorem pciMsiInit_msix (dev : PciDevice) : (pciMsiInit dev).msix = dev.msix := by
  unfold pciMsiInit
  dsimp only
  split <;> rfl

/-- Decoding the MSI capability leaves it in the shape the rest relies on, with the shadow of the
mask register seeded from it. -/
theorem pciMsiInit_decoded (raw : PciDevice) (hmsi : raw.msi = {}) :
    MsiDecoded (pciMsiInit raw) ∧ MaskSynced (pciMsiInit raw) := by
  obtain h0 | hcap := pciFindCapability_spec raw pciCapIdMsi
  · unfold pciMsiInit
    dsimp only
    rw [if_pos h0]
    refine ⟨Or.inl ⟨h0, by simp [hmsi]⟩, fun h => ?_⟩
    simp [hmsi] at h
  · have hne : pciFindCapability raw pciCapIdMsi ≠ 0 := by
      have := hcap.1
      omega
    unfold pciMsiInit
    dsimp only
    rw [if_neg hne]
    refine ⟨Or.inr ⟨hcap, rfl⟩, fun h => ?_⟩
    simp only at h ⊢
    rw [if_pos h]
    rfl

/-- What probe decodes of the MSI-X capability: its offset, and a table of at least one entry where
the table can be reached. -/
def MsixDecoded (dev : PciDevice) : Prop :=
  (dev.msix.capOffset = 0 ∨ IsCapOffset dev.msix.capOffset) ∧
    (dev.msix.tableVirt ≠ none → dev.msix.capOffset ≠ 0 ∧ 1 ≤ dev.msix.tableSize)

/-- Decoding the MSI-X capability writes its control word and the decoded fields alone. -/
theorem pciMsixInit_cases (dev : PciDevice) :
    (pciFindCapability dev pciCapIdMsix = 0 ∧
      pciMsixInit dev = { dev with msix := { dev.msix with capOffset := 0 } }) ∨
    ∃ size table, IsCapOffset (pciFindCapability dev pciCapIdMsix) ∧
      (table = dev.msix.tableVirt ∨ 1 ≤ size) ∧
      pciMsixInit dev
        = { pciWriteConfig16 dev (pciFindCapability dev pciCapIdMsix + pciMsixFlags)
              (pciReadConfig16 dev (pciFindCapability dev pciCapIdMsix + pciMsixFlags)
                &&& ~~~pciMsixFlagsEnable ||| 0) with
            msix := ⟨pciFindCapability dev pciCapIdMsix, size, table⟩ } := by
  obtain h0 | hcap := pciFindCapability_spec dev pciCapIdMsix
  · refine Or.inl ⟨h0, ?_⟩
    unfold pciMsixInit
    dsimp only
    rw [if_pos h0, h0]
  · have hne : pciFindCapability dev pciCapIdMsix ≠ 0 := by
      have := hcap.1
      omega
    right
    unfold pciMsixInit
    dsimp only
    rw [if_neg hne]
    split
    · exact ⟨_, _, hcap, Or.inl rfl, rfl⟩
    · split
      · exact ⟨_, _, hcap, Or.inl rfl, rfl⟩
      · exact ⟨_, _, hcap, Or.inr (Nat.le_add_left 1 _), rfl⟩

/-- The bytes of the MSI capability structure, up to its mask and pending registers. -/
def msiLength (dev : PciDevice) : ℕ :=
  if dev.msi.addr64 then (if dev.msi.maskable then 24 else 14)
  else if dev.msi.maskable then 20 else 10

/-- The two capability structures of a device share no byte. -/
def CapsApart (dev : PciDevice) : Prop :=
  dev.msi.capOffset ≠ 0 → dev.msix.capOffset ≠ 0 →
    dev.msi.capOffset + msiLength dev ≤ dev.msix.capOffset ∨
      dev.msix.capOffset + 12 ≤ dev.msi.capOffset

/-- MSI-X operations stay clear of the MSI mask register. -/
theorem msixRanges_apart_mask {dev : PciDevice} (hdec : MsiDecoded dev)
    (hmsix : IsCapOffset dev.msix.capOffset) (hapart : CapsApart dev)
    (hmaskable : dev.msi.maskable = true) :
    ∀ r ∈ msixRanges dev, RegisterFile.Apart (8 * r.2) r.1 32 dev.msi.maskOffset := by
  obtain ⟨-, hnot⟩ | ⟨hcap, hoff⟩ := hdec
  · rw [hnot] at hmaskable
    exact absurd hmaskable (by decide)
  · have hge := hcap.1
    have hge' := hmsix.1
    have hsep := hapart (by omega) (by omega)
    unfold msiLength at hsep
    rw [hmaskable] at hsep
    intro r hr
    simp only [msixRanges, List.mem_cons, List.not_mem_nil, or_false, pciCommand,
      pciMsixFlags] at hr
    unfold RegisterFile.Apart
    rw [hoff]
    cases h64 : dev.msi.addr64 <;>
      simp only [h64, if_true, if_false, Bool.false_eq_true, pciMsiMask64, pciMsiMask32]
        at hsep ⊢
    · rcases hr with rfl | rfl <;> dsimp only <;> omega
    · rcases hr with rfl | rfl <;> dsimp only <;> omega

/-- A probed device has no allocation, and both capabilities decoded. -/
theorem DeviceProbed.decoded {dev : PciDevice} (h : DeviceProbed dev) :
    dev.active = {} ∧ MsiDecoded dev ∧ MsixDecoded dev := by
  obtain ⟨raw, hactive, hmsi, hmsix, rfl⟩ := h
  have hact : (pciMsiInit raw).active = {} := (pciMsiInit_active raw).trans hactive
  have hmsix' : (pciMsiInit raw).msix = {} := (pciMsiInit_msix raw).trans hmsix
  have hdec := (pciMsiInit_decoded raw hmsi).1
  obtain ⟨h0, heq⟩ | ⟨size, table, hcap, htable, heq⟩ := pciMsixInit_cases (pciMsiInit raw)
  · rw [heq]
    exact ⟨hact, hdec, Or.inl rfl, fun h => absurd (by rw [hmsix']) h⟩
  · rw [heq]
    refine ⟨hact, hdec, Or.inr hcap, fun h => ⟨?_, ?_⟩⟩
    · have := hcap.1
      dsimp only
      omega
    · rw [hmsix'] at htable
      exact htable.resolve_left h

/-- The shadow of the MSI mask register still agrees with it after the MSI-X capability is decoded.
-/
theorem DeviceProbed.maskSynced {dev : PciDevice} (h : DeviceProbed dev) (hapart : CapsApart dev) :
    MaskSynced dev := by
  have hdec := h.decoded.2.1
  obtain ⟨raw, -, hmsi, -, rfl⟩ := h
  have hsync := (pciMsiInit_decoded raw hmsi).2
  intro hmaskable
  obtain ⟨h0, heq⟩ | ⟨size, table, hcap, -, heq⟩ := pciMsixInit_cases (pciMsiInit raw)
  · rw [heq] at hmaskable ⊢
    exact hsync hmaskable
  · have hcap' : IsCapOffset (pciMsixInit (pciMsiInit raw)).msix.capOffset := by rw [heq]; exact hcap
    have hclear := msixRanges_apart_mask hdec hcap' hapart hmaskable
    have hmsi' : (pciMsixInit (pciMsiInit raw)).msi = (pciMsiInit raw).msi := by rw [heq]; rfl
    have hcfg : (pciMsiInit raw).cfg.SameOutside (msixRanges (pciMsixInit (pciMsiInit raw)))
        (pciMsixInit (pciMsiInit raw)).cfg := by
      rw [heq]
      exact pciWriteConfig_sameOutside (pciMsiInit raw) 2 _ _ (by simp [msixRanges])
    have hread : readMask (pciMsixInit (pciMsiInit raw)) = readMask (pciMsiInit raw) := by
      refine (pciReadConfig_of_sameOutside hcfg hclear).trans ?_
      rw [readMask, hmsi']
    rw [hread, hmsi']
    exact hsync (by rwa [← hmsi'])

/-! ## A small machine

Two alike functions on one controller, each with an MSI capability of 32 maskable vectors, an MSI-X
capability of eight and a routed INTx pin. -/

/-- A configuration space with the two capabilities, all of it writable. -/
def sampleSpace : RegisterFile 4096 :=
  let space : RegisterFile 4096 := ⟨0, BitVec.allOnes _⟩
  let space := space.write 16 pciStatus pciStatusCapList
  let space := space.write 8 pciCapabilityList 0x50
  let space := space.write 16 0x50 0x7005
  let space := space.write 16 (0x50 + pciMsiFlags) 0x018a
  let space := space.write 16 0x70 0x0011
  space.write 16 (0x70 + pciMsixFlags) 7

/-- The function with its MSI-X table in a mapped BAR, before its capabilities are decoded. -/
def sampleRaw : PciDevice where
  cfg := sampleSpace
  tableMem := fun _ => 0
  intx := { gicIrq := 175 }
  barsNum := 6
  bars := fun _ => { present := true, size := 0x1000, virtAddr := some 0x10000000 }

/-- The function after probe. -/
@[irreducible] def sampleDevice : PciDevice := pciMsixInit (pciMsiInit sampleRaw)

/-- The machine after probe. -/
def sampleState : IrqState Bool GicTable where
  pcie := { msi := ⟨0xfffffffc, fun _ => none, 0⟩, intr2 := ⟨0, BitVec.allOnes 32⟩, gic400 := [] }
  devs := fun _ => sampleDevice

/-- The sample device is as after the probe. -/
theorem sampleDevice_probed : DeviceProbed sampleDevice := by
  unfold sampleDevice
  exact ⟨sampleRaw, rfl, rfl, rfl, rfl⟩

/-- So is the sample state. -/
theorem sampleState_probed : Probed sampleState :=
  ⟨rfl, fun _ => rfl, rfl, rfl, fun _ => sampleDevice_probed⟩

/-- Every bit of the space is implemented. -/
theorem sampleDevice_writable {w off : ℕ} (m : BitVec w) (h : 8 * off + w ≤ 8 * 4096) :
    sampleDevice.cfg.Writable w off m := by
  have hrw : sampleDevice.cfg.rw = BitVec.allOnes _ := by decide +kernel
  intro j hj _
  rw [hrw, BitVec.getLsbD_allOnes, decide_eq_true_eq]
  omega

example : sampleDevice.msi = ⟨0x50, 0, true, true, 5, 0x60⟩ := by decide +kernel

example : sampleDevice.msix = ⟨0x70, 8, some 0x10000000⟩ := by decide +kernel

end BcmPcie
