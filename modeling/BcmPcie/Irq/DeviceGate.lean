import BcmPcie.Irq.LibraryCalls

/-! # The gates at the devices

Each vector has a gate at its device — the mask bit of its MSI-X table entry, or its bit of the MSI
mask register — that is open exactly while the vector has a server. The gates are moved by
programming, by adding and removing servers, by teardown and by the MSI shutdown, for MSI through the
shadow `msi.mask`.

* `DeviceGate` — the gates of one device agree with its servers, and the shadow with the register.
* `deviceGates_run` — they do in every state reached from probe. -/

namespace BcmPcie

open BitSet Runs

variable {ι σ : Type*}

/-- The mask bit of an MSI-X table entry. -/
def entryMasked (dev : PciDevice) (vec : ℕ) : Bool :=
  (dev.tableMem (msixEntry vec + pciMsixEntryVectorCtrl)).getLsbD 0

/-- The gates of a device agree with its servers. -/
structure DeviceGate (pcie : PciController σ) (dev : PciDevice) : Prop where
  synced : MaskSynced dev
  msix : dev.active.mode = .msix → ∀ v < dev.active.nvec,
    (entryMasked dev v = false ↔ pciIrqVecServer pcie dev v ≠ none)
  msi : dev.active.mode = .msi → dev.msi.maskable = true →
    ∀ v < 32, v < 2 ^ dev.msi.log2MaxVecs →
      ((readMask dev).getLsbD v = false ↔
        v < dev.active.nvec ∧ pciIrqVecServer pcie dev v ≠ none)

/-- What the gates of a device rest on: the decoded capabilities, apart from each other, and mask
bits that are implemented for every vector the device is capable of. -/
structure GateHardware (dev : PciDevice) : Prop where
  msi : MsiDecoded dev
  msix : MsixDecoded dev
  apart : CapsApart dev
  writable : MaskWritable dev

/-- Whether the gates are there is a property of the hardware. -/
theorem SameFunction.gateHardware {dev dev' : PciDevice} (h : SameFunction dev dev')
    (hw : GateHardware dev) : GateHardware dev' :=
  ⟨h.msiDecoded hw.msi, h.msixDecoded hw.msix, h.capsApart hw.apart, h.maskWritable hw.writable⟩

/-- The vectors in use fit the device's mask register. -/
def VecsFit (dev : PciDevice) : Prop :=
  dev.active.mode = .msi → dev.active.nvec ≤ 32 ∧ dev.active.nvec ≤ 2 ^ dev.msi.log2MaxVecs

/-- Whether the vectors fit depends on the hardware, the mode and their number. -/
theorem VecsFit.congr {dev dev' : PciDevice} (h : VecsFit dev) (hsame : SameFunction dev dev')
    (hmode : dev'.active.mode = dev.active.mode) (hnvec : dev'.active.nvec = dev.active.nvec) :
    VecsFit dev' := by
  unfold VecsFit at h ⊢
  rw [hmode, hnvec, hsame.msi]
  exact h

/-! ## One device -/

section Device

variable {pcie pcie' : PciController σ} {dev dev' : PciDevice}

/-- In a mode that uses slots the server of a vector is that of its slot. -/
theorem pciIrqVecServer_of_usesSlots (h : UsesSlots dev.active.mode) (v : ℕ) :
    pciIrqVecServer pcie dev v = pcie.msi.servers (dev.active.slots v) := by
  unfold pciIrqVecServer
  rw [if_neg ?_]
  · rfl
  · rintro hmode
    rw [hmode] at h
    exact absurd h (by decide)

/-- The mask register is behind the configuration header. -/
theorem maskOffset_ge (hdec : MsiDecoded dev) (hmaskable : dev.msi.maskable = true) :
    0x40 ≤ dev.msi.maskOffset := by
  obtain ⟨-, hnot⟩ | ⟨hcap, hoff⟩ := hdec
  · rw [hnot] at hmaskable
    exact absurd hmaskable (by decide)
  · have := hcap.1
    rw [hoff]
    omega

/-- Writes to the command register, and to nothing else, leave the mask register alone. -/
theorem readMask_of_command (hdec : MsiDecoded dev) (hmaskable : dev.msi.maskable = true)
    (hmsi : dev'.msi = dev.msi) (hcfg : dev.cfg.SameOutside [(pciCommand, 2)] dev'.cfg) :
    readMask dev' = readMask dev := by
  have hge := maskOffset_ge hdec hmaskable
  refine Eq.trans ?_ (pciReadConfig_of_sameOutside hcfg fun r hr => ?_)
  · rw [readMask, hmsi]
  · rw [List.mem_singleton] at hr
    subst hr
    exact Or.inl (by dsimp only [pciCommand]; omega)

/-- MSI-X operations leave the mask register alone. -/
theorem readMask_of_msixRanges (hw : GateHardware dev) (hmaskable : dev.msi.maskable = true)
    (hmsi : dev'.msi = dev.msi) (hcfg : dev.cfg.SameOutside (msixRanges dev) dev'.cfg) :
    readMask dev' = readMask dev := by
  have hclear : ∀ r ∈ msixRanges dev, RegisterFile.Apart (8 * r.2) r.1 32 dev.msi.maskOffset := by
    obtain h0 | hcap := hw.msix.1
    · -- without the capability only the header is written
      have hge := maskOffset_ge hw.msi hmaskable
      intro r hr
      simp only [msixRanges, h0, List.mem_cons, List.not_mem_nil, or_false, pciCommand,
        pciMsixFlags] at hr
      obtain rfl | rfl := hr
      · exact Or.inl (by dsimp only; omega)
      · exact Or.inl (by dsimp only; omega)
    · exact msixRanges_apart_mask hw.msi hcap hw.apart hmaskable
  refine Eq.trans ?_ (pciReadConfig_of_sameOutside hcfg hclear)
  rw [readMask, hmsi]

/-- Programming the MSI message and moving the MSI enable bit leave the mask register alone. -/
theorem readMask_of_msiMsgRanges (hdec : MsiDecoded dev) (hmaskable : dev.msi.maskable = true)
    (hmsi : dev'.msi = dev.msi) (hcfg : dev.cfg.SameOutside (msiMsgRanges dev) dev'.cfg) :
    readMask dev' = readMask dev := by
  have hclear := msiMsgRanges_apart_mask hdec hmaskable
  refine Eq.trans ?_ (pciReadConfig_of_sameOutside hcfg hclear)
  rw [readMask, hmsi]

/-- Whether the shadow agrees depends on it and on the register. -/
theorem MaskSynced.congr (h : MaskSynced dev) (hmsi : dev'.msi = dev.msi)
    (hread : dev.msi.maskable = true → readMask dev' = readMask dev) : MaskSynced dev' := by
  intro hmaskable
  rw [hmsi] at hmaskable ⊢
  rw [hread hmaskable]
  exact h hmaskable

/-- What moves neither gates nor servers keeps the gates. -/
theorem DeviceGate.congr (h : DeviceGate pcie dev) (hactive : dev'.active = dev.active)
    (hmsi : dev'.msi = dev.msi)
    (hread : dev.msi.maskable = true → readMask dev' = readMask dev)
    (htable : dev'.tableMem = dev.tableMem)
    (hservers : UsesSlots dev.active.mode → ∀ v < dev.active.nvec,
      pcie'.msi.servers (dev.active.slots v) = pcie.msi.servers (dev.active.slots v)) :
    DeviceGate pcie' dev' := by
  have hserver : UsesSlots dev.active.mode → ∀ v < dev.active.nvec,
      pciIrqVecServer pcie' dev' v = pciIrqVecServer pcie dev v := by
    intro huses v hv
    rw [pciIrqVecServer_of_usesSlots huses, pciIrqVecServer_of_usesSlots (hactive ▸ huses), hactive]
    exact hservers huses v hv
  refine ⟨h.synced.congr hmsi hread, fun hmode v hv => ?_, fun hmode hmaskable v h32 hv => ?_⟩
  · rw [hactive] at hmode hv
    rw [entryMasked, htable, hserver (Or.inr hmode) v hv]
    exact h.msix hmode v hv
  · rw [hactive] at hmode
    rw [hmsi] at hmaskable hv
    rw [hread hmaskable, hactive, h.msi hmode hmaskable v h32 hv]
    refine and_congr_right fun hlt => ?_
    rw [hserver (Or.inl hmode) v hlt]

/-- A device that is not on slots has no gates to keep, but the shadow of its mask register. -/
theorem DeviceGate.of_not_usesSlots (hsync : MaskSynced dev)
    (hnot : ¬ UsesSlots dev.active.mode) : DeviceGate pcie dev :=
  ⟨hsync, fun h => absurd (Or.inr h) hnot, fun h => absurd (Or.inl h) hnot⟩

/-! ### Allocation -/

/-- A device that MSI-X was programmed for starts with every entry masked. -/
theorem deviceGate_pciMsixProgram (hw : GateHardware dev) (hsync : MaskSynced dev)
    {slots : ℕ → ℕ} {n : ℕ} (hfree : ∀ v < n, pcie.msi.servers (slots v) = none) :
    DeviceGate pcie ((pciMsixProgram pcie (dev.setSlots slots) n).setActive .msix n) := by
  have hslots : (pciMsixProgram pcie (dev.setSlots slots) n).active.slots = slots := by
    rw [(pciMsixProgram_sameRecord _ pcie n).active]
    rfl
  refine ⟨hsync.congr (pciMsixProgram_msi _ pcie n) fun hmaskable => ?_, fun _ v hv => ?_,
    fun hmode => absurd hmode (by simp)⟩
  · exact readMask_of_msixRanges hw hmaskable (pciMsixProgram_msi _ pcie n)
      (pciMsixProgram_sameOutside (dev.setSlots slots) pcie n)
  · have htable := (tableMem_pciMsixProgram pcie (dev.setSlots slots) n v hv).2.2.2
    have hmasked : entryMasked ((pciMsixProgram pcie (dev.setSlots slots) n).setActive
        .msix n) v = true := by
      rw [entryMasked, setActive_tableMem, pciMsixEntryVectorCtrl, htable]
      rfl
    rw [hmasked, pciIrqVecServer_of_usesSlots (Or.inr rfl), setActive_active]
    exact iff_of_false (by decide) fun hne => hne (by rw [hslots]; exact hfree v hv)

/-- Writing the message, dropping INTx and enabling MSI leave the mask register alone. -/
theorem readMask_enabled (hdec : MsiDecoded dev) (hmaskable : dev.msi.maskable = true) (n : ℕ) :
    readMask (pciMsiSetEnable (pciIntx (pciMsiWriteMsg pcie dev n) false) true) = readMask dev := by
  have hmsi : (pciIntx (pciMsiWriteMsg pcie dev n) false).msi = dev.msi := by simp
  refine readMask_of_msiMsgRanges hdec hmaskable hmsi ?_
  refine ((pciMsiWriteMsg_sameOutside pcie dev n).trans
    (pciIntx_sameOutside _ false ?_)).trans (pciMsiSetEnable_sameOutside _ true ?_)
  · simp [msiMsgRanges]
  · rw [hmsi]
    simp [msiMsgRanges]

/-- Programming the message leaves every vector of the device masked, in the register and in its
shadow. -/
theorem readMask_pciMsiProgram (hdec : MsiDecoded dev) (hw : MaskWritable dev)
    (hsync : MaskSynced dev) (hmaskable : dev.msi.maskable = true) (n : ℕ) :
    (pciMsiProgram pcie dev n).msi.mask = (readMask dev ||| msiMultiMask dev) ∧
      readMask (pciMsiProgram pcie dev n) = (readMask dev ||| msiMultiMask dev) := by
  -- MSI goes off first, which the mask register does not notice
  have hoff : readMask (pciMsiSetEnable dev false) = readMask dev :=
    readMask_of_msiMsgRanges hdec hmaskable rfl
      (pciMsiSetEnable_sameOutside dev false (by simp [msiMsgRanges]))
  have hsame := SameFunction.of_sameRecord (pciMsiSetEnable_sameRecord dev false)
    (pciMsiSetEnable_rw dev false)
  have hmask := @pciMsiUpdateMask_readMask _ 0 (msiMultiMask dev)
    (hsame.msiDecoded hdec) hmaskable (hsync.congr rfl fun _ => hoff) (hsame.maskWritable hw)
    (BitVec.zero_and) (BitVec.and_not_self _)
  have hrec := pciMsiUpdateMask_sameRecord (pciMsiSetEnable dev false) 0 (msiMultiMask dev)
  have hkeep : readMask dev &&& ~~~(0 : BitVec 32) = readMask dev := by
    rw [show ~~~(0 : BitVec 32) = BitVec.allOnes 32 from rfl, BitVec.and_allOnes]
  rw [hoff, hkeep] at hmask
  -- what follows does not touch the register
  have htail : pciMsiProgram pcie dev n = pciMsiSetEnable (pciIntx (pciMsiWriteMsg pcie
      (pciMsiUpdateMask (pciMsiSetEnable dev false) 0 (msiMultiMask dev)) n) false) true := rfl
  rw [htail]
  generalize pciMsiUpdateMask (pciMsiSetEnable dev false) 0 (msiMultiMask dev) = d at hmask hrec ⊢
  have hmaskable' : d.msi.maskable = true := by
    rw [hrec.msi]
    exact hmaskable
  rw [readMask_enabled (hrec.msiDecoded.2 (hsame.msiDecoded hdec)) hmaskable' n]
  rw [pciMsiSetEnable_msi, pciIntx_msi, pciMsiWriteMsg_msi]
  exact hmask

/-- A device that MSI was programmed for starts with every vector masked. -/
theorem deviceGate_pciMsiProgram (hw : GateHardware dev) (hsync : MaskSynced dev)
    {slots : ℕ → ℕ} {n : ℕ} (hfree : ∀ v < n, pcie.msi.servers (slots v) = none) :
    DeviceGate pcie ((pciMsiProgram pcie (dev.setSlots slots) n).setActive .msi n) := by
  have hrec := pciMsiProgram_sameRecord (dev.setSlots slots) pcie n
  have hprog := fun hm => @readMask_pciMsiProgram _ pcie (dev.setSlots slots)
    hw.msi hw.writable hsync hm n
  refine ⟨fun hmaskable => ?_, fun hmode => absurd hmode (by simp),
    fun _ hmaskable v h32 hv => ?_⟩
  · rw [setActive_msi, hrec.msi] at hmaskable
    exact (hprog hmaskable).1.trans (hprog hmaskable).2.symm
  · rw [setActive_msi, hrec.msi] at hmaskable hv
    have hread : readMask ((pciMsiProgram pcie (dev.setSlots slots) n).setActive .msi n)
        = (readMask (dev.setSlots slots) ||| msiMultiMask (dev.setSlots slots)) :=
      (hprog hmaskable).2
    rw [hread, BitVec.getLsbD_or, getLsbD_msiMultiMask _ h32, decide_eq_true hv, Bool.or_true]
    refine iff_of_false (by decide) ?_
    rintro ⟨hlt, hne⟩
    rw [pciIrqVecServer_of_usesSlots (Or.inl rfl), setActive_active, hrec.active] at hne
    exact hne (hfree v hlt)

/-! ### Opening and closing -/

/-- **One gate moves with its server.** The gate of `vec` is opened or closed as its server comes or
goes, and the other vectors keep theirs. -/
theorem DeviceGate.move (h : DeviceGate pcie dev) {vec : ℕ} (open' : Bool)
    (hactive : dev'.active = dev.active) (hvec : vec < dev.active.nvec)
    (hmsi : dev'.msi = { dev.msi with mask := dev'.msi.mask }) (hsync : MaskSynced dev')
    (htable : dev.active.mode = .msix → ∀ v,
      entryMasked dev' v = if v = vec then !open' else entryMasked dev v)
    (hread : dev.active.mode = .msi → dev.msi.maskable = true → ∀ v < 32,
      (readMask dev').getLsbD v = if v = vec then !open' else (readMask dev).getLsbD v)
    (hservers : UsesSlots dev.active.mode → ∀ v < dev.active.nvec,
      (pciIrqVecServer pcie' dev' v ≠ none ↔
        if v = vec then open' = true else pciIrqVecServer pcie dev v ≠ none)) :
    DeviceGate pcie' dev' := by
  refine ⟨hsync, fun hmode v hv => ?_, fun hmode hmaskable v h32 hv => ?_⟩
  · rw [hactive] at hmode hv
    rw [htable hmode v, hservers (Or.inr hmode) v hv]
    by_cases hvv : v = vec
    · rw [if_pos hvv, if_pos hvv, Bool.not_eq_false']
    · rw [if_neg hvv, if_neg hvv]
      exact h.msix hmode v hv
  · rw [hactive] at hmode
    rw [hmsi] at hmaskable hv
    rw [hread hmode hmaskable v h32, hactive]
    by_cases hvv : v = vec
    · subst hvv
      rw [if_pos rfl, Bool.not_eq_false', hservers (Or.inl hmode) v hvec, if_pos rfl]
      exact (and_iff_right hvec).symm
    · rw [if_neg hvv, h.msi hmode hmaskable v h32 hv]
      refine and_congr_right fun hlt => ?_
      rw [hservers (Or.inl hmode) v hlt, if_neg hvv]

/-- A write of one entry's control word moves that entry's mask bit alone. -/
theorem entryMasked_write (dev : PciDevice) (vec v : ℕ) (value : BitVec 32) :
    entryMasked (msixTableWrite dev (msixEntry vec + pciMsixEntryVectorCtrl) value) v
      = if v = vec then value.getLsbD 0 else entryMasked dev v := by
  unfold entryMasked msixTableWrite
  dsimp only
  by_cases hv : v = vec
  · subst hv
    rw [if_pos rfl, Function.update_self]
  · rw [if_neg hv, Function.update_of_ne (msixEntry_add_ne hv (by decide) (by decide))]

/-- A vector in use has its bit among those of the device's mask register. -/
theorem bit_and_msiMultiMask (hfit : VecsFit dev) (hmode : dev.active.mode = .msi) {vec : ℕ}
    (hvec : vec < dev.active.nvec) : bit 32 vec &&& ~~~msiMultiMask dev = 0#32 := by
  have hle := hfit hmode
  refine and_eq_zero_iff.2 fun j hj => ?_
  have hj32 : j < 32 := BitVec.lt_of_getLsbD hj
  rw [BitVec.getLsbD_not, getLsbD_msiMultiMask dev hj32, decide_eq_true hj32, Bool.true_and,
    Bool.not_eq_true', decide_eq_false_iff_not] at hj
  rw [getLsbD_bit, decide_eq_false (p := vec = j) (by omega), Bool.and_false]

/-- Clearing or setting the bit of one vector moves that bit alone. -/
theorem getLsbD_moveBit (x : BitVec 32) (vec : ℕ) (open' : Bool) {v : ℕ} (hv : v < 32) :
    ((x &&& ~~~(if open' then bit 32 vec else 0)) ||| (if open' then 0 else bit 32 vec)).getLsbD v
      = if v = vec then !open' else x.getLsbD v := by
  have hbit : (bit 32 vec).getLsbD v = decide (vec = v) := by
    rw [getLsbD_bit, decide_eq_true hv, Bool.true_and]
  rw [BitVec.getLsbD_or, BitVec.getLsbD_and, BitVec.getLsbD_not, decide_eq_true hv, Bool.true_and]
  by_cases hvv : v = vec
  · rw [decide_eq_true hvv.symm] at hbit
    rw [if_pos hvv]
    cases open' <;> simp only [Bool.false_eq_true, if_true, if_false, hbit] <;> simp
  · rw [decide_eq_false (Ne.symm hvv)] at hbit
    rw [if_neg hvv]
    cases open' <;> simp only [Bool.false_eq_true, if_true, if_false, hbit] <;> simp

/-- The gate of a vector, opened or closed. -/
def vecGate (dev : PciDevice) (vec : ℕ) (open' : Bool) : PciDevice :=
  if open' then pciIrqVecOpen dev vec else pciIrqVecClose dev vec

/-- The gate of an MSI-X vector is the mask bit of its table entry. -/
theorem vecGate_msix (hmode : dev.active.mode = .msix) (vec : ℕ) (open' : Bool) :
    vecGate dev vec open' = msixTableWrite dev (msixEntry vec + pciMsixEntryVectorCtrl)
      (if open' then 0 else pciMsixEntryCtrlMaskbit) := by
  unfold vecGate pciIrqVecOpen pciIrqVecClose
  rw [if_pos hmode, if_pos hmode]
  cases open' <;> rfl

/-- The gate of an MSI vector is its bit of the mask register. -/
theorem vecGate_msi (hmode : dev.active.mode = .msi) (vec : ℕ) (open' : Bool) :
    vecGate dev vec open' = pciMsiUpdateMask dev (if open' then bit 32 vec else 0)
      (if open' then 0 else bit 32 vec) := by
  have hne : ¬ dev.active.mode = .msix := by
    rw [hmode]
    decide
  unfold vecGate pciIrqVecOpen pciIrqVecClose
  rw [if_neg hne, if_neg hne]
  cases open' <;> rfl

/-- Opening or closing a gate keeps the record. -/
theorem vecGate_sameRecord (dev : PciDevice) (vec : ℕ) (open' : Bool) :
    SameRecord dev (vecGate dev vec open') := by
  cases open'
  · exact pciIrqVecClose_sameRecord dev vec
  · exact pciIrqVecOpen_sameRecord dev vec

/-- On a device with mask bits, the shadow and the register both have the bit of the vector moved. -/
theorem readMask_vecGate (hsync : MaskSynced dev) (hw : GateHardware dev) (hfit : VecsFit dev)
    (hmode : dev.active.mode = .msi) (hmaskable : dev.msi.maskable = true) {vec : ℕ}
    (hvec : vec < dev.active.nvec) (open' : Bool) :
    let mask := readMask dev &&& ~~~(if open' then bit 32 vec else 0) |||
      (if open' then 0 else bit 32 vec)
    (vecGate dev vec open').msi.mask = mask ∧ readMask (vecGate dev vec open') = mask := by
  have hbit := bit_and_msiMultiMask hfit hmode hvec
  rw [vecGate_msi hmode vec open']
  exact pciMsiUpdateMask_readMask hw.msi hmaskable hsync hw.writable
    (by cases open' <;> simp [hbit]) (by cases open' <;> simp [hbit])

/-- A gate that moves leaves the shadow in step with the register. -/
theorem MaskSynced.vecGate (hsync : MaskSynced dev) (hw : GateHardware dev) (hfit : VecsFit dev)
    (huses : UsesSlots dev.active.mode) {vec : ℕ} (hvec : vec < dev.active.nvec) (open' : Bool) :
    MaskSynced (vecGate dev vec open') := by
  obtain hmode | hmode := huses
  · intro hmaskable
    rw [(vecGate_sameRecord dev vec open').msi] at hmaskable
    obtain ⟨hshadow, hread⟩ := readMask_vecGate hsync hw hfit hmode hmaskable hvec open'
    exact hshadow.trans hread.symm
  · rw [vecGate_msix hmode vec open']
    exact hsync.congr rfl fun _ => rfl

/-- **Opening and closing.** The gate of a vector moves with its server. -/
theorem DeviceGate.vecGate (h : DeviceGate pcie dev) (hw : GateHardware dev) (hfit : VecsFit dev)
    (huses : UsesSlots dev.active.mode) {vec : ℕ} (hvec : vec < dev.active.nvec) (open' : Bool)
    (hservers : ∀ v < dev.active.nvec, (pcie'.msi.servers (dev.active.slots v) ≠ none ↔
      if v = vec then open' = true else pcie.msi.servers (dev.active.slots v) ≠ none)) :
    DeviceGate pcie' (vecGate dev vec open') := by
  have hrec := vecGate_sameRecord dev vec open'
  have hsync := h.synced.vecGate hw hfit huses hvec open'
  have hserver : ∀ v < dev.active.nvec,
      (pciIrqVecServer pcie' (BcmPcie.vecGate dev vec open') v ≠ none ↔
        if v = vec then open' = true else pciIrqVecServer pcie dev v ≠ none) := by
    intro v hv
    rw [pciIrqVecServer_of_usesSlots (by rwa [hrec.active]), hrec.active,
      pciIrqVecServer_of_usesSlots huses]
    exact hservers v hv
  refine h.move open' hrec.active hvec hrec.msi hsync (fun hmode v => ?_)
    (fun hmode hmaskable v h32 => ?_) fun _ => hserver
  · rw [vecGate_msix hmode, entryMasked_write]
    cases open' <;> rfl
  · rw [(readMask_vecGate h.synced hw hfit hmode hmaskable hvec open').2]
    exact getLsbD_moveBit (readMask dev) vec open' h32

/-- `pci_intx` moves no gate. -/
theorem DeviceGate.pciIntx (h : DeviceGate pcie dev) (hw : GateHardware dev) (enable : Bool) :
    DeviceGate pcie (pciIntx dev enable) :=
  h.congr (pciIntx_active dev enable) (pciIntx_msi dev enable)
    (fun hmaskable => readMask_of_command hw.msi hmaskable (pciIntx_msi dev enable)
      (pciIntx_sameOutside dev enable (List.mem_singleton.2 rfl)))
    (pciIntx_tableMem dev enable) fun _ _ _ => rfl

/-- Switching a type off leaves the shadow in step with the register: the MSI shutdown unmasks every
vector in both. -/
theorem MaskSynced.switchOff (hsync : MaskSynced dev) (hw : GateHardware dev) :
    MaskSynced (switchOff dev) := by
  unfold BcmPcie.switchOff
  split
  · exact hsync.congr rfl fun hmaskable =>
      readMask_of_msixRanges hw hmaskable rfl (pciMsixShutdown_sameOutside dev)
  · split
    · intro hmaskable
      have hmaskable' : dev.msi.maskable = true := by
        rw [(pciMsiShutdown_sameRecord dev).msi] at hmaskable
        exact hmaskable
      have hoff : readMask (pciMsiSetEnable dev false) = readMask dev :=
        readMask_of_msiMsgRanges hw.msi hmaskable' rfl
          (pciMsiSetEnable_sameOutside dev false (by simp [msiMsgRanges]))
      have hw' := (SameFunction.of_sameRecord (pciMsiSetEnable_sameRecord dev false)
        (pciMsiSetEnable_rw dev false)).gateHardware hw
      have hmask := @pciMsiUpdateMask_readMask _ (msiMultiMask dev) 0 hw'.msi
        hmaskable' (hsync.congr rfl fun _ => hoff) hw'.writable (BitVec.and_not_self _)
        BitVec.zero_and
      exact hmask.1.trans hmask.2.symm
    · exact hsync

end Device

/-! ## The calls, one by one -/

/-- What the gates rest on besides themselves. -/
structure GatesReady (s : IrqState ι σ) : Prop where
  ledger : s.SlotsOwned
  hardware : ∀ i, GateHardware (s.devs i)
  fits : ∀ i, VecsFit (s.devs i)

section Calls

variable {s : IrqState ι σ} {i : ι}

/-- An allocation that fails moves nothing; one that succeeds starts with every gate closed, on slots
that have no server. -/
theorem AllocOutcome.deviceGate (hr : GatesReady s) (h : DeviceGate s.pcie (s.devs i))
    {min max : ℕ} {flags : BitVec 32} {r : PciController σ × PciDevice × Except Errno ℕ}
    (hout : AllocOutcome s.pcie (s.devs i) min max flags r) : DeviceGate r.1 r.2.1 := by
  have hw := hr.hardware i
  have hfree : ∀ {used : BitVec 32} {slots : ℕ → ℕ} {n : ℕ},
      Reserves s.pcie.msi.used used slots n → ∀ v < n, s.pcie.msi.servers (slots v) = none :=
    fun hres v hv => hr.ledger.servers_of_free (hres.lt v hv) (hres.free v hv)
  cases hout with
  | refused e slots hslots =>
    by_cases hidle : (s.devs i).active.mode = .idle
    · refine DeviceGate.of_not_usesSlots (h.synced.congr rfl fun _ => rfl) ?_
      rw [setSlots_active, hidle]
      decide
    · rw [hslots hidle]
      exact h
  | msix n slots used _ _ _ _ _ _ _ _ hres =>
    exact deviceGate_pciMsixProgram hw h.synced (hfree hres)
  | msi k base slots used _ _ _ _ _ _ _ _ hres =>
    exact deviceGate_pciMsiProgram hw h.synced (hfree hres)
  | intx =>
    refine DeviceGate.of_not_usesSlots (h.synced.congr rfl fun _ => rfl) ?_
    show ¬ UsesSlots .intx
    decide

/-- Two vectors of a device are on different slots. -/
theorem slots_ne (hled : s.SlotsOwned) (huses : UsesSlots (s.devs i).active.mode) {v vec : ℕ}
    (hv : v < (s.devs i).active.nvec) (hvec : vec < (s.devs i).active.nvec) (hne : v ≠ vec) :
    (s.devs i).active.slots v ≠ (s.devs i).active.slots vec := fun heq =>
  hne (hled.unique i v i vec _ ⟨huses, hv, heq⟩ ⟨huses, hvec, rfl⟩).2

variable [Gic400 σ]

/-- A server that is added opens its gate. -/
theorem AddOutcome.deviceGate (hr : GatesReady s) (h : DeviceGate s.pcie (s.devs i)) {vec : ℕ}
    {isr : Option Interrupt} (hisr : isr ≠ none)
    {r : PciController σ × PciDevice × Except Errno Unit}
    (hout : AddOutcome s.pcie (s.devs i) vec isr r) : DeviceGate r.1 r.2.1 := by
  have hw := hr.hardware i
  cases hout with
  | badVec => exact h
  | busy => exact h
  | gicRefused => exact h.congr rfl rfl (fun _ => rfl) rfl fun _ _ _ => rfl
  | intx hvec hmode =>
    have hw' : GateHardware ((s.devs i).setIntxServer isr) := ⟨hw.msi, hw.msix, hw.apart, hw.writable⟩
    have hnot : ¬ UsesSlots ((s.devs i).setIntxServer isr).active.mode := by
      rw [setIntxServer_active, hmode]
      decide
    have hsynced : MaskSynced ((s.devs i).setIntxServer isr) := h.synced.congr rfl fun _ => rfl
    have hgate : DeviceGate (brcmIntxAddServer s.pcie (s.devs i) isr).1 _ :=
      DeviceGate.of_not_usesSlots hsynced hnot
    exact hgate.pciIntx hw' true
  | slot hvec hmode hfree =>
    have huses := usesSlots_of_vec (hr.ledger.shape i) hvec hmode
    refine h.vecGate hw (hr.fits i) huses hvec true fun v hv => ?_
    rw [brcmMsiSlotBind_servers, Function.update_apply]
    by_cases hvv : v = vec
    · rw [if_pos hvv, if_pos (by rw [hvv])]
      exact iff_of_true hisr rfl
    · rw [if_neg hvv, if_neg (slots_ne hr.ledger huses hv hvec hvv)]

/-- A server that is removed closes its gate. -/
theorem RemOutcome.deviceGate (hr : GatesReady s) (h : DeviceGate s.pcie (s.devs i)) {vec : ℕ}
    {isr : Option Interrupt} {r : PciController σ × PciDevice}
    (hout : RemOutcome s.pcie (s.devs i) vec isr r) : DeviceGate r.1 r.2 := by
  have hw := hr.hardware i
  cases hout with
  | ignored => exact h
  | intx hvec hmode =>
    have hnot : ¬ UsesSlots ((pciIntx (s.devs i) false).setIntxServer none).active.mode := by
      rw [setIntxServer_active, pciIntx_active, hmode]
      decide
    exact DeviceGate.of_not_usesSlots (((h.pciIntx hw false).synced).congr rfl fun _ => rfl) hnot
  | slot hvec hmode =>
    have huses := usesSlots_of_vec (hr.ledger.shape i) hvec hmode
    refine h.vecGate hw (hr.fits i) huses hvec false fun v hv => ?_
    rw [brcmMsiSlotUnbind_servers, Function.update_apply]
    by_cases hvv : v = vec
    · rw [if_pos hvv, if_pos (by rw [hvv])]
      exact iff_of_false (fun hne => hne rfl) (by decide)
    · rw [if_neg hvv, if_neg (slots_ne hr.ledger huses hv hvec hvv)]

omit [Gic400 σ] in
/-- The runtime mask moves no gate: it acts at the root complex, or on INTx. -/
theorem MaskOutcome.deviceGate (hr : GatesReady s) (h : DeviceGate s.pcie (s.devs i)) {vec : ℕ}
    {open' : Bool} {r : PciController σ × PciDevice × Bool}
    (hout : MaskOutcome s.pcie (s.devs i) vec open' r) : DeviceGate r.1 r.2.1 := by
  cases hout with
  | badVec => exact h
  | intx => exact h.pciIntx (hr.hardware i) open'
  | slot => cases open' <;> exact h.congr rfl rfl (fun _ => rfl) rfl fun _ _ _ => rfl

/-! ### Teardown -/

/-- Removing servers and switching the type off leave the shadow in step with the register. -/
theorem maskSynced_pciIrqVectorsFree (pcie : PciController σ) {dev : PciDevice}
    (hshape : AllocShape dev.active) (hsync : MaskSynced dev) (hw : GateHardware dev)
    (hfit : VecsFit dev) : MaskSynced (pciIrqVectorsFree pcie dev).2 := by
  obtain ⟨used, heq⟩ := pciIrqVectorsFree_eq pcie dev
  have hdetach := detachServers_invariant
    (P := fun _ d => MaskSynced d ∧ SameFunction dev d ∧
      d.active = { dev.active with intxServer := d.active.intxServer })
    (fun p d v isr hd => ?_) pcie dev dev.active.nvec ⟨hsync, SameFunction.refl dev, rfl⟩
  · rw [heq]
    exact (hdetach.1.switchOff (hdetach.2.1.gateHardware hw)).congr rfl fun _ => rfl
  · obtain ⟨hd, hsame, hactive⟩ := hd
    have hout := pciIrqRemServer_outcome p d v isr
    have hnext := pciIrqRemServer_active p d v isr
    generalize pciIrqRemServer p d v isr = r at hout hnext ⊢
    refine ⟨?_, hsame.trans hout.sameFunction, by rw [hnext, hactive]⟩
    have hdw := hsame.gateHardware hw
    cases hout with
    | ignored => exact hd
    | intx =>
      refine hd.congr (pciIntx_msi d false) fun hmaskable => ?_
      exact readMask_of_command hdw.msi hmaskable (pciIntx_msi d false)
        (pciIntx_sameOutside d false (List.mem_singleton.2 rfl))
    | slot hvec hmode =>
      have huses : UsesSlots d.active.mode := by
        rw [hactive] at hvec hmode ⊢
        exact usesSlots_of_vec (a := dev.active) hshape hvec hmode
      exact hd.vecGate hdw (hfit.congr hsame (by rw [hactive]) (by rw [hactive])) huses hvec false

/-! ### The other devices -/

/-- Removing a server touches no slot but one of the device's. -/
theorem RemOutcome.servers {pcie : PciController σ} {dev : PciDevice} {vec j : ℕ}
    {isr : Option Interrupt} {r : PciController σ × PciDevice}
    (hj : ∀ v < dev.active.nvec, dev.active.mode ≠ .intx → dev.active.slots v ≠ j)
    (hout : RemOutcome pcie dev vec isr r) : r.1.msi.servers j = pcie.msi.servers j := by
  cases hout with
  | ignored => rfl
  | intx => rfl
  | slot hvec hmode =>
    rw [brcmMsiSlotUnbind_servers, Function.update_of_ne (hj vec hvec hmode).symm]

/-- A call touches no slot but those of its device. -/
theorem IrqCall.apply_servers (pcie : PciController σ) {dev : PciDevice}
    (hshape : AllocShape dev.active) (c : IrqCall ι) {j : ℕ} (hj : ∀ v, ¬ dev.active.Owns v j) :
    (c.apply pcie dev).1.msi.servers j = pcie.msi.servers j := by
  have hne : ∀ v < dev.active.nvec, dev.active.mode ≠ .intx → dev.active.slots v ≠ j :=
    fun v hv hmode heq => hj v ⟨usesSlots_of_vec hshape hv hmode, hv, heq⟩
  cases c with
  | vectorsAlloc i min max flags =>
    have hout := pciIrqVectorsAlloc_outcome pcie dev min max flags
    simp only [IrqCall.apply]
    generalize pciIrqVectorsAlloc pcie dev min max flags = r at hout ⊢
    cases hout <;> rfl
  | vectorsFree i =>
    -- each round of the teardown touches the slot of one of the device's own vectors
    have hdetach := detachServers_invariant
      (P := fun p d => d.active = { dev.active with intxServer := d.active.intxServer } ∧
        p.msi.servers j = pcie.msi.servers j)
      (fun p d v isr hd => ⟨by rw [pciIrqRemServer_active, hd.1],
        ((pciIrqRemServer_outcome p d v isr).servers (by rw [hd.1]; exact hne)).trans hd.2⟩)
      pcie dev dev.active.nvec ⟨rfl, rfl⟩
    obtain ⟨used, heq⟩ := pciIrqVectorsFree_eq pcie dev
    rw [IrqCall.apply, heq]
    exact hdetach.2
  | addServer i vec isr =>
    have hout := pciIrqAddServer_outcome pcie dev vec isr
    simp only [IrqCall.apply]
    generalize pciIrqAddServer pcie dev vec isr = r at hout ⊢
    cases hout with
    | badVec => rfl
    | busy => rfl
    | gicRefused => rfl
    | intx => rfl
    | slot hvec hmode =>
      rw [brcmMsiSlotBind_servers, Function.update_of_ne (hne vec hvec hmode).symm]
  | remServer i vec isr => exact (pciIrqRemServer_outcome pcie dev vec isr).servers hne
  | vecMask i vec => rw [IrqCall.apply, (pciIrqVecMask_outcome pcie dev vec).same.1]
  | vecUnmask i vec => rw [IrqCall.apply, (pciIrqVecUnmask_outcome pcie dev vec).same.1]

end Calls

/-! ## Runs -/

/-- The gates of every device agree with its servers. -/
def DeviceGates (s : IrqState ι σ) : Prop := ∀ i, DeviceGate s.pcie (s.devs i)

section Runs

variable [DecidableEq ι] [Gic400 σ] {s : IrqState ι σ}

omit [DecidableEq ι] in
/-- The vectors in use fit the mask register after every call. -/
theorem vecsFit_apply (pcie : PciController σ) {dev : PciDevice} (hfit : VecsFit dev)
    (hshape : AllocShape dev.active) (c : IrqCall ι) : VecsFit (c.apply pcie dev).2 := by
  -- only an MSI allocation makes a claim on the mask register, and it grants no more than the
  -- capability offers
  cases c with
  | vectorsAlloc i min max flags =>
    have hout := pciIrqVectorsAlloc_outcome pcie dev min max flags
    simp only [IrqCall.apply]
    generalize pciIrqVectorsAlloc pcie dev min max flags = r at hout ⊢
    cases hout with
    | refused => exact hfit
    | msix => exact fun hmode => absurd hmode (by simp)
    | msi k base slots used _ _ _ _ _ hlog _ hfits =>
      have hmsi := (pciMsiProgram_sameRecord (dev.setSlots (blockSlots slots base (2 ^ k)))
        (pcie.setUsed used) (2 ^ k)).msi
      intro _
      rw [setActive_active, setActive_msi, hmsi]
      exact ⟨by dsimp only; omega, Nat.pow_le_pow_right (by decide) hlog⟩
    | intx => exact fun hmode => absurd hmode (by simp)
  | vectorsFree i =>
    have hidle := (pciIrqVectorsFree_ledger pcie dev hshape).1
    intro hmode
    rw [IrqCall.apply, hidle] at hmode
    exact absurd hmode (by decide)
  | addServer i vec isr =>
    have hout := pciIrqAddServer_outcome pcie dev vec isr
    have hsame := hout.sameFunction
    simp only [IrqCall.apply]
    generalize pciIrqAddServer pcie dev vec isr = r at hout hsame ⊢
    have hactive : r.2.1.active.mode = dev.active.mode ∧ r.2.1.active.nvec = dev.active.nvec := by
      cases hout with
      | badVec => exact ⟨rfl, rfl⟩
      | busy => exact ⟨rfl, rfl⟩
      | gicRefused => exact ⟨rfl, rfl⟩
      | intx => simp
      | slot => rw [(pciIrqVecOpen_sameRecord dev vec).active]; exact ⟨rfl, rfl⟩
    exact hfit.congr hsame hactive.1 hactive.2
  | remServer i vec isr =>
    refine hfit.congr (pciIrqRemServer_outcome pcie dev vec isr).sameFunction ?_ ?_ <;>
      rw [IrqCall.apply, pciIrqRemServer_active]
  | vecMask i vec =>
    have hout := pciIrqVecMask_outcome pcie dev vec
    exact hfit.congr hout.sameFunction (by rw [IrqCall.apply, hout.same.2.1])
      (by rw [IrqCall.apply, hout.same.2.1])
  | vecUnmask i vec =>
    have hout := pciIrqVecUnmask_outcome pcie dev vec
    exact hfit.congr hout.sameFunction (by rw [IrqCall.apply, hout.same.2.1])
      (by rw [IrqCall.apply, hout.same.2.1])

/-- Every call leaves the gates ready. -/
theorem GatesReady.irqStep (hr : GatesReady s) (c : IrqCall ι) : GatesReady (irqStep s c) :=
  ⟨slotsOwned_irqStep hr.ledger c,
    fun i => (irqStep_sameFunction s c i).gateHardware (hr.hardware i),
    forall_devs_put s _ _ _ hr.fits (vecsFit_apply s.pcie (hr.fits _) (hr.ledger.shape _) c)⟩

omit [DecidableEq ι] in
/-- What a call makes of the gates of its device. -/
theorem deviceGate_apply (hr : GatesReady s) (c : IrqCall ι) (hc : c.HasServer)
    (h : DeviceGate s.pcie (s.devs c.target)) :
    DeviceGate (c.apply s.pcie (s.devs c.target)).1 (c.apply s.pcie (s.devs c.target)).2 := by
  cases c with
  | vectorsAlloc i min max flags =>
    exact (pciIrqVectorsAlloc_outcome s.pcie (s.devs i) min max flags).deviceGate hr h
  | vectorsFree i =>
    have hidle := (pciIrqVectorsFree_ledger s.pcie (s.devs i) (hr.ledger.shape i)).1
    refine DeviceGate.of_not_usesSlots (maskSynced_pciIrqVectorsFree s.pcie (hr.ledger.shape i)
      h.synced (hr.hardware i) (hr.fits i)) ?_
    rw [IrqCall.apply, IrqCall.target, hidle]
    decide
  | addServer i vec isr =>
    exact (pciIrqAddServer_outcome s.pcie (s.devs i) vec isr).deviceGate hr h hc
  | remServer i vec isr => exact (pciIrqRemServer_outcome s.pcie (s.devs i) vec isr).deviceGate hr h
  | vecMask i vec => exact (pciIrqVecMask_outcome s.pcie (s.devs i) vec).deviceGate hr h
  | vecUnmask i vec => exact (pciIrqVecUnmask_outcome s.pcie (s.devs i) vec).deviceGate hr h

/-- One core call keeps the gates of each device. -/
theorem deviceGate_irqStep (hr : GatesReady s) {i : ι} (h : DeviceGate s.pcie (s.devs i))
    (c : IrqCall ι) (hc : c.HasServer) :
    DeviceGate (irqStep s c).pcie ((irqStep s c).devs i) := by
  by_cases hi : i = c.target
  · subst hi
    rw [irqStep, put_devs_self]
    exact deviceGate_apply hr c hc h
  · -- another device keeps its registers, and its slots are not the target's
    rw [irqStep, put_devs_of_ne _ _ _ _ hi]
    refine h.congr rfl rfl (fun _ => rfl) rfl fun huses v hv => ?_
    refine IrqCall.apply_servers s.pcie (hr.ledger.shape c.target) c fun v' hown => hi ?_
    exact (hr.ledger.unique i v c.target v' _ ⟨huses, hv, rfl⟩ hown).1

/-- **One core call keeps the gates.** -/
theorem deviceGates_irqStep (hr : GatesReady s) (h : DeviceGates s) (c : IrqCall ι)
    (hc : c.HasServer) : DeviceGates (irqStep s c) := fun i =>
  deviceGate_irqStep hr (h i) c hc

/-- **One library call keeps the gates.** -/
theorem deviceGates_libStep (c : LibCall ι) (h : GatesReady s ∧ DeviceGates s) :
    GatesReady (libStep s c) ∧ DeviceGates (libStep s c) := by
  refine libStep_invariant (P := fun s => GatesReady s ∧ DeviceGates s)
    (fun s c hc hs => ⟨hs.1.irqStep c, deviceGates_irqStep hs.1 hs.2 c hc⟩)
    (fun s i b hs => ?_) (fun s i b hs => ?_) s c h
  · obtain ⟨hr, hgates⟩ := hs
    have hsame : SameFunction (s.devs i)
        { s.devs i with intx := { (s.devs i).intx with preferMsi := b } } := ⟨rfl, rfl, rfl, rfl⟩
    refine ⟨⟨slotsOwned_put_same hr.ledger i rfl, ?_, ?_⟩, ?_⟩
    · exact forall_devs_put s i _ _ hr.hardware (hsame.gateHardware (hr.hardware i))
    · exact forall_devs_put s i _ _ hr.fits (hr.fits i)
    · exact forall_devs_put (P := DeviceGate s.pcie) s i _ _ hgates
        ((hgates i).congr rfl rfl (fun _ => rfl) rfl fun _ _ _ => rfl)
  · obtain ⟨hr, hgates⟩ := hs
    have hsame := SameFunction.of_sameRecord (pciIntx_sameRecord (s.devs i) b) (pciIntx_rw _ b)
    refine ⟨⟨slotsOwned_put_same hr.ledger i (pciIntx_active _ b), ?_, ?_⟩, ?_⟩
    · exact forall_devs_put s i _ _ hr.hardware (hsame.gateHardware (hr.hardware i))
    · exact forall_devs_put s i _ _ hr.fits
        ((hr.fits i).congr hsame (by rw [pciIntx_active]) (by rw [pciIntx_active]))
    · exact forall_devs_put (P := DeviceGate s.pcie) s i _ _ hgates
        ((hgates i).pciIntx (hr.hardware i) b)

/-- **The device gates over a run.** From probe, on functions whose two capabilities share no byte and
whose mask bits are implemented for every vector they are capable of, the gate of every vector is
open exactly while it has a server, and the shadow is the mask register. -/
theorem deviceGates_run (h : Probed s) (hapart : ∀ i, CapsApart (s.devs i))
    (hw : ∀ i, MaskWritable (s.devs i)) (cs : List (LibCall ι)) :
    DeviceGates (run libStep s cs) := by
  have hready : GatesReady s :=
    ⟨h.slotsOwned, fun i => ⟨(h.devs i).decoded.2.1, (h.devs i).decoded.2.2, hapart i, hw i⟩,
      fun i hmode => absurd ((h.devs i).decoded.1 ▸ hmode) (by decide)⟩
  have hgates : DeviceGates s := fun i => by
    refine DeviceGate.of_not_usesSlots ((h.devs i).maskSynced (hapart i)) ?_
    rw [(h.devs i).decoded.1]
    decide
  exact (run_invariant (P := fun s => GatesReady s ∧ DeviceGates s)
    (fun _ c hs => deviceGates_libStep c hs) s cs ⟨hready, hgates⟩).2

/-- The capabilities of the sample device do not overlap. -/
theorem sampleDevice_capsApart : CapsApart sampleDevice := by
  unfold CapsApart
  decide +kernel

/-- The mask of the sample device can be written. -/
theorem sampleDevice_maskWritable : MaskWritable sampleDevice := fun _ =>
  sampleDevice_writable _ (by decide +kernel)

/-- A block of four MSI vectors, of which two get a server and one loses it again. -/
theorem deviceGates_run_sample :
    DeviceGates (run libStep sampleState
      [.vector (.allocIntVectors (some true) 4 4 pciIrqMsi),
        .vector (.addIntVectorServer (some true) 1 (some ⟨0x1000⟩)),
        .vector (.addIntVectorServer (some true) 2 (some ⟨0x2000⟩)),
        .vector (.remIntVectorServer (some true) 1 (some ⟨0x1000⟩))]) :=
  deviceGates_run sampleState_probed (fun _ => sampleDevice_capsApart)
    (fun _ => sampleDevice_maskWritable) _

end Runs

end BcmPcie
