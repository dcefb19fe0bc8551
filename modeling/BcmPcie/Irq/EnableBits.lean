import BcmPcie.Irq.DeviceGate

/-! # The enable bits

MSI and MSI-X are each turned on by a bit of the control word of their capability. An allocation
turns one of them on and teardown turns it off again; no other call moves either bit, and no call
writes the configuration header but for the INTx bit of the command register.

* `HeaderKept` — the BARs, in the record and in the registers, and memory decoding stay.
* `EnablesAgree` — the enable bits say what `active.mode` says.
* `enablesAgree_apply`, `headerKept_apply` — every core call keeps both. -/

namespace BcmPcie

open BitSet Runs

variable {ι σ : Type*}

/-- MSI is enabled at the function. -/
def MsiEnabled (dev : PciDevice) : Prop :=
  dev.msi.capOffset ≠ 0 ∧
    (pciReadConfig16 dev (dev.msi.capOffset + pciMsiFlags)).getLsbD 0 = true

/-- MSI-X is enabled at the function. -/
def MsixEnabled (dev : PciDevice) : Prop :=
  dev.msix.capOffset ≠ 0 ∧
    (pciReadConfig16 dev (dev.msix.capOffset + pciMsixFlags)).getLsbD 15 = true

instance (dev : PciDevice) : Decidable (MsiEnabled dev) := inferInstanceAs (Decidable (_ ∧ _))

instance (dev : PciDevice) : Decidable (MsixEnabled dev) := inferInstanceAs (Decidable (_ ∧ _))

/-- The function implements the enable bits of the capabilities it has. -/
structure EnablesWritable (dev : PciDevice) : Prop where
  msi : dev.msi.capOffset ≠ 0 →
    dev.cfg.Writable 16 (dev.msi.capOffset + pciMsiFlags) pciMsiFlagsEnable
  msix : dev.msix.capOffset ≠ 0 →
    dev.cfg.Writable 16 (dev.msix.capOffset + pciMsixFlags) pciMsixFlagsEnable

/-- Whether the enable bits can be written is a property of the hardware. -/
theorem SameFunction.enablesWritable {dev dev' : PciDevice} (h : SameFunction dev dev')
    (hw : EnablesWritable dev) : EnablesWritable dev' := by
  refine ⟨fun hcap => ?_, fun hcap => ?_⟩
  · unfold RegisterFile.Writable
    rw [h.msi] at hcap ⊢
    rw [h.rw]
    exact hw.msi hcap
  · unfold RegisterFile.Writable
    rw [h.msix] at hcap ⊢
    rw [h.rw]
    exact hw.msix hcap

/-! ## The configuration header -/

/-- The record of the BARs and the header are as they were, except for the command register, and
that decodes memory if it did. -/
structure HeaderKept (dev dev' : PciDevice) : Prop where
  bars : dev'.bars = dev.bars
  outside : dev.cfg.SameOutside [(pciCommand, 2), (64, 4032)] dev'.cfg
  memory : (pciReadConfig16 dev pciCommand).getLsbD 1 = true →
    (pciReadConfig16 dev' pciCommand).getLsbD 1 = true

namespace HeaderKept

variable {dev dev' dev'' : PciDevice}

/-- Doing nothing keeps the header. -/
theorem refl (dev : PciDevice) : HeaderKept dev dev :=
  ⟨rfl, RegisterFile.SameOutside.refl _ _, id⟩

/-- Two steps that keep the header keep it together. -/
theorem trans (h : HeaderKept dev dev') (h' : HeaderKept dev' dev'') : HeaderKept dev dev'' :=
  ⟨h'.bars.trans h.bars, h.outside.trans h'.outside, fun hm => h'.memory (h.memory hm)⟩

/-- Writes behind the header keep it. -/
theorem of_sameOutside {ranges : List (ℕ × ℕ)} (hbars : dev'.bars = dev.bars)
    (hcfg : dev.cfg.SameOutside ranges dev'.cfg)
    (hbehind : ∀ r ∈ ranges, 64 ≤ r.1 ∧ r.1 + r.2 ≤ 4096) : HeaderKept dev dev' := by
  refine ⟨hbars, hcfg.widen fun r hr => ⟨(64, 4032), by simp, hbehind r hr⟩, fun hm => ?_⟩
  have hread : pciReadConfig16 dev' pciCommand = pciReadConfig16 dev pciCommand :=
    pciReadConfig_of_sameOutside hcfg fun r hr => by
      have hge := (hbehind r hr).1
      exact Or.inr (by simp only [pciCommand]; omega)
  rwa [hread]

/-- A change of the record elsewhere keeps it. -/
theorem of_cfg (hbars : dev'.bars = dev.bars) (hcfg : dev'.cfg = dev.cfg) : HeaderKept dev dev' :=
  @of_sameOutside dev dev' [] hbars
    (by rw [hcfg]; exact RegisterFile.SameOutside.refl _ _) (by simp)

end HeaderKept

/-- `pci_intx` moves another bit of the command register. -/
theorem headerKept_pciIntx (dev : PciDevice) (enable : Bool) :
    HeaderKept dev (pciIntx dev enable) := by
  refine ⟨?_, pciIntx_sameOutside dev enable (by simp), fun hm => ?_⟩
  · unfold pciIntx
    dsimp only
    split <;> rfl
  · have hbit : (intxCommand (pciReadConfig16 dev pciCommand) enable).getLsbD 1 = true := by
      cases enable <;> simp [intxCommand, hm]
    unfold pciIntx
    dsimp only
    split
    · exact hm
    · rw [getLsbD_pciReadConfig_write dev _ (by decide) (by decide), hbit, hm, ite_self]

section Header

variable (dev : PciDevice)

/-- A write behind the header. -/
theorem headerKept_write (len : ℕ) {offset : ℕ} (value : BitVec (8 * len)) (hlow : 64 ≤ offset)
    (hhigh : offset + len ≤ 4096) : HeaderKept dev (pciWriteConfig (8 * len) dev offset value) :=
  HeaderKept.of_sameOutside rfl
    (pciWriteConfig_sameOutside dev len offset value (List.mem_singleton_self _))
    fun r hr => by rw [List.mem_singleton.1 hr]; exact ⟨hlow, hhigh⟩

variable {dev}

/-- Setting the MSI enable bit keeps the header. -/
theorem headerKept_pciMsiSetEnable (hcap : IsCapOffset dev.msi.capOffset) (enable : Bool) :
    HeaderKept dev (pciMsiSetEnable dev enable) := by
  obtain ⟨hlow, hhigh, -⟩ := hcap
  exact headerKept_write dev 2 _ (by omega) (by simp only [pciMsiFlags]; omega)

/-- Changing the MSI-X control word keeps the header. -/
theorem headerKept_pciMsixSetCtrl (hcap : IsCapOffset dev.msix.capOffset) (clear set : BitVec 16) :
    HeaderKept dev (pciMsixSetCtrl dev clear set) := by
  obtain ⟨hlow, hhigh, -⟩ := hcap
  exact headerKept_write dev 2 _ (by omega) (by simp only [pciMsixFlags]; omega)

/-- Updating the MSI mask keeps the header. -/
theorem headerKept_pciMsiUpdateMask (hdec : MsiDecoded dev) (clear set : BitVec 32) :
    HeaderKept dev (pciMsiUpdateMask dev clear set) := by
  unfold pciMsiUpdateMask
  split
  · exact HeaderKept.refl dev
  · rename_i hmaskable
    rw [Bool.not_eq_false] at hmaskable
    obtain ⟨-, hnot⟩ | ⟨⟨hlow, hhigh, -⟩, hoff⟩ := hdec
    · rw [hnot] at hmaskable
      cases hmaskable
    · have hrecord (mask : BitVec 32) :
          HeaderKept dev { dev with msi := { dev.msi with mask := mask } } := HeaderKept.of_cfg rfl rfl
      refine (hrecord _).trans (headerKept_write _ 4 _ ?_ ?_) <;>
        rw [hoff] <;> split <;> simp only [pciMsiMask64, pciMsiMask32] <;> omega

/-- Writing the MSI message keeps the header. -/
theorem headerKept_pciMsiWriteMsg (hcap : IsCapOffset dev.msi.capOffset) (pcie : PciController σ)
    (n : ℕ) : HeaderKept dev (pciMsiWriteMsg pcie dev n) := by
  obtain ⟨hlow, hhigh, -⟩ := hcap
  have hwrite (d : PciDevice) (len register : ℕ) (value : BitVec (8 * len))
      (hr : register + len ≤ 64) :
      HeaderKept d (pciWriteConfig (8 * len) d (dev.msi.capOffset + register) value) :=
    headerKept_write d len value (by omega) (by omega)
  unfold pciMsiWriteMsg
  dsimp only
  split
  · exact (((hwrite _ 2 _ _ (by decide)).trans (hwrite _ 4 _ _ (by decide))).trans
      (hwrite _ 4 _ _ (by decide))).trans (hwrite _ 2 _ _ (by decide))
  · exact ((hwrite _ 2 _ _ (by decide)).trans (hwrite _ 4 _ _ (by decide))).trans
      (hwrite _ 2 _ _ (by decide))

end Header

/-! ## One function -/

/-- The enable bits say what the allocation record says. -/
structure EnablesAgree (dev : PciDevice) : Prop where
  msi : MsiEnabled dev ↔ dev.active.mode = .msi
  msix : MsixEnabled dev ↔ dev.active.mode = .msix

/-- Neither enable bit has moved. -/
structure EnablesKept (dev dev' : PciDevice) : Prop where
  msi : MsiEnabled dev' ↔ MsiEnabled dev
  msix : MsixEnabled dev' ↔ MsixEnabled dev

/-- The enable bits go on agreeing with the mode if neither changes. -/
theorem EnablesAgree.keep {dev dev' : PciDevice} (h : EnablesAgree dev)
    (hkept : EnablesKept dev dev') (hmode : dev'.active.mode = dev.active.mode) : EnablesAgree dev' :=
  ⟨by rw [hkept.msi, hmode, h.msi], by rw [hkept.msix, hmode, h.msix]⟩

section Device

variable {pcie : PciController σ} {dev dev' : PciDevice} {ranges : List (ℕ × ℕ)}

/-- Writes away from the MSI control word do not switch MSI on or off. -/
theorem msiEnabled_of_sameOutside (hmsi : dev'.msi.capOffset = dev.msi.capOffset)
    (hcfg : dev.cfg.SameOutside ranges dev'.cfg)
    (hap : dev.msi.capOffset ≠ 0 → ∀ r ∈ ranges,
      RegisterFile.Apart (8 * r.2) r.1 16 (dev.msi.capOffset + pciMsiFlags)) :
    MsiEnabled dev' ↔ MsiEnabled dev := by
  unfold MsiEnabled
  rw [hmsi]
  refine and_congr_right fun hcap => ?_
  have hread : pciReadConfig16 dev' (dev.msi.capOffset + pciMsiFlags)
      = pciReadConfig16 dev (dev.msi.capOffset + pciMsiFlags) :=
    pciReadConfig_of_sameOutside hcfg (hap hcap)
  rw [hread]

/-- Writes away from the MSI-X control word do not switch MSI-X on or off. -/
theorem msixEnabled_of_sameOutside (hmsix : dev'.msix.capOffset = dev.msix.capOffset)
    (hcfg : dev.cfg.SameOutside ranges dev'.cfg)
    (hap : dev.msix.capOffset ≠ 0 → ∀ r ∈ ranges,
      RegisterFile.Apart (8 * r.2) r.1 16 (dev.msix.capOffset + pciMsixFlags)) :
    MsixEnabled dev' ↔ MsixEnabled dev := by
  unfold MsixEnabled
  rw [hmsix]
  refine and_congr_right fun hcap => ?_
  have hread : pciReadConfig16 dev' (dev.msix.capOffset + pciMsixFlags)
      = pciReadConfig16 dev (dev.msix.capOffset + pciMsixFlags) :=
    pciReadConfig_of_sameOutside hcfg (hap hcap)
  rw [hread]

/-- A change of the record elsewhere moves no enable bit. -/
theorem enablesKept_of_cfg (hmsi : dev'.msi.capOffset = dev.msi.capOffset)
    (hmsix : dev'.msix.capOffset = dev.msix.capOffset) (hcfg : dev'.cfg = dev.cfg) :
    EnablesKept dev dev' := by
  have hsame : dev.cfg.SameOutside [] dev'.cfg := by
    rw [hcfg]
    exact RegisterFile.SameOutside.refl _ _
  exact ⟨msiEnabled_of_sameOutside hmsi hsame (by simp),
    msixEnabled_of_sameOutside hmsix hsame (by simp)⟩

/-! ### Where the bits are -/

/-- An MSI capability that is there lies among the capabilities. -/
theorem MsiDecoded.isCapOffset (hdec : MsiDecoded dev) (hcap : dev.msi.capOffset ≠ 0) :
    IsCapOffset dev.msi.capOffset := by
  obtain ⟨h0, -⟩ | ⟨hcap', -⟩ := hdec
  · exact absurd h0 hcap
  · exact hcap'

/-- An MSI-X capability that is there lies among the capabilities. -/
theorem MsixDecoded.isCapOffset (hdec : MsixDecoded dev) (hcap : dev.msix.capOffset ≠ 0) :
    IsCapOffset dev.msix.capOffset :=
  hdec.1.resolve_left hcap

/-- The bytes that MSI operations write. -/
def msiRanges (dev : PciDevice) : List (ℕ × ℕ) :=
  msiMsgRanges dev ++ if dev.msi.maskable then [(dev.msi.maskOffset, 4)] else []

/-- No MSI capability is shorter than 10 bytes. -/
theorem msiLength_ge (dev : PciDevice) : 10 ≤ msiLength dev := by
  unfold msiLength
  repeat' split
  all_goals decide

/-- MSI-X operations stay clear of the MSI control word. -/
theorem msixRanges_apart_msi (hw : GateHardware dev) (hcap : dev.msi.capOffset ≠ 0) :
    ∀ r ∈ msixRanges dev,
      RegisterFile.Apart (8 * r.2) r.1 16 (dev.msi.capOffset + pciMsiFlags) := by
  obtain ⟨hge, -, -⟩ := hw.msi.isCapOffset hcap
  have hlen := msiLength_ge dev
  intro r hr
  simp only [msixRanges, List.mem_cons, List.not_mem_nil, or_false, pciCommand, pciMsixFlags] at hr
  unfold RegisterFile.Apart
  simp only [pciMsiFlags]
  rcases hr with rfl | rfl
  · exact Or.inl (by dsimp only; omega)
  · by_cases hmsix : dev.msix.capOffset = 0
    · exact Or.inl (by dsimp only; omega)
    · have hsep := hw.apart hcap hmsix
      dsimp only
      omega

/-- MSI operations stay clear of the MSI-X control word. -/
theorem msiRanges_apart_msix (hw : GateHardware dev) (hmsi : dev.msi.capOffset ≠ 0)
    (hcap : dev.msix.capOffset ≠ 0) :
    ∀ r ∈ msiRanges dev,
      RegisterFile.Apart (8 * r.2) r.1 16 (dev.msix.capOffset + pciMsixFlags) := by
  obtain ⟨hge, -, -⟩ := hw.msi.isCapOffset hmsi
  obtain ⟨hge', -, -⟩ := hw.msix.isCapOffset hcap
  have hoff : dev.msi.maskOffset
      = dev.msi.capOffset + (if dev.msi.addr64 then pciMsiMask64 else pciMsiMask32) := by
    obtain ⟨h0, -⟩ | ⟨-, hoff⟩ := hw.msi
    · exact absurd h0 hmsi
    · exact hoff
  have hsep := hw.apart hmsi hcap
  unfold msiLength at hsep
  intro r hr
  unfold RegisterFile.Apart
  cases h64 : dev.msi.addr64 <;> cases hm : dev.msi.maskable <;>
    simp only [msiRanges, msiMsgRanges, h64, hm, hoff, if_true, if_false, Bool.false_eq_true,
      List.cons_append, List.nil_append, List.append_nil, List.mem_cons, List.not_mem_nil, or_false,
      pciCommand, pciMsiFlags, pciMsiAddressLo, pciMsiAddressHi, pciMsiData64, pciMsiData32,
      pciMsiMask64, pciMsiMask32, pciMsixFlags] at hr hsep ⊢ <;>
    rcases hr with rfl | rfl | rfl | rfl | rfl | rfl <;> dsimp only <;> omega

/-! ### What moves them -/

/-- `pci_intx` writes the command register alone. -/
theorem enablesKept_pciIntx (hw : GateHardware dev) (enable : Bool) :
    EnablesKept dev (pciIntx dev enable) := by
  have hcfg := pciIntx_sameOutside dev enable (List.mem_singleton_self (pciCommand, 2))
  have hap {cap : ℕ} (hcap : 64 ≤ cap) (register : ℕ) : ∀ r ∈ [(pciCommand, 2)],
      RegisterFile.Apart (8 * r.2) r.1 16 (cap + register) := by
    intro r hr
    rw [List.mem_singleton.1 hr]
    exact Or.inl (by simp only [pciCommand]; omega)
  exact ⟨msiEnabled_of_sameOutside (by rw [pciIntx_msi]) hcfg fun h =>
      hap (hw.msi.isCapOffset h).1 pciMsiFlags,
    msixEnabled_of_sameOutside (by rw [pciIntx_msix]) hcfg fun h =>
      hap (hw.msix.isCapOffset h).1 pciMsixFlags⟩

/-- Updating the MSI mask writes the mask register only, where there is one. -/
theorem pciMsiUpdateMask_sameOutside (dev : PciDevice) (clear set : BitVec 32)
    (hmem : dev.msi.maskable = true → (dev.msi.maskOffset, 4) ∈ ranges) :
    dev.cfg.SameOutside ranges (pciMsiUpdateMask dev clear set).cfg := by
  unfold pciMsiUpdateMask
  split
  · exact RegisterFile.SameOutside.refl _ _
  · rename_i hmaskable
    rw [Bool.not_eq_false] at hmaskable
    exact pciWriteConfig_sameOutside { dev with msi := _ } 4 _ _ (hmem hmaskable)

/-- The mask register is among the registers of the capability. -/
theorem mask_mem_msiRanges (hmaskable : dev.msi.maskable = true) :
    (dev.msi.maskOffset, 4) ∈ msiRanges dev := by
  rw [msiRanges, hmaskable]
  exact List.mem_append_right _ (List.mem_singleton_self _)

/-- The mask register is not the control word. -/
theorem enablesKept_pciMsiUpdateMask (hw : GateHardware dev) (clear set : BitVec 32) :
    EnablesKept dev (pciMsiUpdateMask dev clear set) := by
  have hmsi := (pciMsiUpdateMask_sameRecord dev clear set).msi
  have hmsix := (pciMsiUpdateMask_sameRecord dev clear set).msix
  by_cases hmaskable : dev.msi.maskable = true
  · have hcfg := pciMsiUpdateMask_sameOutside dev clear set fun _ =>
      List.mem_singleton_self (dev.msi.maskOffset, 4)
    obtain ⟨-, hnot⟩ | ⟨hcap, hoff⟩ := hw.msi
    · rw [hnot] at hmaskable
      cases hmaskable
    · have hcap0 : dev.msi.capOffset ≠ 0 := by
        have := hcap.1
        omega
      refine ⟨msiEnabled_of_sameOutside (by rw [hmsi]) hcfg fun _ r hr => ?_,
        msixEnabled_of_sameOutside (by rw [hmsix]) hcfg fun h r hr => ?_⟩
      · rw [List.mem_singleton.1 hr]
        refine Or.inr ?_
        dsimp only
        rw [hoff]
        split <;> simp only [pciMsiFlags, pciMsiMask64, pciMsiMask32] <;> omega
      · rw [List.mem_singleton.1 hr]
        exact msiRanges_apart_msix hw hcap0 h _ (mask_mem_msiRanges hmaskable)
  · rw [Bool.not_eq_true] at hmaskable
    unfold pciMsiUpdateMask
    rw [if_pos hmaskable]
    exact ⟨Iff.rfl, Iff.rfl⟩

/-- `pci_msi_set_enable` sets the bit as it is told. -/
theorem msiEnabled_pciMsiSetEnable (hdec : MsiDecoded dev) (hw : EnablesWritable dev)
    (hcap : dev.msi.capOffset ≠ 0) (enable : Bool) :
    MsiEnabled (pciMsiSetEnable dev enable) ↔ enable = true := by
  obtain ⟨-, hlt, -⟩ := hdec.isCapOffset hcap
  have hrw : dev.cfg.rw.getLsbD (8 * (dev.msi.capOffset + pciMsiFlags) + 0) = true :=
    hw.msi hcap 0 (by decide) (by decide)
  unfold MsiEnabled pciMsiSetEnable
  rw [pciWriteConfig_msi, getLsbD_pciReadConfig_write _ _ (by simp only [pciMsiFlags]; omega)
    (by decide), if_pos hrw]
  cases enable <;> simp [hcap]

/-- `pci_msix_set_ctrl` sets the bit, clears it or leaves it. -/
theorem msixEnabled_pciMsixSetCtrl (hdec : MsixDecoded dev) (hw : EnablesWritable dev)
    (hcap : dev.msix.capOffset ≠ 0) (clear set : BitVec 16) :
    MsixEnabled (pciMsixSetCtrl dev clear set) ↔
      set.getLsbD 15 = true ∨ clear.getLsbD 15 = false ∧ MsixEnabled dev := by
  obtain ⟨-, hlt, -⟩ := hdec.isCapOffset hcap
  have hrw : dev.cfg.rw.getLsbD (8 * (dev.msix.capOffset + pciMsixFlags) + 15) = true :=
    hw.msix hcap 15 (by decide) (by decide)
  unfold MsixEnabled pciMsixSetCtrl
  rw [pciWriteConfig_msix, getLsbD_pciReadConfig_write _ _ (by simp only [pciMsixFlags]; omega)
    (by decide), if_pos hrw, BitVec.getLsbD_or, BitVec.getLsbD_and, BitVec.getLsbD_not]
  cases set.getLsbD 15 <;> cases clear.getLsbD 15 <;> simp [hcap]

/-! ### Allocation and teardown -/

/-- Programming MSI writes the registers of the capability only. -/
theorem pciMsiProgram_sameOutside (pcie : PciController σ) (dev : PciDevice) (n : ℕ) :
    dev.cfg.SameOutside (msiRanges dev) (pciMsiProgram pcie dev n).cfg := by
  have hsub : ∀ r ∈ msiMsgRanges dev, r ∈ msiRanges dev := fun r hr => List.mem_append_left _ hr
  have hcontrol : (dev.msi.capOffset + pciMsiFlags, 2) ∈ msiRanges dev :=
    hsub _ (by simp [msiMsgRanges])
  have hcommand : (pciCommand, 2) ∈ msiRanges dev := hsub _ (by simp [msiMsgRanges])
  have hoff := pciMsiSetEnable_sameOutside dev false hcontrol
  have hmask := @pciMsiUpdateMask_sameOutside (msiRanges dev) (pciMsiSetEnable dev false) 0
    (msiMultiMask (pciMsiSetEnable dev false)) fun h => @mask_mem_msiRanges dev h
  have hrec := (pciMsiUpdateMask_sameRecord (pciMsiSetEnable dev false) 0
    (msiMultiMask (pciMsiSetEnable dev false))).msi
  unfold pciMsiProgram
  dsimp only
  generalize pciMsiUpdateMask (pciMsiSetEnable dev false) 0 _ = d at hmask hrec ⊢
  have hmsg : d.cfg.SameOutside (msiRanges dev) (pciMsiWriteMsg pcie d n).cfg := by
    refine (pciMsiWriteMsg_sameOutside pcie d n).mono fun r hr => hsub r ?_
    unfold msiMsgRanges at hr ⊢
    rwa [hrec] at hr
  have hcap : (pciIntx (pciMsiWriteMsg pcie d n) false).msi.capOffset = dev.msi.capOffset := by
    rw [pciIntx_msi, pciMsiWriteMsg_msi, hrec]
    rfl
  exact (((hoff.trans hmask).trans hmsg).trans (pciIntx_sameOutside _ false hcommand)).trans
    (pciMsiSetEnable_sameOutside _ true (by rw [hcap]; exact hcontrol))

/-- An MSI allocation turns MSI on, and leaves the MSI-X bit. -/
theorem enables_pciMsiProgram (hw : GateHardware dev) (he : EnablesWritable dev)
    (hcap : dev.msi.capOffset ≠ 0) (n : ℕ) :
    MsiEnabled (pciMsiProgram pcie dev n) ∧
      (MsixEnabled (pciMsiProgram pcie dev n) ↔ MsixEnabled dev) := by
  have hsame := SameFunction.of_sameRecord (pciMsiProgram_sameRecord dev pcie n)
    (pciMsiProgram_rw dev pcie n)
  refine ⟨?_, msixEnabled_of_sameOutside (by rw [hsame.msix]) (pciMsiProgram_sameOutside pcie dev n)
    (msiRanges_apart_msix hw hcap)⟩
  -- the last write sets the bit, on the same function
  have hlast : pciMsiProgram pcie dev n = pciMsiSetEnable (pciIntx (pciMsiWriteMsg pcie
      (pciMsiUpdateMask (pciMsiSetEnable dev false) 0 (msiMultiMask dev)) n) false) true := rfl
  rw [hlast] at hsame ⊢
  generalize pciIntx _ false = d at hsame ⊢
  have hd : SameFunction dev d :=
    ⟨(pciMsiSetEnable_rw d true).symm.trans hsame.rw, hsame.msi, hsame.msix, hsame.gicIrq⟩
  exact (msiEnabled_pciMsiSetEnable (hd.msiDecoded hw.msi) (hd.enablesWritable he)
    (by rw [hd.msi]; exact hcap) true).2 rfl

/-- Programming MSI keeps the header. -/
theorem headerKept_pciMsiProgram (hdec : MsiDecoded dev) (hcap : dev.msi.capOffset ≠ 0) (n : ℕ) :
    HeaderKept dev (pciMsiProgram pcie dev n) := by
  have hoff := headerKept_pciMsiSetEnable (hdec.isCapOffset hcap) false
  have hmask := @headerKept_pciMsiUpdateMask (pciMsiSetEnable dev false) hdec 0
    (msiMultiMask (pciMsiSetEnable dev false))
  have hrec := (pciMsiUpdateMask_sameRecord (pciMsiSetEnable dev false) 0
    (msiMultiMask (pciMsiSetEnable dev false))).msi
  unfold pciMsiProgram
  dsimp only
  generalize pciMsiUpdateMask (pciMsiSetEnable dev false) 0 _ = d at hmask hrec ⊢
  have hd : IsCapOffset d.msi.capOffset := by
    rw [hrec]
    exact hdec.isCapOffset hcap
  refine (((hoff.trans hmask).trans (headerKept_pciMsiWriteMsg hd pcie n)).trans
    (headerKept_pciIntx _ false)).trans (headerKept_pciMsiSetEnable ?_ true)
  rw [pciIntx_msi, pciMsiWriteMsg_msi]
  exact hd

/-- An MSI-X allocation turns MSI-X on, and leaves the MSI bit. -/
theorem enables_pciMsixProgram (hw : GateHardware dev) (he : EnablesWritable dev)
    (hcap : dev.msix.capOffset ≠ 0) (n : ℕ) :
    MsixEnabled (pciMsixProgram pcie dev n) ∧
      (MsiEnabled (pciMsixProgram pcie dev n) ↔ MsiEnabled dev) := by
  have hsame := SameFunction.of_sameRecord (pciMsixProgram_sameRecord dev pcie n)
    (pciMsixProgram_rw dev pcie n)
  refine ⟨?_, msiEnabled_of_sameOutside (by rw [hsame.msi]) (pciMsixProgram_sameOutside dev pcie n)
    (msixRanges_apart_msi hw)⟩
  -- the bit is set first, and what follows leaves it
  have hfirst := (msixEnabled_pciMsixSetCtrl hw.msix he hcap 0
    (pciMsixFlagsEnable ||| pciMsixFlagsMaskall)).2 (Or.inl (by decide))
  have hset := SameFunction.of_sameRecord (pciMsixSetCtrl_sameRecord dev 0
    (pciMsixFlagsEnable ||| pciMsixFlagsMaskall)) (pciMsixSetCtrl_rw dev _ _)
  unfold pciMsixProgram
  dsimp only
  generalize pciMsixSetCtrl dev 0 _ = d at hfirst hset ⊢
  have hloop : EnablesKept d (msixProgramLoop pcie d n) :=
    enablesKept_of_cfg (by rw [msixProgramLoop_msi]) (by rw [msixProgramLoop_msix])
      (msixProgramLoop_cfg d pcie n)
  have hloopSame : SameFunction d (msixProgramLoop pcie d n) := by
    rw [msixProgramLoop_eq]
    exact ⟨rfl, rfl, rfl, rfl⟩
  have hsame' := hset.trans hloopSame
  generalize msixProgramLoop pcie d n = d' at hloop hsame' ⊢
  have hintx := enablesKept_pciIntx (hsame'.gateHardware hw) false
  have hintxSame := hsame'.trans (SameFunction.of_sameRecord (pciIntx_sameRecord d' false)
    (pciIntx_rw d' false))
  refine (msixEnabled_pciMsixSetCtrl (hintxSame.msixDecoded hw.msix) (hintxSame.enablesWritable he)
    (by rw [hintxSame.msix]; exact hcap) pciMsixFlagsMaskall 0).2 (Or.inr ⟨by decide, ?_⟩)
  rw [hintx.msix, hloop.msix]
  exact hfirst

/-- Programming MSI-X keeps the header. -/
theorem headerKept_pciMsixProgram (hdec : MsixDecoded dev) (hcap : dev.msix.capOffset ≠ 0) (n : ℕ) :
    HeaderKept dev (pciMsixProgram pcie dev n) := by
  have hoff := hdec.isCapOffset hcap
  have hloop (d : PciDevice) : HeaderKept d (msixProgramLoop pcie d n) :=
    HeaderKept.of_cfg (by rw [msixProgramLoop_eq]) (msixProgramLoop_cfg d pcie n)
  unfold pciMsixProgram
  dsimp only
  refine (((headerKept_pciMsixSetCtrl hoff 0 _).trans (hloop _)).trans
    (headerKept_pciIntx _ false)).trans (headerKept_pciMsixSetCtrl ?_ _ _)
  rw [pciIntx_msix, msixProgramLoop_msix, pciMsixSetCtrl_msix]
  exact hoff

/-- The gate of a vector is in the MSI-X table or in the MSI mask register. -/
theorem headerKept_vecGate (hdec : MsiDecoded dev) (vec : ℕ) (open' : Bool) :
    HeaderKept dev (vecGate dev vec open') := by
  unfold vecGate pciIrqVecOpen pciIrqVecClose
  by_cases hmode : dev.active.mode = .msix
  · rw [if_pos hmode, if_pos hmode]
    split <;> exact HeaderKept.of_cfg rfl rfl
  · rw [if_neg hmode, if_neg hmode]
    split <;> exact headerKept_pciMsiUpdateMask hdec _ _

/-- Opening or closing the gate of a vector switches neither mode on or off. -/
theorem enablesKept_vecGate (hw : GateHardware dev) (vec : ℕ) (open' : Bool) :
    EnablesKept dev (vecGate dev vec open') := by
  unfold vecGate pciIrqVecOpen pciIrqVecClose
  by_cases hmode : dev.active.mode = .msix
  · rw [if_pos hmode, if_pos hmode]
    split <;> exact enablesKept_of_cfg rfl rfl rfl
  · rw [if_neg hmode, if_neg hmode]
    split <;> exact enablesKept_pciMsiUpdateMask hw _ _

/-- Teardown turns off the type that is on. -/
theorem enables_switchOff (hw : GateHardware dev) (he : EnablesWritable dev) (h : EnablesAgree dev) :
    ¬ MsiEnabled (switchOff dev) ∧ ¬ MsixEnabled (switchOff dev) := by
  unfold switchOff
  by_cases hmsix : dev.active.mode = .msix
  · have hcap := (h.msix.2 hmsix).1
    rw [if_pos hmsix]
    refine ⟨?_, ?_⟩
    · rw [@msiEnabled_of_sameOutside dev (pciMsixShutdown dev) _ rfl
        (pciMsixShutdown_sameOutside dev) (msixRanges_apart_msi hw), h.msi, hmsix]
      decide
    · rw [pciMsixShutdown, msixEnabled_pciMsixSetCtrl hw.msix he hcap]
      simp
  · rw [if_neg hmsix]
    by_cases hmsi : dev.active.mode = .msi
    · have hcap := (h.msi.2 hmsi).1
      have hset := SameFunction.of_sameRecord (pciMsiSetEnable_sameRecord dev false)
        (pciMsiSetEnable_rw dev false)
      have hmask := enablesKept_pciMsiUpdateMask (hset.gateHardware hw)
        (msiMultiMask (pciMsiSetEnable dev false)) 0
      have hcontrol : (dev.msi.capOffset + pciMsiFlags, 2) ∈ msiRanges dev :=
        List.mem_append_left _ (by simp [msiMsgRanges])
      rw [if_pos hmsi, pciMsiShutdown, hmask.msi, hmask.msix,
        msiEnabled_pciMsiSetEnable hw.msi he hcap,
        @msixEnabled_of_sameOutside dev (pciMsiSetEnable dev false) _ rfl
          (pciMsiSetEnable_sameOutside dev false hcontrol) (msiRanges_apart_msix hw hcap), h.msix]
      exact ⟨by decide, hmsix⟩
    · rw [if_neg hmsi, h.msi, h.msix]
      exact ⟨hmsi, hmsix⟩

/-- Switching a function's interrupts off keeps the header. -/
theorem headerKept_switchOff (hw : GateHardware dev) (h : EnablesAgree dev) :
    HeaderKept dev (switchOff dev) := by
  unfold switchOff
  split
  · rename_i hmode
    exact headerKept_pciMsixSetCtrl (hw.msix.isCapOffset (h.msix.2 hmode).1) _ _
  · split
    · rename_i hmode
      exact (headerKept_pciMsiSetEnable (hw.msi.isCapOffset (h.msi.2 hmode).1) false).trans
        (@headerKept_pciMsiUpdateMask (pciMsiSetEnable dev false) hw.msi _ _)
    · exact HeaderKept.refl dev

end Device

/-! ## The calls, one by one -/

/-- What a call leaves of what the record says of the registers. -/
structure RecordKept (dev dev' : PciDevice) : Prop where
  header : HeaderKept dev dev'
  enables : EnablesAgree dev'

section Calls

variable {pcie : PciController σ} {dev : PciDevice}

/-- An allocation turns on the type it records. -/
theorem AllocOutcome.recordKept (hw : GateHardware dev) (he : EnablesWritable dev)
    (h : EnablesAgree dev) {min max : ℕ} {flags : BitVec 32}
    {r : PciController σ × PciDevice × Except Errno ℕ}
    (hout : AllocOutcome pcie dev min max flags r) : RecordKept dev r.2.1 := by
  cases hout with
  | refused e slots =>
    exact ⟨HeaderKept.of_cfg rfl rfl, h.keep (enablesKept_of_cfg rfl rfl rfl) rfl⟩
  | msix n slots used hidle hflags htable =>
    have hcap := (hw.msix.2 htable).1
    have hslots : SameFunction dev (dev.setSlots slots) := ⟨rfl, rfl, rfl, rfl⟩
    have hprog := @enables_pciMsixProgram _ (pcie.setUsed used) (dev.setSlots slots)
      (hslots.gateHardware hw) (hslots.enablesWritable he) hcap n
    have hheader := @headerKept_pciMsixProgram _ (pcie.setUsed used) (dev.setSlots slots) hw.msix
      hcap n
    have hstart : HeaderKept dev (dev.setSlots slots) := HeaderKept.of_cfg rfl rfl
    refine ⟨(hstart.trans hheader).trans (HeaderKept.of_cfg rfl rfl), ?_, ?_⟩
    · refine iff_of_false (fun hon => ?_) (by simp)
      have hoff := h.msi.1 (hprog.2.1 hon)
      rw [hidle] at hoff
      cases hoff
    · exact iff_of_true hprog.1 rfl
  | msi k base slots used hidle hflags hcap =>
    have hslots : SameFunction dev (dev.setSlots (blockSlots slots base (2 ^ k))) :=
      ⟨rfl, rfl, rfl, rfl⟩
    have hprog := @enables_pciMsiProgram _ (pcie.setUsed used)
      (dev.setSlots (blockSlots slots base (2 ^ k))) (hslots.gateHardware hw)
      (hslots.enablesWritable he) hcap (2 ^ k)
    have hheader := @headerKept_pciMsiProgram _ (pcie.setUsed used)
      (dev.setSlots (blockSlots slots base (2 ^ k))) hw.msi hcap (2 ^ k)
    have hstart : HeaderKept dev (dev.setSlots (blockSlots slots base (2 ^ k))) :=
      HeaderKept.of_cfg rfl rfl
    refine ⟨(hstart.trans hheader).trans (HeaderKept.of_cfg rfl rfl), ?_, ?_⟩
    · exact iff_of_true hprog.1 rfl
    · refine iff_of_false (fun hon => ?_) (by simp)
      have hoff := h.msix.1 (hprog.2.1 hon)
      rw [hidle] at hoff
      cases hoff
  | intx slots hidle =>
    refine ⟨HeaderKept.of_cfg rfl rfl, ?_, ?_⟩
    · refine iff_of_false (fun hon => ?_) (by simp)
      have hoff := h.msi.1 hon
      rw [hidle] at hoff
      cases hoff
    · refine iff_of_false (fun hon => ?_) (by simp)
      have hoff := h.msix.1 hon
      rw [hidle] at hoff
      cases hoff

variable [Gic400 σ]

/-- Adding a server opens a gate, or lets INTx through. -/
theorem AddOutcome.recordKept (hw : GateHardware dev) (h : EnablesAgree dev) {vec : ℕ}
    {isr : Option Interrupt} {r : PciController σ × PciDevice × Except Errno Unit}
    (hout : AddOutcome pcie dev vec isr r) : RecordKept dev r.2.1 := by
  cases hout with
  | badVec => exact ⟨HeaderKept.refl dev, h⟩
  | busy => exact ⟨HeaderKept.refl dev, h⟩
  | gicRefused => exact ⟨HeaderKept.refl dev, h⟩
  | intx hvec hmode =>
    have hserver : SameFunction dev (dev.setIntxServer isr) := ⟨rfl, rfl, rfl, rfl⟩
    have hstart : EnablesAgree (dev.setIntxServer isr) := h.keep (enablesKept_of_cfg rfl rfl rfl) rfl
    have hheader : HeaderKept dev (dev.setIntxServer isr) := HeaderKept.of_cfg rfl rfl
    exact ⟨hheader.trans (headerKept_pciIntx _ true),
      hstart.keep (enablesKept_pciIntx (hserver.gateHardware hw) true) (by rw [pciIntx_active])⟩
  | slot =>
    exact ⟨headerKept_vecGate hw.msi vec true, h.keep (enablesKept_vecGate hw vec true)
      (congrArg IrqAlloc.mode (vecGate_sameRecord dev vec true).active)⟩

/-- Removing a server closes a gate, or blocks INTx. -/
theorem RemOutcome.recordKept (hw : GateHardware dev) (h : EnablesAgree dev) {vec : ℕ}
    {isr : Option Interrupt} {r : PciController σ × PciDevice}
    (hout : RemOutcome pcie dev vec isr r) : RecordKept dev r.2 := by
  cases hout with
  | ignored => exact ⟨HeaderKept.refl dev, h⟩
  | intx =>
    have hintx : EnablesAgree (pciIntx dev false) :=
      h.keep (enablesKept_pciIntx hw false) (by rw [pciIntx_active])
    exact ⟨(headerKept_pciIntx dev false).trans (HeaderKept.of_cfg rfl rfl),
      hintx.keep (enablesKept_of_cfg rfl rfl rfl) rfl⟩
  | slot =>
    exact ⟨headerKept_vecGate hw.msi vec false, h.keep (enablesKept_vecGate hw vec false)
      (congrArg IrqAlloc.mode (vecGate_sameRecord dev vec false).active)⟩

omit [Gic400 σ] in
/-- The runtime mask acts at the root complex, or on INTx. -/
theorem MaskOutcome.recordKept (hw : GateHardware dev) (h : EnablesAgree dev) {vec : ℕ}
    {open' : Bool} {r : PciController σ × PciDevice × Bool}
    (hout : MaskOutcome pcie dev vec open' r) : RecordKept dev r.2.1 := by
  cases hout with
  | badVec => exact ⟨HeaderKept.refl dev, h⟩
  | intx =>
    exact ⟨headerKept_pciIntx dev open',
      h.keep (enablesKept_pciIntx hw open') (by rw [pciIntx_active])⟩
  | slot => exact ⟨HeaderKept.refl dev, h⟩

/-- Teardown turns off the type that is on, and records that none is. -/
theorem recordKept_pciIrqVectorsFree (pcie : PciController σ) (hw : GateHardware dev)
    (he : EnablesWritable dev) (h : EnablesAgree dev) :
    RecordKept dev (pciIrqVectorsFree pcie dev).2 := by
  obtain ⟨used, heq⟩ := pciIrqVectorsFree_eq pcie dev
  have hdetach := detachServers_invariant
    (P := fun _ d => SameFunction dev d ∧ RecordKept dev d)
    (fun p d v isr hd => by
      have hout := pciIrqRemServer_outcome p d v isr
      have hnext := hout.recordKept (hd.1.gateHardware hw) hd.2.enables
      exact ⟨hd.1.trans hout.sameFunction, hd.2.header.trans hnext.header, hnext.enables⟩)
    pcie dev dev.active.nvec ⟨SameFunction.refl dev, HeaderKept.refl dev, h⟩
  rw [heq]
  generalize (detachServers pcie dev dev.active.nvec).2 = d at hdetach ⊢
  obtain ⟨hsame, hkept⟩ := hdetach
  obtain ⟨hmsi, hmsix⟩ := enables_switchOff (hsame.gateHardware hw) (hsame.enablesWritable he)
    hkept.enables
  refine ⟨(hkept.header.trans (headerKept_switchOff (hsame.gateHardware hw) hkept.enables)).trans
    (HeaderKept.of_cfg rfl rfl), ?_, ?_⟩
  · exact iff_of_false hmsi (by simp)
  · exact iff_of_false hmsix (by simp)

/-- **Every core call** leaves the header, and enables what it records. -/
theorem recordKept_apply (pcie : PciController σ) (hw : GateHardware dev) (he : EnablesWritable dev)
    (h : EnablesAgree dev) (c : IrqCall ι) : RecordKept dev (c.apply pcie dev).2 := by
  cases c with
  | vectorsAlloc i min max flags =>
    exact (pciIrqVectorsAlloc_outcome pcie dev min max flags).recordKept hw he h
  | vectorsFree i => exact recordKept_pciIrqVectorsFree pcie hw he h
  | addServer i vec isr => exact (pciIrqAddServer_outcome pcie dev vec isr).recordKept hw h
  | remServer i vec isr => exact (pciIrqRemServer_outcome pcie dev vec isr).recordKept hw h
  | vecMask i vec => exact (pciIrqVecMask_outcome pcie dev vec).recordKept hw h
  | vecUnmask i vec => exact (pciIrqVecUnmask_outcome pcie dev vec).recordKept hw h

end Calls

/-! ## Probe -/

/-- A register is read from the configuration space alone. -/
theorem pciReadConfig_congr {dev dev' : PciDevice} (h : dev'.cfg = dev.cfg) (w offset : ℕ) :
    pciReadConfig w dev' offset = pciReadConfig w dev offset := by
  unfold pciReadConfig
  rw [h]

/-- Decoding the MSI capability writes its control word alone, with MSI off. -/
theorem pciMsiInit_cases (dev : PciDevice) :
    (pciMsiInit dev).msi.capOffset = pciFindCapability dev pciCapIdMsi ∧
      (pciFindCapability dev pciCapIdMsi ≠ 0 → ∃ control : BitVec 16, control.getLsbD 0 = false ∧
        (pciMsiInit dev).cfg = (pciWriteConfig16 dev
          (pciFindCapability dev pciCapIdMsi + pciMsiFlags) control).cfg) := by
  unfold pciMsiInit
  dsimp only
  split
  · rename_i h0
    exact ⟨rfl, fun hne => absurd h0 hne⟩
  · refine ⟨rfl, fun _ => ⟨pciReadConfig16 dev (pciFindCapability dev pciCapIdMsi + pciMsiFlags)
      &&& ~~~pciMsiFlagsEnable, ?_, rfl⟩⟩
    rw [BitVec.getLsbD_and, BitVec.getLsbD_not]
    simp

/-- Decoding the MSI capability turns MSI off. -/
theorem not_msiEnabled_pciMsiInit (dev : PciDevice)
    (he : (pciMsiInit dev).msi.capOffset ≠ 0 → (pciMsiInit dev).cfg.Writable 16
      ((pciMsiInit dev).msi.capOffset + pciMsiFlags) pciMsiFlagsEnable) :
    ¬ MsiEnabled (pciMsiInit dev) := by
  rintro ⟨hcap, hon⟩
  have hrw := he hcap 0 (by decide) (by decide)
  obtain ⟨hoff, hcontrol⟩ := pciMsiInit_cases dev
  rw [hoff] at hcap hon hrw
  obtain h0 | ⟨-, hlt, -⟩ := pciFindCapability_spec dev pciCapIdMsi
  · exact hcap h0
  · obtain ⟨control, hbit, hcfg⟩ := hcontrol hcap
    rw [hcfg, pciWriteConfig_rw] at hrw
    have hread := pciReadConfig_congr hcfg 16 (pciFindCapability dev pciCapIdMsi + pciMsiFlags)
    rw [show pciReadConfig16 (pciMsiInit dev) _ = _ from hread,
      getLsbD_pciReadConfig_write _ _ (by simp only [pciMsiFlags]; omega) (by decide), if_pos hrw,
      hbit] at hon
    cases hon

/-- Decoding the MSI-X capability turns MSI-X off. -/
theorem not_msixEnabled_pciMsixInit (dev : PciDevice) (he : EnablesWritable (pciMsixInit dev)) :
    ¬ MsixEnabled (pciMsixInit dev) := by
  rintro ⟨hcap, hon⟩
  have hrw := he.msix hcap 15 (by decide) (by decide)
  obtain ⟨-, heq⟩ | ⟨size, table, ⟨-, hlt, -⟩, -, heq⟩ := pciMsixInit_cases dev
  · rw [heq] at hcap
    exact hcap rfl
  · rw [heq] at hon hrw
    dsimp only at hon hrw
    rw [pciWriteConfig_rw] at hrw
    have hread : (pciReadConfig16 (pciWriteConfig16 dev
        (pciFindCapability dev pciCapIdMsix + pciMsixFlags)
        (pciReadConfig16 dev (pciFindCapability dev pciCapIdMsix + pciMsixFlags)
          &&& ~~~pciMsixFlagsEnable ||| 0))
        (pciFindCapability dev pciCapIdMsix + pciMsixFlags)).getLsbD 15 = true := hon
    rw [getLsbD_pciReadConfig_write _ _ (by simp only [pciMsixFlags]; omega) (by decide),
      if_pos hrw] at hread
    simp at hread

/-- Decoding the MSI-X capability writes its control word alone. -/
theorem pciMsixInit_keeps (dev : PciDevice) : (pciMsixInit dev).msi = dev.msi ∧
    dev.cfg.SameOutside (msixRanges (pciMsixInit dev)) (pciMsixInit dev).cfg := by
  obtain ⟨-, heq⟩ | ⟨size, table, -, -, heq⟩ := pciMsixInit_cases dev
  · rw [heq]
    exact ⟨rfl, RegisterFile.SameOutside.refl _ _⟩
  · rw [heq]
    exact ⟨rfl, pciWriteConfig_sameOutside dev 2 _ _ (by simp [msixRanges])⟩

/-- Decoding the capabilities turns both types off. -/
theorem DeviceProbed.enablesAgree {dev : PciDevice} (h : DeviceProbed dev) (hapart : CapsApart dev)
    (hmask : MaskWritable dev) (he : EnablesWritable dev) : EnablesAgree dev := by
  obtain ⟨hactive, hmsiDec, hmsixDec⟩ := h.decoded
  have hmode : dev.active.mode = .idle := by rw [hactive]
  obtain ⟨raw, -, -, -, rfl⟩ := h
  refine ⟨iff_of_false ?_ (by rw [hmode]; decide), iff_of_false ?_ (by rw [hmode]; decide)⟩
  · -- the MSI bit is cleared first, and decoding the MSI-X capability leaves it
    obtain ⟨hmsi, hcfg⟩ := pciMsixInit_keeps (pciMsiInit raw)
    have hap := msixRanges_apart_msi ⟨hmsiDec, hmsixDec, hapart, hmask⟩
    have hwritable := he.msi
    unfold RegisterFile.Writable at hwritable
    rw [hmsi] at hap hwritable
    rw [hcfg.1] at hwritable
    rw [msiEnabled_of_sameOutside (by rw [hmsi]) hcfg hap]
    exact not_msiEnabled_pciMsiInit raw hwritable
  · exact not_msixEnabled_pciMsixInit _ he

end BcmPcie
