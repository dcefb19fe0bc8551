import BcmPcie.Brcmstb.Outbound
import BcmPcie.Enumeration.Regions
import BcmPcie.Library.Windows

/-! # The root complex

Its registers as `brcm_pcie_probe` sets them up, apart from the outbound windows: the accesses, the
state of the link, the internal MDIO bus, and the inbound window that a device on the bus sees memory
through (`PCIE_MISC_RC_BAR2_CONFIG`).

* `RcAnswers` — what the hardware answers meanwhile.
* `brcmPcieSetSsc` — the only use of the MDIO bus.
* `inboundWindow` — what the registers of the inbound window say.
* `inboundWindow_setRcBar2` — the window after it is programmed. -/

namespace BcmPcie

open BitFields Windows

/-! ## Registers -/

/-- `mmio_read16`, of the half of a register. -/
def mmioRead16 (regs : RcRegisters) (offset : ℕ) : BitVec 16 :=
  (regs (offset / 4 * 4) >>> (offset % 4 * 8)).setWidth 16

/-- `mmio_write16`. -/
def mmioWrite16 (regs : RcRegisters) (value : BitVec 16) (offset : ℕ) : RcRegisters :=
  let register := offset / 4 * 4
  let shift := offset % 4 * 8
  mmioWrite32 regs (regs register &&& ~~~(0xffff#32 <<< shift) ||| value.setWidth 32 <<< shift) register

/-- `mmio_set32`. -/
def mmioSet32 (regs : RcRegisters) (offset : ℕ) (mask : BitVec 32) : RcRegisters :=
  mmioWrite32 regs (regs offset ||| mask) offset

/-- `mmio_clear32`. -/
def mmioClear32 (regs : RcRegisters) (offset : ℕ) (mask : BitVec 32) : RcRegisters :=
  mmioWrite32 regs (regs offset &&& ~~~mask) offset

/-- `mmio_update32`. -/
def mmioUpdate32 (regs : RcRegisters) (offset : ℕ) (mask value : BitVec 32) : RcRegisters :=
  mmioWrite32 regs (regs offset &&& ~~~mask ||| value) offset

/-- `mmio_set16`. -/
def mmioSet16 (regs : RcRegisters) (offset : ℕ) (mask : BitVec 16) : RcRegisters :=
  mmioWrite16 regs (mmioRead16 regs offset ||| mask) offset

/-! ## The link -/

/-- What the root complex answers while it is set up. -/
structure RcAnswers where
  /-- The values of `PCIE_MISC_PCIE_STATUS`, read by read. -/
  status : ℕ → BitVec 32
  /-- The last value of each `mmio_poll_timeout` of an MDIO register. -/
  mdio : ℕ → BitVec 32
  /-- The value of `PCIE_MISC_REVISION`. -/
  revision : BitVec 32

/-- `brcm_pcie_link_up`, for a value of the status register. -/
def brcmPcieLinkUp (status : BitVec 32) : Bool :=
  status &&& statusPcieDlActiveMask ≠ 0 ∧ status &&& statusPciePhylinkupMask ≠ 0

/-- `brcm_pcie_rc_mode`. -/
def brcmPcieRcMode (status : BitVec 32) : Bool := status &&& statusPciePortMask ≠ 0

/-- The loop that waits for the link, `rounds` times at most: the reads of the status register when it
is over. -/
def waitForLink (status : ℕ → BitVec 32) : (rounds reads : ℕ) → ℕ
  | 0, reads => reads
  | rounds + 1, reads =>
    if brcmPcieLinkUp (status reads) then reads + 1 else waitForLink status rounds (reads + 1)

/-- `brcm_pcie_set_gen`. -/
def brcmPcieSetGen (regs : RcRegisters) (gen : BitVec 32) : RcRegisters :=
  let lnkctl2 := (mmioRead16 regs (brcmPcieCapRegs + pciExpLnkctl2)).setWidth 32
  let lnkcap := regs (brcmPcieCapRegs + pciExpLnkcap)
  let regs := mmioWrite32 regs (lnkcap &&& ~~~pciExpLnkcapSls ||| gen) (brcmPcieCapRegs + pciExpLnkcap)
  mmioWrite16 regs ((lnkctl2 &&& ~~~0xf#32 ||| gen).setWidth 16) (brcmPcieCapRegs + pciExpLnkctl2)

/-! ## The MDIO bus -/

/-- `brcm_pcie_mdio_form_pkt`. -/
def brcmPcieMdioFormPkt (port regad cmd : BitVec 32) : BitVec 32 :=
  port <<< 16 &&& mdioPortMask ||| regad &&& mdioRegadMask ||| cmd <<< 20 &&& mdioCmdMask

/-- `brcm_pcie_mdio_read`, with the last value of its poll. -/
def brcmPcieMdioRead (regs : RcRegisters) (polled port regad : BitVec 32) :
    RcRegisters × Except Errno (BitVec 32) :=
  (mmioWrite32 regs (brcmPcieMdioFormPkt port regad mdioCmdRead) pcieRcDlMdioAddr,
    if polled &&& mdioDataDoneMask = mdioDataDoneMask then .ok (polled &&& mdioDataMask)
    else .error .etimedout)

/-- `brcm_pcie_mdio_write`. -/
def brcmPcieMdioWrite (regs : RcRegisters) (polled port regad : BitVec 32) (wrdata : BitVec 16) :
    RcRegisters × Except Errno Unit :=
  let regs := mmioWrite32 regs (brcmPcieMdioFormPkt port regad mdioCmdWrite) pcieRcDlMdioAddr
  (mmioWrite32 regs (mdioDataDoneMask ||| wrdata.setWidth 32) pcieRcDlMdioWrData,
    if polled &&& mdioDataDoneMask = 0 then .ok () else .error .etimedout)

/-- `brcm_pcie_set_ssc`: select a block of registers, set two bits there, look at the result. -/
def brcmPcieSetSsc (regs : RcRegisters) (mdio : ℕ → BitVec 32) : RcRegisters × Except Errno Unit :=
  match brcmPcieMdioWrite regs (mdio 0) mdioPort0 setAddrOffset sscRegsAddr with
  | (regs, .error e) => (regs, .error e)
  | (regs, .ok ()) =>
    match brcmPcieMdioRead regs (mdio 1) mdioPort0 sscCntlOffset with
    | (regs, .error e) => (regs, .error e)
    | (regs, .ok tmp) =>
      let tmp := tmp ||| (sscCntlOvrdEnMask ||| sscCntlOvrdValMask)
      match brcmPcieMdioWrite regs (mdio 2) mdioPort0 sscCntlOffset (tmp.setWidth 16) with
      | (regs, .error e) => (regs, .error e)
      | (regs, .ok ()) =>
        match brcmPcieMdioRead regs (mdio 3) mdioPort0 sscStatusOffset with
        | (regs, .error e) => (regs, .error e)
        | (regs, .ok tmp) =>
          (regs,
            if tmp &&& sscStatusSscMask ≠ 0 ∧ tmp &&& sscStatusPllLockMask ≠ 0 then .ok ()
            else .error .eio)

/-! ## The inbound window -/

/-- `brcm_pcie_encode_ibar_size`. -/
def brcmPcieEncodeIbarSize (common : Emu68Common) (size : BitVec 64) : BitVec 32 :=
  let log2In := common.log2FloorU64 size
  if 12 ≤ log2In ∧ log2In ≤ 15 then log2In - 12 + 0x1c
  else if 16 ≤ log2In ∧ log2In ≤ 37 then log2In - 15
  else 0

/-- The part of `brcm_pcie_probe` that programs `PCIE_MISC_RC_BAR2_CONFIG`, with the region of the
inbound window. -/
def setRcBar2 (common : Emu68Common) (regs : RcRegisters) (region : PciRegion) : RcRegisters :=
  let rcBar2Offset := region.busStart.setWidth 64 - region.physStart
  let rcBar2Size := common.roundUpPow2U64 (region.size.setWidth 64)
  let tmp := common.u32UpdateMask (u64Lo32 rcBar2Offset) (brcmPcieEncodeIbarSize common rcBar2Size)
    rcBar2ConfigLoSizeMask
  let regs := mmioWrite32 regs tmp pcieMiscRcBar2ConfigLo
  mmioWrite32 regs (u64Hi32 rcBar2Offset) pcieMiscRcBar2ConfigHi

/-- The bytes of an inbound window, by its size field: 64 KiB and up from 1 on, 4 KiB to 32 KiB from 28
on, nothing for any other value. -/
def ibarSize (field : ℕ) : ℕ :=
  if 1 ≤ field ∧ field ≤ 22 then 2 ^ (field + 15)
  else if 0x1c ≤ field then 2 ^ (field - 0x1c + 12)
  else 0

/-- What the registers of the inbound window say: from a bus address on, memory is seen from CPU
address 0 on. -/
def inboundWindow (regs : RcRegisters) : Window where
  source := (regs pcieMiscRcBar2ConfigHi).toNat * 2 ^ 32
    + (regs pcieMiscRcBar2ConfigLo &&& ~~~rcBar2ConfigLoSizeMask).toNat
  target := 0
  size := ibarSize (extract (regs pcieMiscRcBar2ConfigLo) 0 5).toNat

/-- A power of two of bytes, if the window can be so large; a smaller one switches the window off. -/
theorem ibarSize_encode {common : Emu68Common} {size : BitVec 64} {n : ℕ} (hsize : size.toNat = 2 ^ n)
    (hn : n ≤ 37) :
    (brcmPcieEncodeIbarSize common size).toNat < 32 ∧
      ibarSize (brcmPcieEncodeIbarSize common size).toNat = if 12 ≤ n then 2 ^ n else 0 := by
  have hlog : (common.log2FloorU64 size).toNat = n :=
    common.log2FloorU64_eq size n hsize.ge (by rw [hsize]; exact Nat.pow_lt_pow_succ (by decide))
  have h12 : (12 : BitVec 32).toNat = 12 := rfl
  have h15 : (15 : BitVec 32).toNat = 15 := rfl
  have h16 : (16 : BitVec 32).toNat = 16 := rfl
  have h28 : (0x1c : BitVec 32).toNat = 28 := rfl
  have h37 : (37 : BitVec 32).toNat = 37 := rfl
  -- 4 to 32 KiB are counted from 0x1c on, 64 KiB to 128 GiB from 1 on
  have hfield : (brcmPcieEncodeIbarSize common size).toNat
      = if 12 ≤ n ∧ n ≤ 15 then n + 16 else if 16 ≤ n then n - 15 else 0 := by
    unfold brcmPcieEncodeIbarSize
    simp only [BitVec.le_def, hlog, h12, h15, h16, h37]
    split
    · rw [BitVec.toNat_add, BitVec.toNat_sub, hlog, h12, h28]
      omega
    · rename_i hsmall
      by_cases hlarge : 16 ≤ n
      · rw [if_pos ⟨hlarge, hn⟩, if_pos hlarge, BitVec.toNat_sub, hlog, h15]
        omega
      · rw [if_neg fun h => hlarge h.1, if_neg hlarge]
        rfl
  rw [hfield]
  unfold ibarSize
  by_cases hlow : 12 ≤ n
  · rw [if_pos hlow]
    by_cases hkib : n ≤ 15
    · rw [if_pos ⟨hlow, hkib⟩, if_neg (by omega), if_pos (by omega)]
      exact ⟨by omega, by rw [show n + 16 - 0x1c + 12 = n by omega]⟩
    · rw [if_neg fun h => hkib h.2, if_pos (by omega), if_pos (by omega)]
      exact ⟨by omega, by rw [show n - 15 + 15 = n by omega]⟩
  · rw [if_neg hlow, if_neg fun h => hlow h.1, if_neg (by omega), if_neg (by decide), if_neg (by decide)]
    exact ⟨by decide, rfl⟩

/-- **The inbound window** after it is programmed for a region that shows memory at its own address:
from CPU address 0 on as much as the region's size, rounded up to a power of two of 4 KiB at least. -/
theorem inboundWindow_setRcBar2 {common : Emu68Common} {regs : RcRegisters} {region : PciRegion} {n : ℕ}
    (hbus : region.busStart.toNat = region.physStart.toNat) (hpos : 0 < region.size.toNat)
    (hle : region.size.toNat ≤ 2 ^ n) (hlt : ∀ m < n, 2 ^ m < region.size.toNat) :
    inboundWindow (setRcBar2 common regs region) = ⟨0, 0, if 12 ≤ n then 2 ^ n else 0⟩ := by
  have hwide : (region.size.setWidth 64).toNat = region.size.toNat :=
    BitVec.toNat_setWidth_of_le (by decide)
  have hn : n ≤ 32 := by
    by_contra hlarge
    have h32 := hlt 32 (by omega)
    have hsize := region.size.isLt
    omega
  -- memory at its own address: the offset programmed is 0
  have hoffset : region.busStart.setWidth 64 - region.physStart = 0 := by
    have hphys : region.busStart.setWidth 64 = region.physStart := by
      apply BitVec.eq_of_toNat_eq
      rw [BitVec.toNat_setWidth_of_le (by decide), hbus]
    rw [hphys]
    exact BitVec.sub_self _
  have hround : (common.roundUpPow2U64 (region.size.setWidth 64)).toNat = 2 ^ n :=
    common.roundUpPow2U64_eq _ n (by rw [hwide]; exact hpos) (by rw [hwide]; exact hle)
      (by rw [hwide]; exact hlt) (by omega)
  obtain ⟨hfits, hsize⟩ := @ibarSize_encode common _ n hround (by omega)
  have hmask : IsField rcBar2ConfigLoSizeMask 0 5 := by decide
  have hlo : setRcBar2 common regs region pcieMiscRcBar2ConfigLo
      = insert 0 (brcmPcieEncodeIbarSize common (common.roundUpPow2U64 (region.size.setWidth 64)))
        rcBar2ConfigLoSizeMask 0 := by
    unfold setRcBar2 mmioWrite32
    rw [Function.update_of_ne (by decide), Function.update_self, hoffset,
      common.u32UpdateMask_eq _ _ _ 0 5 hmask (by decide)]
    rfl
  have hhi : setRcBar2 common regs region pcieMiscRcBar2ConfigHi = 0 := by
    unfold setRcBar2 mmioWrite32
    rw [Function.update_self, hoffset]
    rfl
  unfold inboundWindow
  rw [hlo, hhi, insert_and_not, extract_insert hmask, BitVec.toNat_setWidth, Nat.mod_eq_of_lt hfits,
    hsize]
  rfl

end BcmPcie
