import BcmPcie.Brcmstb.Emu68Common
import BcmPcie.Pci.Types

/-! # Outbound windows

The root complex shows spans of the CPU's address space on the bus. A span is five registers: the bus
address in two words, and the first and last MiB of the CPU addresses in three more, as bit fields
(`brcm_pcie_set_outbound_win`). `brcm_pcie_probe` gives the non-prefetchable memory regions one each.

By the macros of `bcm2711.h` the two words of the bus address follow each other, and so do those of
two windows, a word further on: the upper word of one window is the lower word of the next.

* `setOutboundWins` — the loop of `brcm_pcie_probe`.
* `outboundWindow` — what the registers of a window say.
* `setOutboundWins_spec` — what they say after the loop.
* `windowsKept_iff` — when that is what the windows were given. -/

namespace BcmPcie

open BitFields

/-! ## Registers -/

/-- The registers of the root complex, 32 bits each, by byte offset. -/
abbrev RcRegisters : Type := ℕ → BitVec 32

/-- `mmio_write32`. -/
def mmioWrite32 (regs : RcRegisters) (value : BitVec 32) (offset : ℕ) : RcRegisters :=
  Function.update regs offset value

/-- `u64_lo32`. -/
def u64Lo32 (v : BitVec 64) : BitVec 32 := v.setWidth 32

/-- `PCIE_MEM_WIN0_LO` and the like, for window `win`. -/
def pcieMemWin0Lo (win : ℕ) : ℕ := pcieMiscCpu2PcieMemWin0Lo + win * 4
def pcieMemWin0Hi (win : ℕ) : ℕ := pcieMiscCpu2PcieMemWin0Hi + win * 4
def pcieMemWin0BaseLimit (win : ℕ) : ℕ := pcieMiscCpu2PcieMemWin0BaseLimit + win * 4
def pcieMemWin0BaseHi (win : ℕ) : ℕ := pcieMiscCpu2PcieMemWin0BaseHi + win * 8
def pcieMemWin0LimitHi (win : ℕ) : ℕ := pcieMiscCpu2PcieMemWin0LimitHi + win * 8

/-! ## Programming -/

/-- `brcm_pcie_set_outbound_win`. -/
def brcmPcieSetOutboundWin (common : Emu68Common) (regs : RcRegisters) (win : ℕ)
    (physAddr pcieAddr size : BitVec 64) : RcRegisters :=
  let regs := mmioWrite32 regs (u64Lo32 pcieAddr) (pcieMemWin0Lo win)
  let regs := mmioWrite32 regs ((pcieAddr >>> 32).setWidth 32) (pcieMemWin0Hi win)
  let physAddrMb : BitVec 32 := (physAddr / BitVec.ofNat 64 sz1M).setWidth 32
  let limitAddrMb : BitVec 32 := ((physAddr + size - 1) / BitVec.ofNat 64 sz1M).setWidth 32
  let tmp := regs (pcieMemWin0BaseLimit win)
  let tmp := common.u32UpdateMask tmp physAddrMb memWin0BaseLimitBaseMask
  let tmp := common.u32UpdateMask tmp limitAddrMb memWin0BaseLimitLimitMask
  let regs := mmioWrite32 regs tmp (pcieMemWin0BaseLimit win)
  let physAddrMbHigh := physAddrMb >>> memWin0BaseLimitBaseHiShift
  let tmp := regs (pcieMemWin0BaseHi win)
  let tmp := common.u32UpdateMask tmp physAddrMbHigh memWin0BaseHiBaseMask
  let regs := mmioWrite32 regs tmp (pcieMemWin0BaseHi win)
  let limitAddrMbHigh := limitAddrMb >>> memWin0BaseLimitBaseHiShift
  let tmp := regs (pcieMemWin0LimitHi win)
  let tmp := common.u32UpdateMask tmp limitAddrMbHigh pcieMemWin0LimitHiLimitMask
  mmioWrite32 regs tmp (pcieMemWin0LimitHi win)

/-- The window loop of `brcm_pcie_probe` over the remaining regions, with `numOutWins` windows
programmed by now. -/
def setOutboundWins (common : Emu68Common) :
    (regions : List PciRegion) → (numOutWins : ℕ) → RcRegisters → Except Errno RcRegisters
  | [], _, regs => .ok regs
  | reg :: regions, numOutWins, regs =>
    if reg.flags ≠ pciRegionMem then setOutboundWins common regions numOutWins regs
    else if brcmNumPcieOutWins ≤ numOutWins then .error .einval
    else
      setOutboundWins common regions (numOutWins + 1)
        (brcmPcieSetOutboundWin common regs numOutWins reg.physStart (reg.busStart.setWidth 64)
          (reg.size.setWidth 64))

/-! ## What the registers say -/

/-- A window as its registers describe it: the bus address, and the first and last MiB of the CPU
addresses. -/
@[ext] structure OutboundWindow where
  pcieAddr : ℕ
  baseMb : ℕ
  limitMb : ℕ
  deriving DecidableEq, Repr

/-- What the registers of window `win` say. -/
def outboundWindow (regs : RcRegisters) (win : ℕ) : OutboundWindow where
  pcieAddr := (regs (pcieMemWin0Hi win)).toNat * 2 ^ 32 + (regs (pcieMemWin0Lo win)).toNat
  baseMb := (extract (regs (pcieMemWin0BaseHi win)) 0 8).toNat * 2 ^ 12
    + (extract (regs (pcieMemWin0BaseLimit win)) 4 12).toNat
  limitMb := (extract (regs (pcieMemWin0LimitHi win)) 0 8).toNat * 2 ^ 12
    + (extract (regs (pcieMemWin0BaseLimit win)) 20 12).toNat

namespace PciRegion

variable (res : PciRegion)

/-- The first MiB of CPU addresses of a region, in the 20 bits that the registers have for it. -/
def baseMb : ℕ := res.physStart.toNat / sz1M % 2 ^ 20

/-- The last MiB. -/
def limitMb : ℕ := (res.physStart + res.size.setWidth 64 - 1).toNat / sz1M % 2 ^ 20

end PciRegion

/-- The regions that get a window. -/
def memRegions (regions : List PciRegion) : List PciRegion :=
  regions.filter fun res => decide (res.flags = pciRegionMem)

/-- The registers of the windows given to `mems`: each has its own fields, but the upper word of its
bus address is the lower word of the next window's. -/
def WindowsFor (mems : List PciRegion) (regs : RcRegisters) : Prop :=
  ∀ win res, mems[win]? = some res →
    outboundWindow regs win =
      { pcieAddr := ((mems[win + 1]?).map (·.busStart.toNat)).getD 0 * 2 ^ 32 + res.busStart.toNat
        baseMb := res.baseMb
        limitMb := res.limitMb }

/-! ## One window -/

section Window

variable {common : Emu68Common} {regs : RcRegisters} {win : ℕ} {physAddr pcieAddr size : BitVec 64}

/-- A number of MiB in its 20 bits, put together from the two fields it is kept in. -/
theorem mb_fields (mb : BitVec 32) :
    (mb >>> 12 |>.setWidth 8).toNat * 2 ^ 12 + (mb.setWidth 12).toNat = mb.toNat % 2 ^ 20 := by
  rw [BitVec.toNat_setWidth, BitVec.toNat_setWidth, BitVec.toNat_ushiftRight, Nat.shiftRight_eq_div_pow]
  omega

/-- The low 20 bits of an address in megabytes. -/
theorem toNat_mb (addr : BitVec 64) :
    ((addr / BitVec.ofNat 64 sz1M).setWidth 32).toNat % 2 ^ 20 = addr.toNat / sz1M % 2 ^ 20 := by
  have hmb : (BitVec.ofNat 64 sz1M).toNat = sz1M := rfl
  rw [BitVec.toNat_setWidth, BitVec.toNat_udiv, hmb]
  omega

/-- The offsets of the registers of a window, for arithmetic. -/
theorem windowOffsets (win : ℕ) :
    pcieMemWin0Lo win = 0x400c + win * 4 ∧ pcieMemWin0Hi win = 0x4010 + win * 4 ∧
      pcieMemWin0BaseLimit win = 0x4070 + win * 4 ∧ pcieMemWin0BaseHi win = 0x4080 + win * 8 ∧
      pcieMemWin0LimitHi win = 0x4084 + win * 8 :=
  ⟨rfl, rfl, rfl, rfl, rfl⟩

/-- The registers after a window is set: five are written, the last three by putting the MiB numbers
into their fields. -/
theorem setOutboundWin_apply (hwin : win < 4) (offset : ℕ) :
    brcmPcieSetOutboundWin common regs win physAddr pcieAddr size offset =
      let baseMb : BitVec 32 := (physAddr / BitVec.ofNat 64 sz1M).setWidth 32
      let limitMb : BitVec 32 := ((physAddr + size - 1) / BitVec.ofNat 64 sz1M).setWidth 32
      if offset = pcieMemWin0LimitHi win then
        insert (regs offset) (limitMb >>> 12) pcieMemWin0LimitHiLimitMask 0
      else if offset = pcieMemWin0BaseHi win then
        insert (regs offset) (baseMb >>> 12) memWin0BaseHiBaseMask 0
      else if offset = pcieMemWin0BaseLimit win then
        insert (insert (regs offset) baseMb memWin0BaseLimitBaseMask 4) limitMb
          memWin0BaseLimitLimitMask 20
      else if offset = pcieMemWin0Hi win then (pcieAddr >>> 32).setWidth 32
      else if offset = pcieMemWin0Lo win then u64Lo32 pcieAddr
      else regs offset := by
  obtain ⟨hlo, hhi, hbl, hbh, hlh⟩ := windowOffsets win
  -- the read-modify-writes read what was there before: no register of a window is another one
  have hlh_ne : pcieMemWin0LimitHi win ≠ pcieMemWin0BaseHi win ∧
      pcieMemWin0LimitHi win ≠ pcieMemWin0BaseLimit win ∧
      pcieMemWin0LimitHi win ≠ pcieMemWin0Hi win ∧ pcieMemWin0LimitHi win ≠ pcieMemWin0Lo win := by
    omega
  have hbh_ne : pcieMemWin0BaseHi win ≠ pcieMemWin0BaseLimit win ∧
      pcieMemWin0BaseHi win ≠ pcieMemWin0Hi win ∧ pcieMemWin0BaseHi win ≠ pcieMemWin0Lo win := by
    omega
  have hbl_ne : pcieMemWin0BaseLimit win ≠ pcieMemWin0Hi win ∧
      pcieMemWin0BaseLimit win ≠ pcieMemWin0Lo win := by
    omega
  unfold brcmPcieSetOutboundWin mmioWrite32
  simp only [Function.update_apply]
  rw [common.u32UpdateMask_eq _ _ memWin0BaseLimitBaseMask 4 12 (by decide) (by decide),
    common.u32UpdateMask_eq _ _ memWin0BaseLimitLimitMask 20 12 (by decide) (by decide),
    common.u32UpdateMask_eq _ _ memWin0BaseHiBaseMask 0 8 (by decide) (by decide),
    common.u32UpdateMask_eq _ _ pcieMemWin0LimitHiLimitMask 0 8 (by decide) (by decide)]
  rw [if_neg hlh_ne.1, if_neg hlh_ne.2.1, if_neg hlh_ne.2.2.1, if_neg hlh_ne.2.2.2,
    if_neg hbh_ne.1, if_neg hbh_ne.2.1, if_neg hbh_ne.2.2, if_neg hbl_ne.1, if_neg hbl_ne.2]
  by_cases h₁ : offset = pcieMemWin0LimitHi win
  · rw [if_pos h₁, if_pos h₁, h₁]
  · rw [if_neg h₁, if_neg h₁]
    by_cases h₂ : offset = pcieMemWin0BaseHi win
    · rw [if_pos h₂, if_pos h₂, h₂]
    · rw [if_neg h₂, if_neg h₂]
      by_cases h₃ : offset = pcieMemWin0BaseLimit win
      · rw [if_pos h₃, if_pos h₃, h₃]
      · rw [if_neg h₃, if_neg h₃]

/-! The registers of window `j`, one by one. -/

/-- The upper limit registers after a window was set: the window's own has the limit, the others
stay. -/
theorem setOutboundWin_limitHi (hwin : win < 4) {j : ℕ} (hj : j < 4) :
    brcmPcieSetOutboundWin common regs win physAddr pcieAddr size (pcieMemWin0LimitHi j) =
      if j = win then
        insert (regs (pcieMemWin0LimitHi j))
          (((physAddr + size - 1) / BitVec.ofNat 64 sz1M).setWidth 32 >>> 12)
          pcieMemWin0LimitHiLimitMask 0
      else regs (pcieMemWin0LimitHi j) := by
  obtain ⟨hlo, hhi, hbl, hbh, hlh⟩ := windowOffsets win
  obtain ⟨-, -, -, -, hlhj⟩ := windowOffsets j
  rw [setOutboundWin_apply hwin]
  dsimp only
  by_cases h : j = win
  · rw [if_pos h, if_pos (by rw [h])]
  · rw [if_neg h, if_neg (by omega), if_neg (by omega), if_neg (by omega), if_neg (by omega),
      if_neg (by omega)]

/-- The upper base registers after a window was set. -/
theorem setOutboundWin_baseHi (hwin : win < 4) {j : ℕ} (hj : j < 4) :
    brcmPcieSetOutboundWin common regs win physAddr pcieAddr size (pcieMemWin0BaseHi j) =
      if j = win then
        insert (regs (pcieMemWin0BaseHi j))
          ((physAddr / BitVec.ofNat 64 sz1M).setWidth 32 >>> 12) memWin0BaseHiBaseMask 0
      else regs (pcieMemWin0BaseHi j) := by
  obtain ⟨hlo, hhi, hbl, hbh, hlh⟩ := windowOffsets win
  obtain ⟨-, -, -, hbhj, -⟩ := windowOffsets j
  rw [setOutboundWin_apply hwin]
  dsimp only
  by_cases h : j = win
  · rw [if_pos h, if_neg (by omega), if_pos (by rw [h])]
  · rw [if_neg h, if_neg (by omega), if_neg (by omega), if_neg (by omega), if_neg (by omega),
      if_neg (by omega)]

/-- The lower base and limit registers after a window was set. -/
theorem setOutboundWin_baseLimit (hwin : win < 4) {j : ℕ} (hj : j < 4) :
    brcmPcieSetOutboundWin common regs win physAddr pcieAddr size (pcieMemWin0BaseLimit j) =
      if j = win then
        insert (insert (regs (pcieMemWin0BaseLimit j))
            ((physAddr / BitVec.ofNat 64 sz1M).setWidth 32) memWin0BaseLimitBaseMask 4)
          (((physAddr + size - 1) / BitVec.ofNat 64 sz1M).setWidth 32) memWin0BaseLimitLimitMask 20
      else regs (pcieMemWin0BaseLimit j) := by
  obtain ⟨hlo, hhi, hbl, hbh, hlh⟩ := windowOffsets win
  obtain ⟨-, -, hblj, -, -⟩ := windowOffsets j
  rw [setOutboundWin_apply hwin]
  dsimp only
  by_cases h : j = win
  · rw [if_pos h, if_neg (by omega), if_neg (by omega), if_pos (by rw [h])]
  · rw [if_neg h, if_neg (by omega), if_neg (by omega), if_neg (by omega), if_neg (by omega),
      if_neg (by omega)]

/-- The upper address word is the lower one of the window behind. -/
theorem setOutboundWin_hi (hwin : win < 4) {j : ℕ} (hj : j < 4) :
    brcmPcieSetOutboundWin common regs win physAddr pcieAddr size (pcieMemWin0Hi j) =
      if j = win then (pcieAddr >>> 32).setWidth 32
      else if j + 1 = win then u64Lo32 pcieAddr
      else regs (pcieMemWin0Hi j) := by
  obtain ⟨hlo, hhi, hbl, hbh, hlh⟩ := windowOffsets win
  obtain ⟨-, hhij, -, -, -⟩ := windowOffsets j
  rw [setOutboundWin_apply hwin]
  dsimp only
  rw [if_neg (by omega), if_neg (by omega), if_neg (by omega)]
  by_cases h : j = win
  · rw [if_pos h, if_pos (by rw [h])]
  · rw [if_neg h, if_neg (by omega)]
    by_cases h' : j + 1 = win
    · rw [if_pos h', if_pos (by omega)]
    · rw [if_neg h', if_neg (by omega)]

/-- The registers of the bus address after a window was set, up to the window's own. -/
theorem setOutboundWin_lo (hwin : win < 4) {j : ℕ} (hj : j ≤ win) :
    brcmPcieSetOutboundWin common regs win physAddr pcieAddr size (pcieMemWin0Lo j) =
      if j = win then u64Lo32 pcieAddr else regs (pcieMemWin0Lo j) := by
  obtain ⟨hlo, hhi, hbl, hbh, hlh⟩ := windowOffsets win
  obtain ⟨hloj, -, -, -, -⟩ := windowOffsets j
  rw [setOutboundWin_apply hwin]
  dsimp only
  rw [if_neg (by omega), if_neg (by omega), if_neg (by omega), if_neg (by omega)]
  by_cases h : j = win
  · rw [if_pos h, if_pos (by rw [h])]
  · rw [if_neg h, if_neg (by omega)]

/-- The window that is set. -/
theorem setOutboundWin_self (hwin : win < 4) (hpcie : pcieAddr.toNat < 2 ^ 32) :
    outboundWindow (brcmPcieSetOutboundWin common regs win physAddr pcieAddr size) win =
      { pcieAddr := pcieAddr.toNat
        baseMb := physAddr.toNat / sz1M % 2 ^ 20
        limitMb := (physAddr + size - 1).toNat / sz1M % 2 ^ 20 } := by
  unfold outboundWindow
  rw [setOutboundWin_limitHi hwin hwin, setOutboundWin_baseHi hwin hwin,
    setOutboundWin_baseLimit hwin hwin, setOutboundWin_hi hwin hwin, setOutboundWin_lo hwin le_rfl,
    if_pos rfl, if_pos rfl, if_pos rfl, if_pos rfl, if_pos rfl]
  have hhigh : ((pcieAddr >>> 32).setWidth 32).toNat = 0 := by
    rw [BitVec.toNat_setWidth, BitVec.toNat_ushiftRight, Nat.shiftRight_eq_div_pow]
    omega
  have hlow : (u64Lo32 pcieAddr).toNat = pcieAddr.toNat := by
    unfold u64Lo32
    rw [BitVec.toNat_setWidth, Nat.mod_eq_of_lt hpcie]
  ext
  · show _ * 2 ^ 32 + _ = pcieAddr.toNat
    rw [hhigh, hlow]
    omega
  · show _ * 2 ^ 12 + _ = _
    rw [extract_insert (n := 8) (by decide), extract_insert_of_disjoint (s := 20) (n := 12)
      (by decide) (by decide) (by decide), extract_insert (n := 12) (by decide), mb_fields, toNat_mb]
  · show _ * 2 ^ 12 + _ = _
    rw [extract_insert (n := 8) (by decide), extract_insert (n := 12) (by decide), mb_fields,
      toNat_mb]

/-- An earlier window: its fields stay, but the next window's lower address word is its upper one. -/
theorem setOutboundWin_earlier (hwin : win < 4) {j : ℕ} (hj : j < win) :
    outboundWindow (brcmPcieSetOutboundWin common regs win physAddr pcieAddr size) j =
      { outboundWindow regs j with
        pcieAddr :=
          (if j + 1 = win then u64Lo32 pcieAddr else regs (pcieMemWin0Hi j)).toNat * 2 ^ 32
            + (regs (pcieMemWin0Lo j)).toNat } := by
  have hne : j ≠ win := by omega
  have hj4 : j < 4 := by omega
  unfold outboundWindow
  rw [setOutboundWin_limitHi hwin hj4, setOutboundWin_baseHi hwin hj4,
    setOutboundWin_baseLimit hwin hj4, setOutboundWin_hi hwin hj4, setOutboundWin_lo hwin hj.le,
    if_neg hne, if_neg hne, if_neg hne, if_neg hne, if_neg hne]

end Window

/-! ## The loop -/

section Loop

variable {common : Emu68Common} {regs regs' : RcRegisters} {mems regions : List PciRegion}

/-- A region of memory is one of the memory regions. -/
theorem memRegions_cons_mem {res : PciRegion} (h : res.flags = pciRegionMem) :
    memRegions (res :: regions) = res :: memRegions regions :=
  List.filter_cons_of_pos (p := fun res : PciRegion => decide (res.flags = pciRegionMem))
    (decide_eq_true h)

/-- Any other region is not. -/
theorem memRegions_cons_other {res : PciRegion} (h : res.flags ≠ pciRegionMem) :
    memRegions (res :: regions) = memRegions regions :=
  List.filter_cons_of_neg (by rw [decide_eq_true_iff]; exact h)

/-- Without regions no window is asked for. -/
theorem windowsFor_nil (regs : RcRegisters) : WindowsFor [] regs := by
  intro win res hres
  cases hres

/-- One more window is set. -/
theorem WindowsFor.append (h : WindowsFor mems regs) (hlen : mems.length < 4) (res : PciRegion) :
    WindowsFor (mems ++ [res])
      (brcmPcieSetOutboundWin common regs mems.length res.physStart (res.busStart.setWidth 64)
        (res.size.setWidth 64)) := by
  have hbus : (res.busStart.setWidth 64).toNat = res.busStart.toNat :=
    BitVec.toNat_setWidth_of_le (by decide)
  have hlow : u64Lo32 (res.busStart.setWidth 64) = res.busStart :=
    BitVec.setWidth_setWidth_of_le res.busStart (by decide)
  intro win r hr
  -- the registers of a window reach into those of the one before it, whose upper half changes
  obtain hearlier | hlast := Nat.lt_or_ge win mems.length
  · rw [List.getElem?_append_left hearlier] at hr
    have hold := h win r hr
    have haddr : (regs (pcieMemWin0Lo win)).toNat = r.busStart.toNat ∧
        (regs (pcieMemWin0Hi win)).toNat = ((mems[win + 1]?).map (·.busStart.toNat)).getD 0 := by
      have hsum : (regs (pcieMemWin0Hi win)).toNat * 2 ^ 32 + (regs (pcieMemWin0Lo win)).toNat
          = ((mems[win + 1]?).map (·.busStart.toNat)).getD 0 * 2 ^ 32 + r.busStart.toNat :=
        congrArg OutboundWindow.pcieAddr hold
      have hlo := (regs (pcieMemWin0Lo win)).isLt
      have hr := r.busStart.isLt
      omega
    rw [setOutboundWin_earlier hlen hearlier, hold, haddr.1]
    by_cases hnext : win + 1 = mems.length
    · rw [if_pos hnext, hlow, List.getElem?_append_right hnext.ge, hnext, Nat.sub_self]
      rfl
    · rw [if_neg hnext, haddr.2, List.getElem?_append_left (by omega)]
  · have hwin : win = mems.length := by
      have hlt := (List.getElem?_eq_some_iff.1 hr).1
      rw [List.length_append, List.length_singleton] at hlt
      omega
    obtain rfl : res = r := by
      rw [hwin, List.getElem?_append_right le_rfl, Nat.sub_self] at hr
      exact Option.some.inj hr
    rw [hwin, setOutboundWin_self hlen (by rw [hbus]; exact res.busStart.isLt), hbus,
      List.getElem?_eq_none (by rw [List.length_append]; exact le_rfl)]
    ext
    · show res.busStart.toNat = 0 * 2 ^ 32 + res.busStart.toNat
      omega
    · rfl
    · rfl

/-- **The window loop**: it succeeds if there are windows enough, and the registers are then those of
the regions it gave one. -/
theorem setOutboundWins_spec (h : WindowsFor mems regs)
    (hrun : setOutboundWins common regions mems.length regs = .ok regs') :
    WindowsFor (mems ++ memRegions regions) regs' := by
  induction regions generalizing mems regs with
  | nil =>
    obtain rfl := Except.ok.inj hrun
    rw [memRegions, List.filter_nil, List.append_nil]
    exact h
  | cons res regions ih =>
    unfold setOutboundWins at hrun
    by_cases hflags : res.flags = pciRegionMem
    · rw [if_neg (not_not.2 hflags)] at hrun
      by_cases hfull : brcmNumPcieOutWins ≤ mems.length
      · rw [if_pos hfull] at hrun
        cases hrun
      · rw [if_neg hfull] at hrun
        have hlen : (mems ++ [res]).length = mems.length + 1 := by
          rw [List.length_append, List.length_singleton]
        have hnext := ih (h.append (Nat.lt_of_not_le hfull) res) (by rw [hlen]; exact hrun)
        rw [memRegions_cons_mem hflags]
        rwa [List.append_assoc, List.singleton_append] at hnext
    · rw [if_pos hflags] at hrun
      rw [memRegions_cons_other hflags]
      exact ih h hrun

/-- The loop succeeds if and only if there are no more regions than windows. -/
theorem setOutboundWins_ok_iff (n : ℕ) (hn : n ≤ 4) :
    (∃ regs', setOutboundWins common regions n regs = .ok regs') ↔
      n + (memRegions regions).length ≤ 4 := by
  induction regions generalizing n regs with
  | nil => exact iff_of_true ⟨regs, rfl⟩ (by simpa [memRegions] using hn)
  | cons res regions ih =>
    unfold setOutboundWins
    by_cases hflags : res.flags = pciRegionMem
    · rw [if_neg (not_not.2 hflags), memRegions_cons_mem hflags, List.length_cons]
      by_cases hfull : brcmNumPcieOutWins ≤ n
      · rw [if_pos hfull]
        have hfour : 4 ≤ n := hfull
        exact iff_of_false (fun ⟨_, hok⟩ => nomatch hok) (by omega)
      · have hless : n + 1 ≤ 4 := Nat.lt_of_not_le hfull
        rw [if_neg hfull, ih (n + 1) hless]
        omega
    · rw [if_pos hflags, memRegions_cons_other hflags]
      exact ih n hn

end Loop

/-! ## When the windows keep what they were given -/

/-- A region in whole MiB of the CPU addresses that the registers have room for. -/
structure MbAligned (res : PciRegion) : Prop where
  start : 2 ^ 20 ∣ res.physStart.toNat
  size : 2 ^ 20 ∣ res.size.toNat
  pos : 0 < res.size.toNat
  fits : res.physStart.toNat + res.size.toNat ≤ 2 ^ 40

instance (res : PciRegion) : Decidable (MbAligned res) :=
  decidable_of_iff ((2 ^ 20 ∣ res.physStart.toNat ∧ 2 ^ 20 ∣ res.size.toNat) ∧
      0 < res.size.toNat ∧ res.physStart.toNat + res.size.toNat ≤ 2 ^ 40)
    ⟨fun h => ⟨h.1.1, h.1.2, h.2.1, h.2.2⟩, fun h => ⟨⟨h.start, h.size⟩, h.pos, h.fits⟩⟩

/-- Every window says the bus address of its region and the first and last CPU address. -/
def WindowsKept (mems : List PciRegion) (regs : RcRegisters) : Prop :=
  ∀ win res, mems[win]? = some res →
    (outboundWindow regs win).pcieAddr = res.busStart.toNat ∧
      (outboundWindow regs win).baseMb * 2 ^ 20 = res.physStart.toNat ∧
      (outboundWindow regs win).limitMb * 2 ^ 20 + (2 ^ 20 - 1)
        = res.physStart.toNat + res.size.toNat - 1

/-- The base of an aligned region is so many megabytes. -/
theorem MbAligned.baseMb {res : PciRegion} (h : MbAligned res) :
    res.baseMb * 2 ^ 20 = res.physStart.toNat := by
  obtain ⟨n, hn⟩ := h.start
  have hfits := h.fits
  have hpos := h.pos
  unfold PciRegion.baseMb
  simp only [sz1M]
  omega

/-- The limit of an aligned region is the last byte of so many. -/
theorem MbAligned.limitMb {res : PciRegion} (h : MbAligned res) :
    res.limitMb * 2 ^ 20 + (2 ^ 20 - 1) = res.physStart.toNat + res.size.toNat - 1 := by
  obtain ⟨n, hn⟩ := h.start
  obtain ⟨m, hm⟩ := h.size
  have hfits := h.fits
  have hpos := h.pos
  have hwide : (res.size.setWidth 64).toNat = res.size.toNat :=
    BitVec.toNat_setWidth_of_le (by decide)
  have hone : (1 : BitVec 64).toNat = 1 := rfl
  have hlast : (res.physStart + res.size.setWidth 64 - 1).toNat
      = res.physStart.toNat + res.size.toNat - 1 := by
    rw [BitVec.toNat_sub, BitVec.toNat_add, hwide, hone]
    omega
  unfold PciRegion.limitMb
  rw [hlast]
  simp only [sz1M]
  omega

/-- **When the windows keep what they were given**: if and only if every region but the first is at
bus address 0. -/
theorem windowsKept_iff (common : Emu68Common) (regions : List PciRegion) (regs : RcRegisters)
    (hcount : (memRegions regions).length ≤ 4)
    (haligned : ∀ res ∈ memRegions regions, MbAligned res) :
    ∃ regs', setOutboundWins common regions 0 regs = .ok regs' ∧
      (WindowsKept (memRegions regions) regs' ↔
        ∀ res ∈ (memRegions regions).tail, res.busStart = 0) := by
  have hfit : 0 + (memRegions regions).length ≤ 4 := by omega
  have hok : ∃ regs', setOutboundWins common regions 0 regs = .ok regs' :=
    (setOutboundWins_ok_iff 0 (by decide)).2 hfit
  obtain ⟨regs', hrun⟩ := hok
  have hwindows := setOutboundWins_spec (windowsFor_nil regs) hrun
  rw [List.nil_append] at hwindows
  refine ⟨regs', hrun, ?_⟩
  generalize memRegions regions = mems at hcount haligned hwindows
  constructor
  · intro hkept res hres
    obtain ⟨i, hi⟩ := List.mem_iff_getElem?.1 hres
    rw [List.getElem?_tail] at hi
    -- the window in front of it has its bus address in the upper word
    have hlt := (List.getElem?_eq_some_iff.1 hi).1
    have hfront : mems[i]? = some mems[i] := List.getElem?_eq_getElem (by omega)
    have haddr := (hkept i mems[i] hfront).1
    rw [hwindows i mems[i] hfront, hi] at haddr
    have hzero : res.busStart.toNat * 2 ^ 32 + mems[i].busStart.toNat = mems[i].busStart.toNat :=
      haddr
    apply BitVec.eq_of_toNat_eq
    show res.busStart.toNat = 0
    omega
  · intro hzero win res hres
    have hmem : res ∈ mems := List.mem_of_getElem? hres
    have hnext : ((mems[win + 1]?).map (·.busStart.toNat)).getD 0 = 0 := by
      cases hget : mems[win + 1]? with
      | none => rfl
      | some res' =>
        have htail : res' ∈ mems.tail :=
          List.mem_of_getElem? (i := win) (by rw [List.getElem?_tail]; exact hget)
        show res'.busStart.toNat = 0
        rw [hzero res' htail]
        rfl
    rw [hwindows win res hres]
    refine ⟨?_, (haligned res hmem).baseMb, (haligned res hmem).limitMb⟩
    show _ * 2 ^ 32 + res.busStart.toNat = res.busStart.toNat
    rw [hnext]
    omega

/-- Two regions of 256 MiB, in the bus addresses and behind 24 GiB of the CPU's. -/
def twoRegions : List PciRegion :=
  [{ busStart := 0xc0000000, physStart := 0x600000000, size := 0x10000000, flags := 0 },
    { busStart := 0xe0000000, physStart := 0x620000000, size := 0x10000000, flags := 0 }]

/-- With one region, its window keeps what it was given. -/
theorem windowsKept_one :
    (memRegions (twoRegions.take 1)).length ≤ 4 ∧
      ∃ regs', setOutboundWins .plain (twoRegions.take 1) 0 (fun _ => 0xffffffff#32) = .ok regs' ∧
        WindowsKept (memRegions (twoRegions.take 1)) regs' := by
  obtain ⟨regs', hrun, hkept⟩ := windowsKept_iff .plain (twoRegions.take 1)
    (fun _ => 0xffffffff#32) (by decide) (by decide)
  exact ⟨by decide, regs', hrun, hkept.2 (by decide)⟩

/-- With two, the second one's bus address becomes the upper word of the first one's. -/
theorem windowsKept_fails : ¬ ∀ (common : Emu68Common) (regions : List PciRegion)
    (regs : RcRegisters), (memRegions regions).length ≤ 4 →
      (∀ res ∈ memRegions regions, MbAligned res) →
      ∃ regs', setOutboundWins common regions 0 regs = .ok regs' ∧
        WindowsKept (memRegions regions) regs' := by
  intro hall
  obtain ⟨regs', hrun, hkept⟩ := hall .plain twoRegions (fun _ => 0) (by decide) (by decide)
  have haddr : (setOutboundWins .plain twoRegions 0 fun _ => 0).map
      (fun regs => (outboundWindow regs 0).pcieAddr) = .ok 0xe0000000c0000000 := by
    decide +kernel
  rw [hrun] at haddr
  have hfirst := (hkept 0 _ (List.getElem?_eq_getElem (by decide))).1
  have hupper : (outboundWindow regs' 0).pcieAddr = 0xe0000000c0000000 := Except.ok.inj haddr
  rw [hupper] at hfirst
  revert hfirst
  decide

end BcmPcie
