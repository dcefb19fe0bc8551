import Mathlib.Data.Nat.Log
import BcmPcie.Brcmstb.ProbeFrame
import BcmPcie.Memory.Translation

/-! # Memory from the bus

A device reaches memory through the inbound window, at the addresses `pci_phys_to_bus` gives for the
Fast RAM in the region table. The window starts at CPU address 0 and takes its size from a record of
`dma-ranges` that may start elsewhere; the table is searched from the front, and the windows of the
CPU onto the bus come first.

* `DmaPromise` — every byte of Fast RAM is where the inbound window shows it.
* `final_brcmPcieProbe` — the window and the table that are left by the probe.
* `dmaPromise_iff` — when the promise is kept. -/

namespace BcmPcie

open Computations Windows

variable {σ : Type}

/-! ## The setting -/

/-- Every byte of Fast RAM in the region table has a bus address at which the inbound window shows
it. -/
def DmaPromise (st : RcState σ) (len : BitVec 64) (mask flags : BitVec 32) : Prop :=
  ∀ res ∈ st.pcie.regions, res.IsSysMemory → ∀ p : BitVec 64, res.cpuWindow.Decodes p.toNat →
    (inboundWindow st.regs).translate (pciPhysToBus st.pcie p len mask flags).toNat = some p.toNat

/-- The bytes of the inbound window for a record of so many: a power of two, and nothing below 4 KiB. -/
def inboundSize (size : ℕ) : ℕ := if 2048 < size then 2 ^ Nat.clog 2 size else 0

/-- Fast RAM ends inside the inbound window, and the first region that holds a byte of it is at the
CPU's addresses. -/
def DmaCond (region : PciRegion) (regions : List PciRegion) (mask flags : BitVec 32) : Prop :=
  ∀ res ∈ regions, res.IsSysMemory →
    res.physStart.toNat + res.size.toNat ≤ inboundSize region.size.toNat ∧
    ∀ p : BitVec 64, res.cpuWindow.Decodes p.toNat → ∀ res',
      (regions.find? fun r => decide (r.flags &&& mask = flags ∧ r.cpuWindow.Decodes p.toNat)) = some res' →
      res'.busStart = res'.physStart.setWidth 32

/-! ## What the probe leaves -/

/-- The two registers of the inbound window. -/
def rcBar2 (regs : RcRegisters) : BitVec 32 × BitVec 32 :=
  (regs pcieMiscRcBar2ConfigLo, regs pcieMiscRcBar2ConfigHi)

/-- What counts of a state here: the inbound window and the region table. -/
def dmaView (st : RcState σ) : (BitVec 32 × BitVec 32) × List PciRegion :=
  (rcBar2 st.regs, st.pcie.regions)

section Registers

variable {regs regs' : RcRegisters}

/-- The inbound window is that of the register alone. -/
theorem inboundWindow_congr (h : rcBar2 regs = rcBar2 regs') :
    inboundWindow regs = inboundWindow regs' := by
  obtain ⟨hlo, hhi⟩ := Prod.mk.inj h
  unfold inboundWindow
  rw [hlo, hhi]

/-- Other registers than its own two do not change the inbound window. -/
theorem rcBar2_of_onlyAt {offsets : List ℕ} (h : OnlyAt offsets regs regs')
    (hlo : pcieMiscRcBar2ConfigLo ∉ offsets) (hhi : pcieMiscRcBar2ConfigHi ∉ offsets) :
    rcBar2 regs' = rcBar2 regs := by
  unfold rcBar2
  rw [h _ hlo, h _ hhi]

end Registers

/-- **What the probe leaves**, however it ends, once the region table is set up. -/
theorem final_brcmPcieProbe [Gic400 σ] {plat : Platform} {s : RcState σ} {region : PciRegion}
    {regions : List PciRegion} (busNumberBase : ℕ)
    (h : Accepted plat s.memory.available region regions) :
    ∃ regs, dmaView (final (brcmPcieProbe plat busNumberBase) s)
      = (rcBar2 (setRcBar2 plat.common regs region), regions) := by
  obtain ⟨node, -, hregs, hpcie⟩ := brcmPcieProbe_frame busNumberBase h
  refine ⟨startBridge s.regs, Prod.ext ?_ ?_⟩
  · exact rcBar2_of_onlyAt hregs (by decide) (by decide)
  · exact congrArg PciController.regions hpcie

/-- The inbound window of an accepted device tree starts at bus address 0. -/
theorem inboundWindow_of_rcBar2 {common : Emu68Common} {node : DtNode} {region : PciRegion}
    {regs regs' : RcRegisters} (hwin : brcmPcieDmaWindow common node = .ok region)
    (h : rcBar2 regs' = rcBar2 (setRcBar2 common regs region)) :
    inboundWindow regs' = ⟨0, 0, inboundSize region.size.toNat⟩ := by
  obtain ⟨hpos, -, hbus⟩ := brcmPcieDmaWindow_ok hwin
  rw [inboundWindow_congr h, inboundWindow_setRcBar2 hbus hpos
    (Nat.le_pow_clog (by decide) _) fun m hm => Nat.pow_lt_of_lt_clog hm]
  unfold inboundSize
  congr 1
  exact if_congr (Nat.lt_clog_iff_pow_lt (by decide)) rfl rfl

/-! ## The promise -/

/-- A call for one byte at most: the first region of its kind that holds the byte, if any. -/
theorem pciPhysToBus_eq {pcie : PciController σ} {p len : BitVec 64} {mask flags : BitVec 32}
    (hlen : len.toNat ≤ 1) (hne : pcie.regions ≠ []) :
    pciPhysToBus pcie p len mask flags =
      ((pcie.regions.find? fun r => decide (r.flags &&& mask = flags ∧ r.cpuWindow.Decodes p.toNat)).map
        fun r => (r.busStart.setWidth 64 + (p - r.physStart)).setWidth 32).getD 0 := by
  have hcount : ¬ pcie.regions.length = 0 := fun hzero => hne (List.length_eq_zero_iff.1 hzero)
  unfold pciPhysToBus
  rw [if_neg hcount]
  dsimp only
  rw [find?_congr (Q := fun r => r.flags &&& mask = flags ∧ r.cpuWindow.Decodes p.toNat)]
  · cases pcie.regions.find? fun r =>
      decide (r.flags &&& mask = flags ∧ r.cpuWindow.Decodes p.toNat) <;> rfl
  · intro r _
    have hp := p.isLt
    have hsize := r.size.isLt
    have hstart := r.physStart.isLt
    have hwide : (r.size.setWidth 64).toNat = r.size.toNat := BitVec.toNat_setWidth_of_le (by decide)
    refine and_congr_right fun _ => ?_
    unfold Window.Decodes PciRegion.cpuWindow PciRegion.busWindow Window.reverse
    rw [BitVec.lt_def, BitVec.le_def, BitVec.lt_def]
    simp only [BitVec.toNat_sub, hwide]
    omega

/-- The bus address of a byte below 4 GiB, through a region that holds it, is the byte's own if and only
if the region is at the CPU's addresses. -/
theorem physBus_eq_self {r : PciRegion} {p : BitVec 64} (hp : p.toNat < 2 ^ 32) :
    ((r.busStart.setWidth 64 + (p - r.physStart)).setWidth 32).toNat = p.toNat ↔
      r.busStart = r.physStart.setWidth 32 := by
  have hbus := r.busStart.isLt
  have hwide : (r.busStart.setWidth 64).toNat = r.busStart.toNat :=
    BitVec.toNat_setWidth_of_le (by decide)
  rw [← BitVec.toNat_inj, BitVec.toNat_setWidth, BitVec.toNat_setWidth, BitVec.toNat_add,
    BitVec.toNat_sub, hwide]
  omega

/-- The promise for one byte of Fast RAM, in a window from 0 on. -/
theorem translate_physBus {pcie : PciController σ} {r : PciRegion} {p len : BitVec 64}
    {mask flags : BitVec 32} {size : ℕ} (hlen : len.toNat ≤ 1) (hp : p.toNat < 2 ^ 32)
    (hfind : (pcie.regions.find? fun r =>
      decide (r.flags &&& mask = flags ∧ r.cpuWindow.Decodes p.toNat)) = some r) :
    (⟨0, 0, size⟩ : Window).translate (pciPhysToBus pcie p len mask flags).toNat = some p.toNat ↔
      p.toNat < size ∧ r.busStart = r.physStart.setWidth 32 := by
  have hne : pcie.regions ≠ [] := List.ne_nil_of_mem (of_find?_eq_some hfind).1
  rw [pciPhysToBus_eq hlen hne, hfind, Window.translate_eq_some, ← physBus_eq_self hp]
  simp only [Option.map_some, Option.getD_some, Window.Decodes]
  omega

/-- **When the promise is kept.** -/
theorem dmaPromise_iff [Gic400 σ] {plat : Platform} {s : RcState σ} {region : PciRegion}
    {regions : List PciRegion} (busNumberBase : ℕ) {len : BitVec 64} {mask flags : BitVec 32}
    (h : Accepted plat s.memory.available region regions) (hlen : len.toNat ≤ 1)
    (hkind : (pciRegionMem ||| pciRegionSysMemory) &&& mask = flags) :
    DmaPromise (final (brcmPcieProbe plat busNumberBase) s) len mask flags
      ↔ DmaCond region regions mask flags := by
  obtain ⟨regs, hview⟩ := final_brcmPcieProbe busNumberBase h
  generalize final (brcmPcieProbe plat busNumberBase) s = st at hview
  obtain ⟨node, -, -, hwin, hregs⟩ := h
  obtain ⟨hrc, hregions⟩ := Prod.mk.inj hview
  have hwindow := inboundWindow_of_rcBar2 hwin hrc
  have htable : devtreeRegions plat.common node.toDtNode plat.memList s.memory.available
      = .ok regions := by
    unfold devtreeRegions
    rw [hwin]
    exact hregs
  -- a byte of Fast RAM is below 2 GiB, and some region of its kind holds it
  have hbyte : ∀ res ∈ regions, res.IsSysMemory → ∀ p : BitVec 64, res.cpuWindow.Decodes p.toNat →
      p.toNat < 2 ^ 32 ∧ ∃ r, (regions.find? fun r =>
        decide (r.flags &&& mask = flags ∧ r.cpuWindow.Decodes p.toNat)) = some r := by
    intro res hmem hsys p hp
    obtain ⟨-, -, hend⟩ := sysMemory_of_mem htable res hmem hsys
    have hhigh : p.toNat < res.physStart.toNat + res.size.toNat := hp.2
    refine ⟨by omega, Option.ne_none_iff_exists'.1 fun hnone => ?_⟩
    exact find?_eq_none_iff.1 hnone res hmem ⟨by rw [hsys]; exact hkind, hp⟩
  unfold DmaPromise DmaCond
  rw [hwindow, hregions]
  refine forall₃_congr fun res hmem hsys => ?_
  constructor
  · intro hpromise
    have hboth : ∀ p : BitVec 64, res.cpuWindow.Decodes p.toNat → ∀ r, (regions.find? fun r =>
        decide (r.flags &&& mask = flags ∧ r.cpuWindow.Decodes p.toNat)) = some r →
        p.toNat < inboundSize region.size.toNat ∧ r.busStart = r.physStart.setWidth 32 := by
      intro p hp r hr
      rw [← hregions] at hr
      exact (translate_physBus hlen (hbyte res hmem hsys p hp).1 hr).1 (hpromise p hp)
    refine ⟨?_, fun p hp r hr => (hboth p hp r hr).2⟩
    -- the last byte is inside the window
    obtain ⟨hsize, -, hend⟩ := sysMemory_of_mem htable res hmem hsys
    have hlast : (BitVec.ofNat 64 (res.physStart.toNat + res.size.toNat - 1)).toNat
        = res.physStart.toNat + res.size.toNat - 1 := by
      rw [BitVec.toNat_ofNat, Nat.mod_eq_of_lt (by omega)]
    have hdecodes : res.cpuWindow.Decodes
        (BitVec.ofNat 64 (res.physStart.toNat + res.size.toNat - 1)).toNat := by
      rw [hlast]
      show res.physStart.toNat ≤ _ ∧ _ < res.physStart.toNat + res.size.toNat
      omega
    obtain ⟨-, r, hr⟩ := hbyte res hmem hsys _ hdecodes
    have hlt := (hboth _ hdecodes r hr).1
    rw [hlast] at hlt
    omega
  · rintro ⟨hfits, hsame⟩ p hp
    obtain ⟨hlow, r, hr⟩ := hbyte res hmem hsys p hp
    have hhigh : p.toNat < res.physStart.toNat + res.size.toNat := hp.2
    have hr' := hr
    rw [← hregions] at hr'
    exact (translate_physBus hlen hlow hr').2 ⟨by omega, hsame p hp r hr⟩

/-- A controller with 1 GiB of PCI memory behind 24 GiB of the CPU's, whose devices may reach `size`
bytes of memory from `cpu` on; there are 256 MiB of Fast RAM at `ram`. -/
def samplePlatform (cpu size ram : BitVec 32) : Platform where
  common := .plain
  node := .ok
    { addressCells := some 3
      sizeCells := some 2
      ranges := some [0x02000000, 0, 0xc0000000, 6, 0, 0, 0x40000000]
      dmaRanges := some [0x02000000, 4, 0, 0, cpu, 0, size]
      msiIrq := 180
      base := 0xfd500000
      mmioPhys := some [6, 0]
      mmioVirt := some 0x80000000 }
  memList := [⟨memfFast, ram, ram + 0x10000000⟩]
  answers := ⟨fun _ => 0xb0, fun _ => 0x80000000, 0x0304⟩
  demuxIsr := ⟨0x1000⟩

/-- The record and the table of that controller. -/
def sampleRegion (cpu size : BitVec 32) : PciRegion :=
  { physStart := cpu.setWidth 64, busStart := cpu, size := size, flags := 0 }

def sampleRegions (ram : BitVec 32) : List PciRegion :=
  [{ busStart := 0xc0000000, physStart := 0x600000000, size := 0x40000000, flags := pciRegionMem },
    { busStart := ram, physStart := ram.setWidth 64, size := 0x10000000,
      flags := pciRegionMem ||| pciRegionSysMemory }]

/-- Before the probe. -/
def sampleRc : RcState GicTable where
  pcie := { msi := ⟨0, fun _ => none, 0⟩, intr2 := ⟨0, 0⟩, gic400 := [] }
  regs := fun _ => 0

/-- Memory from CPU address 0 on. -/
theorem dmaPromise_low :
    DmaPromise (final (brcmPcieProbe (samplePlatform 0 0x40000000 0x08000000) 0) sampleRc) 1 0 0 := by
  have haccepted : Accepted (samplePlatform 0 0x40000000 0x08000000) true
      (sampleRegion 0 0x40000000) (sampleRegions 0x08000000) :=
    ⟨_, rfl, by decide, rfl, rfl⟩
  refine (dmaPromise_iff 0 haccepted (by decide) (by decide)).2 fun res hmem hsys => ?_
  -- the Fast RAM is the second region, and the first is not below 4 GiB
  rcases List.mem_cons.1 hmem with rfl | hmem
  · exact absurd hsys (by decide)
  · rcases List.mem_singleton.1 hmem with rfl
    refine ⟨by decide +kernel, fun p hp r hr => ?_⟩
    obtain ⟨hr, -, hdecodes⟩ := of_find?_eq_some hr
    rcases List.mem_cons.1 hr with rfl | hr
    · have hlow : 0x600000000 ≤ p.toNat := hdecodes.1
      have hhigh : p.toNat < 0x18000000 := hp.2
      omega
    · rcases List.mem_singleton.1 hr with rfl
      decide

/-- Memory from 1 GiB on: the window ends where it starts. -/
theorem dmaPromise_fails :
    ¬ ∀ (plat : Platform) (s : RcState GicTable) (region : PciRegion) (regions : List PciRegion),
      Accepted plat s.memory.available region regions → DmaPromise (final (brcmPcieProbe plat 0) s) 1 0 0 := by
  intro hall
  have haccepted : Accepted (samplePlatform 0x40000000 0x40000000 0x40000000) true
      (sampleRegion 0x40000000 0x40000000) (sampleRegions 0x40000000) :=
    ⟨_, rfl, by decide, rfl, rfl⟩
  have hpromise := hall _ sampleRc _ _ haccepted
    { busStart := 0x40000000, physStart := 0x40000000, size := 0x10000000,
      flags := pciRegionMem ||| pciRegionSysMemory }
    (by decide +kernel) (by decide) 0x40000000 (by decide)
  exact absurd hpromise (by decide +kernel)

end BcmPcie
