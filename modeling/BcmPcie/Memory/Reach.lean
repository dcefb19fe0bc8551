import BcmPcie.Enumeration.BarAddresses
import BcmPcie.Memory.AddressMap

/-! # BARs from the CPU

A driver reaches a BAR through the aperture of the 68k onto the CPU's addresses, and from there through
an outbound window onto the bus. The region a BAR is placed in, the region its address is translated
through and the regions that get a window are picked by three tests of the same flags.

* `Reached` — every byte of a BAR is reached.
* `translate_outboundWindow` — what a window shows, in terms of its region.
* `reached_iff` — when a BAR is reached.
* `reached_of_probe` — after a probe and a scan. -/

namespace BcmPcie

open Computations Windows

variable {σ : Type}

/-! ## From the 68k to the bus -/

/-- The CPU address of an address of the 68k inside the aperture. -/
def aperture (pcie : PciController σ) (addr : BitVec 32) : Option ℕ :=
  let offset := (addr - pcie.mmioWindowVirtual).toNat
  if offset < pcie.mmioWindowSize.toNat then some (pcie.mmioWindowPhys.toNat + offset) else none

/-- An outbound window, from the CPU to the bus. -/
def OutboundWindow.window (w : OutboundWindow) : Window :=
  ⟨w.baseMb * 2 ^ 20, w.pcieAddr, (w.limitMb + 1 - w.baseMb) * 2 ^ 20⟩

/-- Every byte of a BAR is reached: through the aperture at the CPU address that is kept for it, and from
there through one of the windows that are set at its bus address. -/
def Reached (rc : RcState σ) (bar : PciBarInfo) : Prop :=
  ∀ o < bar.size.toNat,
    aperture rc.pcie (bar.pointer + BitVec.ofNat 32 o) = some (bar.physAddr.toNat + o) ∧
      ∃ win < (memRegions rc.pcie.regions).length,
        (outboundWindow rc.regs win).window.translate (bar.physAddr.toNat + o)
          = some (bar.busAddr.toNat + o)

/-! ## The condition -/

namespace PciRegion

variable (res : PciRegion)

/-- From the CPU to the bus, in the whole MiB that the registers of a window can say. -/
def mbWindow : Window :=
  ⟨res.baseMb * 2 ^ 20, res.busStart.toNat, (res.limitMb + 1 - res.baseMb) * 2 ^ 20⟩

/-- The region holds the `len` bytes at a bus address. -/
def Holds (busAddr : BitVec 32) (len : ℕ) : Prop :=
  res.busStart.toNat ≤ busAddr.toNat ∧
    busAddr.toNat + len ≤ res.busStart.toNat + res.size.toNat

instance (busAddr : BitVec 32) (len : ℕ) : Decidable (res.Holds busAddr len) :=
  inferInstanceAs (Decidable (_ ∧ _))

/-- The CPU address of a bus address that the region holds. -/
def cpuAddr (busAddr : BitVec 32) : ℕ := res.physStart.toNat + (busAddr.toNat - res.busStart.toNat)

end PciRegion

/-- The first region of memory, prefetchable or not and Fast RAM included, that holds a BAR. -/
def homeRegion (regions : List PciRegion) (busAddr : BitVec 32) (len : ℕ) : Option PciRegion :=
  regions.find? fun res =>
    decide (res.flags &&& pciRegionType = pciRegionMem ∧ res.Holds busAddr len)

/-- The window of the `win`-th non-prefetchable region is whole: the next one is at bus address 0, if
there is one. -/
def WholeWindow (mems : List PciRegion) (win : ℕ) (res : PciRegion) : Prop :=
  mems[win]? = some res ∧ ∀ next, mems[win + 1]? = some next → next.busStart = 0

/-- The BAR ends before the last address of the CPU, and at each of its bytes some whole window shows the
CPU address, which is that of the region that holds the BAR, at the bus address. -/
def ReachCond (regions : List PciRegion) (busAddr : BitVec 32) (size : ℕ) : Prop :=
  ∀ o < size, ∃ home, homeRegion regions busAddr size = some home ∧
    home.cpuAddr busAddr + size < 2 ^ 64 ∧
    ∃ win res, WholeWindow (memRegions regions) win res ∧
      res.mbWindow.translate (home.cpuAddr busAddr + o) = some (busAddr.toNat + o)

/-- The region that holds the BAR has a window, which is whole, and starts at a MiB. -/
structure ServedHome (regions : List PciRegion) (home : PciRegion) : Prop where
  whole : ∃ win, WholeWindow (memRegions regions) win home
  start : 2 ^ 20 ∣ home.physStart.toNat
  fits : home.physStart.toNat + home.size.toNat ≤ 2 ^ 40

/-- The regions BARs are taken from have such windows, and no other region of memory shares their
addresses of the bus. -/
structure ServedTable (regions : List PciRegion) (pcie : PciController σ)
    (functions : Forest HwFunction) : Prop where
  exact : ∀ k, k ≠ .io → RoomExactAlong k pcie functions
  served : ∀ k, k ≠ .io → ∀ res ∈ pcie.select.chosen k, ServedHome regions res
  alone : ∀ k, k ≠ .io → ∀ res ∈ pcie.select.chosen k, ∀ other ∈ regions,
    other.flags &&& pciRegionType = pciRegionMem → other = res ∨ other.Disjoint res

/-! ## Translation -/

/-- `pci_bus_to_phys` of a BAR goes through the region that holds it. -/
theorem pciBusToPhys_home {pcie : PciController σ} (hne : pcie.regions ≠ []) {busAddr : BitVec 32}
    {len : BitVec 64} (hlen : 0 < len.toNat) :
    pciBusToPhys pcie busAddr len pciRegionType pciRegionMem
      = ((homeRegion pcie.regions busAddr len.toNat).map fun res =>
          res.physStart + (busAddr - res.busStart).setWidth 64).getD 0 := by
  have hcount : ¬ pcie.regions.length = 0 := fun hzero => hne (List.length_eq_zero_iff.1 hzero)
  unfold pciBusToPhys homeRegion
  rw [if_neg hcount]
  dsimp only
  rw [find?_congr (Q := fun res => res.flags &&& pciRegionType = pciRegionMem ∧
    res.Holds busAddr len.toNat)]
  · cases pcie.regions.find? fun res =>
      decide (res.flags &&& pciRegionType = pciRegionMem ∧ res.Holds busAddr len.toNat) <;> rfl
  · intro res _
    have hbus := busAddr.isLt
    have hsize := res.size.isLt
    refine and_congr_right fun _ => ?_
    unfold PciRegion.Holds
    rw [BitVec.lt_def, BitVec.le_def, BitVec.lt_def, BitVec.toNat_setWidth]
    simp only [BitVec.toNat_sub]
    omega

/-- The CPU address of a BAR, as a number. -/
theorem toNat_cpuAddr {res : PciRegion} {busAddr : BitVec 32} {len : ℕ} (h : res.Holds busAddr len)
    (hpos : 0 < len) (hfits : res.physStart.toNat + res.size.toNat ≤ 2 ^ 64) :
    (res.physStart + (busAddr - res.busStart).setWidth 64).toNat = res.cpuAddr busAddr := by
  obtain ⟨hlow, hhigh⟩ := h
  have hoff : (busAddr - res.busStart).toNat = busAddr.toNat - res.busStart.toNat :=
    BitVec.toNat_sub_of_le hlow
  have hlt := busAddr.isLt
  unfold PciRegion.cpuAddr
  rw [BitVec.toNat_add, BitVec.toNat_setWidth, hoff]
  omega

/-- What a window shows below 4 GiB of the bus: what its region would, if the window is whole. -/
theorem translate_outboundWindow {mems : List PciRegion} {regs : RcRegisters} {win a b : ℕ}
    {res : PciRegion} (hwindows : WindowsFor mems regs) (hres : mems[win]? = some res)
    (hb : b < 2 ^ 32) :
    (outboundWindow regs win).window.translate a = some b ↔
      WholeWindow mems win res ∧ res.mbWindow.translate a = some b := by
  rw [hwindows win res hres, Window.translate_eq_some, Window.translate_eq_some]
  unfold WholeWindow OutboundWindow.window PciRegion.mbWindow Window.Decodes
  dsimp only
  cases hnext : mems[win + 1]? with
  | none =>
    simp only [Option.map_none, Option.getD_none, Nat.zero_mul, Nat.zero_add]
    exact ⟨fun h => ⟨⟨hres, fun next hsome => nomatch hsome⟩, h⟩, fun h => h.2⟩
  | some next =>
    simp only [Option.map_some, Option.getD_some]
    constructor
    · rintro ⟨hdecodes, hsum⟩
      -- an upper word other than 0 is 4 GiB or more
      have hzero : next.busStart.toNat = 0 := by omega
      refine ⟨⟨hres, fun next' hsome => ?_⟩, hdecodes, by omega⟩
      obtain rfl := Option.some.inj hsome
      exact BitVec.eq_of_toNat_eq hzero
    · rintro ⟨⟨-, hwhole⟩, hdecodes, hsum⟩
      have hzero : next.busStart.toNat = 0 := by rw [hwhole next rfl]; rfl
      exact ⟨hdecodes, by omega⟩

/-! ## The aperture -/

/-- What a BAR with an address of the 68k has passed: its CPU address lies in the aperture, and so does
its end, unless that is the end of the CPU's addresses. -/
structure InAperture (pcie : PciController σ) (bar : PciBarInfo) : Prop where
  low : pcie.mmioWindowPhys.toNat ≤ bar.physAddr.toNat
  high : bar.physAddr.toNat < pcie.mmioWindowPhys.toNat + pcie.mmioWindowSize.toNat
  bound : pcie.mmioWindowPhys.toNat + pcie.mmioWindowSize.toNat < 2 ^ 64
  last : bar.physAddr.toNat + bar.size.toNat < 2 ^ 64 →
    bar.physAddr.toNat + bar.size.toNat ≤ pcie.mmioWindowPhys.toNat + pcie.mmioWindowSize.toNat
  pointer : bar.pointer
    = pcie.mmioWindowVirtual + (bar.physAddr - pcie.mmioWindowPhys).setWidth 32
  nonzero : bar.physAddr ≠ 0

/-- A BAR that is mapped lies in a region the CPU reaches. -/
theorem inAperture_of_mapped {pcie : PciController σ} {bar : PciBarInfo} (hmapped : bar.Mapped)
    (hpos : 0 < bar.size.toNat)
    (hphys : bar.physAddr = pciBusToPhys pcie bar.busAddr bar.len pciRegionType pciRegionMem)
    (hvirt : bar.virtAddr = pciBusToVirt pcie bar.busAddr bar.len pciRegionType pciRegionMem) :
    InAperture pcie bar := by
  obtain ⟨-, hpointer⟩ := hmapped
  have hlen : bar.len.toNat = bar.size.toNat := by
    unfold PciBarInfo.len
    rw [if_neg fun hzero => by rw [hzero] at hpos; exact absurd hpos (by decide)]
    exact BitVec.toNat_setWidth_of_le (by decide)
  unfold pciBusToVirt at hvirt
  dsimp only at hvirt
  rw [← hphys] at hvirt
  unfold PciBarInfo.pointer at hpointer
  -- each of the three failures of `pci_bus_to_virt` leaves a null pointer
  split at hvirt
  · rw [hvirt] at hpointer
    exact absurd rfl hpointer
  · rename_i hnonzero
    split at hvirt
    · rw [hvirt] at hpointer
      exact absurd rfl hpointer
    · rename_i hrange
      split at hvirt
      · rw [hvirt] at hpointer
        exact absurd rfl hpointer
      · rename_i hend
        rw [not_or, BitVec.lt_def, BitVec.le_def, BitVec.toNat_add] at hrange
        rw [BitVec.lt_def, BitVec.toNat_add, BitVec.toNat_add, hlen] at hend
        have hsize := pcie.mmioWindowSize.isLt
        have hstart := pcie.mmioWindowPhys.isLt
        have haddr := bar.physAddr.isLt
        refine ⟨by omega, by omega, by omega, by omega, ?_, hnonzero⟩
        unfold PciBarInfo.pointer
        rw [hvirt]
        rfl

/-- Every byte of such a BAR stands for its CPU address if and only if the BAR does not end where the
CPU's addresses do. -/
theorem aperture_iff {pcie : PciController σ} {bar : PciBarInfo} (h : InAperture pcie bar)
    (hpos : 0 < bar.size.toNat) (hsize : pcie.mmioWindowSize.toNat < 2 ^ 32) :
    (∀ o < bar.size.toNat,
        aperture pcie (bar.pointer + BitVec.ofNat 32 o) = some (bar.physAddr.toNat + o)) ↔
      bar.physAddr.toNat + bar.size.toNat < 2 ^ 64 := by
  obtain ⟨hlow, hhigh, hbound, hlast, hpointer, -⟩ := h
  have hbar := bar.size.isLt
  have hphys := bar.physAddr.isLt
  have hdistance : (bar.physAddr - pcie.mmioWindowPhys).toNat
      = bar.physAddr.toNat - pcie.mmioWindowPhys.toNat := BitVec.toNat_sub_of_le hlow
  constructor
  · intro hall
    by_contra hend
    have hfinal := hall (bar.size.toNat - 1) (by omega)
    unfold aperture at hfinal
    dsimp only at hfinal
    split at hfinal
    · have heq := Option.some.inj hfinal
      omega
    · cases hfinal
  · intro hend o ho
    have hfit := hlast hend
    -- the distance from the start of the aperture does not wrap around
    have hoffset : (bar.pointer + BitVec.ofNat 32 o - pcie.mmioWindowVirtual).toNat
        = bar.physAddr.toNat - pcie.mmioWindowPhys.toNat + o := by
      rw [hpointer, show pcie.mmioWindowVirtual
        + (bar.physAddr - pcie.mmioWindowPhys).setWidth 32 + BitVec.ofNat 32 o
          - pcie.mmioWindowVirtual
        = (bar.physAddr - pcie.mmioWindowPhys).setWidth 32 + BitVec.ofNat 32 o by
          rw [BitVec.add_assoc, BitVec.add_comm, BitVec.add_sub_cancel],
        BitVec.toNat_add, BitVec.toNat_setWidth, BitVec.toNat_ofNat, hdistance]
      omega
    unfold aperture
    dsimp only
    rw [hoffset, if_pos (by omega)]
    congr 1
    omega

/-! ## When a BAR is reached -/

/-- The length of the aperture is a number of 32 bits. -/
theorem mmioWindowSize_brcmPcieProbe [Gic400 σ] {plat : Platform} {s rc : RcState σ}
    {region : PciRegion} {regions : List PciRegion} {busNumberBase : ℕ}
    (haccepted : Accepted plat s.memory.available region regions)
    (hprobe : brcmPcieProbe plat busNumberBase s = .ok () rc) :
    rc.pcie.mmioWindowSize.toNat < 2 ^ 32 := by
  obtain ⟨node, -, -, hpcie⟩ := brcmPcieProbe_frame busNumberBase haccepted
  rw [final_of_ok hprobe] at hpcie
  have hsize : rc.pcie.mmioWindowSize = (node.mmioSize.getD sz64M).setWidth 64 :=
    congrArg PciController.mmioWindowSize hpcie
  rw [hsize, BitVec.toNat_setWidth]
  have hlt := (node.mmioSize.getD sz64M).isLt
  omega

/-- A region with a whole window from a whole MiB on serves the BARs it holds. -/
theorem reachCond_of_served {regions : List PciRegion} {busAddr : BitVec 32} {size : ℕ}
    {home : PciRegion} (hhome : homeRegion regions busAddr size = some home)
    (h : ServedHome regions home) : ReachCond regions busAddr size := by
  intro o ho
  obtain ⟨⟨win, hwhole⟩, hstart, hfits⟩ := h
  obtain ⟨-, -, hlow, hhigh⟩ := of_find?_eq_some hhome
  have hbus := busAddr.isLt
  have hsize := home.size.isLt
  have hphys := home.physStart.isLt
  have hwide : (home.size.setWidth 64).toNat = home.size.toNat :=
    BitVec.toNat_setWidth_of_le (by decide)
  have hone : (1 : BitVec 64).toNat = 1 := rfl
  have hend : (home.physStart + home.size.setWidth 64 - 1).toNat
      = home.physStart.toNat + home.size.toNat - 1 := by
    rw [BitVec.toNat_sub, BitVec.toNat_add, hwide, hone]
    omega
  refine ⟨home, hhome, ?_, win, home, hwhole, ?_⟩
  · unfold PciRegion.cpuAddr
    omega
  · rw [Window.translate_eq_some]
    unfold Window.Decodes PciRegion.mbWindow PciRegion.cpuAddr PciRegion.baseMb PciRegion.limitMb
    dsimp only
    rw [hend]
    simp only [sz1M]
    omega

section Machine

variable [Gic400 σ] {plat : Platform} {busNumberBase : ℕ} {s rc : RcState σ} {region : PciRegion}
  {regions : List PciRegion} {functions : Forest HwFunction} {bus : PciBus}
  {configured : Forest ConfiguredFunction} {memory : Ledger Resource} {e' : EnumState σ}

/-- A BAR that is taken from a region with addresses of its own has its home there. -/
theorem homeRegion_of_alone (haccepted : Accepted plat s.memory.available region regions)
    (hprobe : brcmPcieProbe plat busNumberBase s = .ok () rc) (htopology : Topology functions)
    (hconf : ∀ hw ∈ functions.toList,
      ConformingBars hw.cfg hw.headerType (headerBars hw.headerType))
    (htable : ServedTable regions rc.pcie functions)
    (h : enumerate functions ⟨rc.pcie, memory⟩ = .ok (bus, configured) e') :
    ∀ bar ∈ memoryBars configured, ∃ home,
      homeRegion regions bar.busAddr bar.size.toNat = some home ∧ ServedHome regions home := by
  obtain ⟨-, hregions⟩ := dmaView_brcmPcieProbe haccepted hprobe
  have hfits : ∀ k, ∀ res ∈ rc.pcie.select.chosen k, res.Fits := fun k res hres =>
    (fits_of_accepted haccepted res (hregions ▸ mem_regions_of_chosen hres)).1
  intro bar hbar
  have hhome {k : RegionKind} (hk : k ≠ .io)
      (hkind : bar.kind (rc.pcie.select.ptr .prefetch).isSome = k) :
      ∃ home, homeRegion regions bar.busAddr bar.size.toNat = some home ∧
        ServedHome regions home := by
    obtain ⟨res, hres, hlow, hhigh, hpos⟩ :=
      block_mem_arena hk htopology hconf (hfits k) (htable.exact k hk) h hbar hkind
    have hserved := htable.served k hk res hres
    obtain ⟨win, hwin, -⟩ := hserved.whole
    obtain ⟨hmem, hflags⟩ := List.mem_filter.1 (List.mem_of_getElem? hwin)
    have hholds : res.flags &&& pciRegionType = pciRegionMem ∧
        res.Holds bar.busAddr bar.size.toNat :=
      ⟨by rw [of_decide_eq_true hflags]; decide, hlow, hhigh⟩
    refine ⟨res, ?_, hserved⟩
    -- the region the BAR was taken from holds it, so the search finds one; no other can hold it
    cases hfind : homeRegion regions bar.busAddr bar.size.toNat with
    | none => exact absurd (decide_eq_true hholds) (List.find?_eq_none.1 hfind res hmem)
    | some home =>
      obtain ⟨hmem', htype, hlow', hhigh'⟩ := of_find?_eq_some hfind
      rcases htable.alone k hk res hres home hmem' htype with heq | hdisjoint
      · rw [heq]
      · -- both would hold the first byte of the BAR
        unfold PciRegion.Disjoint at hdisjoint
        omega
  rcases kind_of_mem_memoryBars hbar (rc.pcie.select.ptr .prefetch).isSome with hkind | hkind
  · exact hhome (by decide) hkind
  · exact hhome (by decide) hkind

/-- A BAR is reached if and only if it ends before the last address of the CPU and its bytes have whole
windows. -/
theorem reached_iff (haccepted : Accepted plat s.memory.available region regions)
    (hprobe : brcmPcieProbe plat busNumberBase s = .ok () rc) (htopology : Topology functions)
    (h : enumerate functions ⟨rc.pcie, memory⟩ = .ok (bus, configured) e') {bar : PciBarInfo}
    (hbar : bar ∈ memoryBars configured) (hmapped : bar.Mapped) :
    Reached rc bar ↔ ReachCond regions bar.busAddr bar.size.toNat := by
  obtain ⟨hphys, hvirt⟩ := translated_of_enumerate htopology h bar hbar
  obtain ⟨-, hregions⟩ := dmaView_brcmPcieProbe haccepted hprobe
  obtain ⟨-, hwindows⟩ := windowsFor_brcmPcieProbe haccepted hprobe
  by_cases hpos : 0 < bar.size.toNat
  · have hin := inAperture_of_mapped hmapped hpos hphys hvirt
    have haperture := aperture_iff hin hpos (mmioWindowSize_brcmPcieProbe haccepted hprobe)
    have hlen : bar.len.toNat = bar.size.toNat := by
      unfold PciBarInfo.len
      rw [if_neg fun hzero => by rw [hzero] at hpos; exact absurd hpos (by decide)]
      exact BitVec.toNat_setWidth_of_le (by decide)
    by_cases hne : regions = []
    · -- without a region there is no window
      subst hne
      refine iff_of_false (fun hall => ?_) (fun hall => ?_)
      · obtain ⟨-, win, hwin, -⟩ := hall 0 hpos
        rw [hregions] at hwin
        exact absurd hwin (Nat.not_lt_zero _)
      · obtain ⟨home, hhome, -⟩ := hall 0 hpos
        cases hhome
    · -- the CPU address is that of the region that holds the BAR
      have hhome : ∃ home, homeRegion regions bar.busAddr bar.size.toNat = some home ∧
          bar.physAddr.toNat = home.cpuAddr bar.busAddr := by
        rw [pciBusToPhys_home (by rw [hregions]; exact hne) (by rw [hlen]; exact hpos), hlen,
          hregions] at hphys
        cases hfind : homeRegion regions bar.busAddr bar.size.toNat with
        | none =>
          rw [hfind] at hphys
          exact absurd hphys hin.nonzero
        | some home =>
          rw [hfind] at hphys
          obtain ⟨hmem, -, hholds⟩ := of_find?_eq_some hfind
          refine ⟨home, rfl, ?_⟩
          rw [hphys]
          exact toNat_cpuAddr hholds hpos (fits_of_accepted haccepted home hmem).2
      obtain ⟨home, hfind, hcpu⟩ := hhome
      obtain ⟨hmem, -, -, hhigh⟩ := of_find?_eq_some hfind
      have hbus : bar.busAddr.toNat + bar.size.toNat ≤ 2 ^ 32 :=
        hhigh.trans (fits_of_accepted haccepted home hmem).1
      -- the registers of a window and the region it was set from translate alike
      have hshown (o : ℕ) (ho : o < bar.size.toNat) :
          (∃ win < (memRegions rc.pcie.regions).length,
            (outboundWindow rc.regs win).window.translate (bar.physAddr.toNat + o)
              = some (bar.busAddr.toNat + o)) ↔
          ∃ win res, WholeWindow (memRegions regions) win res ∧
            res.mbWindow.translate (home.cpuAddr bar.busAddr + o) = some (bar.busAddr.toNat + o) := by
        rw [hregions, hcpu]
        constructor
        · rintro ⟨win, hwin, htranslate⟩
          have hres := List.getElem?_eq_getElem hwin
          exact ⟨win, _, (translate_outboundWindow hwindows hres (by omega)).1 htranslate⟩
        · rintro ⟨win, res, hwhole, htranslate⟩
          exact ⟨win, (List.getElem?_eq_some_iff.1 hwhole.1).1,
            (translate_outboundWindow hwindows hwhole.1 (by omega)).2 ⟨hwhole, htranslate⟩⟩
      constructor
      · intro hall o ho
        refine ⟨home, hfind, ?_, (hshown o ho).1 (hall o ho).2⟩
        rw [← hcpu]
        exact haperture.1 fun o ho => (hall o ho).1
      · intro hcond o ho
        obtain ⟨home', hfind', hend, hwin⟩ := hcond o ho
        obtain rfl := Option.some.inj (hfind.symm.trans hfind')
        rw [← hcpu] at hend
        exact ⟨haperture.2 hend o ho, (hshown o ho).2 hwin⟩
  · exact iff_of_true (fun o ho => absurd ho (by omega)) fun o ho => absurd ho (by omega)

end Machine

/-- **When the BARs are reached from the 68k**, after a probe and a scan that succeed. -/
theorem reached_of_probe [Gic400 σ] {plat : Platform} {busNumberBase : ℕ} {s rc : RcState σ}
    {region : PciRegion} {regions : List PciRegion} {functions : Forest HwFunction} {bus : PciBus}
    {configured : Forest ConfiguredFunction} {memory : Ledger Resource} {e' : EnumState σ}
    (haccepted : Accepted plat s.memory.available region regions)
    (hprobe : brcmPcieProbe plat busNumberBase s = .ok () rc) (htopology : Topology functions)
    (h : enumerate functions ⟨rc.pcie, memory⟩ = .ok (bus, configured) e') :
    ((∀ hw ∈ functions.toList, ConformingBars hw.cfg hw.headerType (headerBars hw.headerType)) →
        ServedTable regions rc.pcie functions →
        ∀ bar ∈ memoryBars configured, bar.Mapped → Reached rc bar) ∧
      ∀ bar ∈ memoryBars configured, bar.Mapped →
        (Reached rc bar ↔ ReachCond regions bar.busAddr bar.size.toNat) := by
  have hiff {bar : PciBarInfo} (hbar : bar ∈ memoryBars configured) (hmapped : bar.Mapped) :=
    reached_iff haccepted hprobe htopology h hbar hmapped
  refine ⟨fun hconf htable bar hbar hmapped => ?_, fun bar hbar hmapped => hiff hbar hmapped⟩
  obtain ⟨home, hhome, hserved⟩ :=
    homeRegion_of_alone haccepted hprobe htopology hconf htable h bar hbar
  exact (hiff hbar hmapped).2 (reachCond_of_served hhome hserved)

/-! ## Two machines -/

/-- The region of memory has the only window, and the quiet machine takes its BARs from there. -/
theorem mapProbed_served : ServedTable (mapRegions 0xc0000000) (mapProbed 0xc0000000).pcie quietMachine := by
  have hchosen (k : RegionKind) : ∀ res ∈ (mapProbed 0xc0000000).pcie.select.chosen k,
      some res = (mapRegions 0xc0000000)[0]? := by
    cases k <;> decide +kernel
  refine ⟨mapProbed_cond.exact, fun k _ res hres => ?_, fun k _ res hres other hother _ => ?_⟩
  · obtain rfl := Option.some.inj (hchosen k res hres)
    refine ⟨⟨0, rfl, fun next hnext => ?_⟩, by decide, by decide⟩
    cases hnext
  · obtain rfl := Option.some.inj (hchosen k res hres)
    unfold PciRegion.Disjoint
    revert other
    decide

/-- A region from 3 GiB of the bus on is shown whole. -/
theorem reached_quiet : ∃ bus configured e',
    enumerate quietMachine ⟨(mapProbed 0xc0000000).pcie, {}⟩ = .ok (bus, configured) e' ∧
      (memoryBars configured).length = 2 ∧
      ∀ bar ∈ memoryBars configured, bar.Mapped ∧ Reached (mapProbed 0xc0000000) bar := by
  obtain ⟨bus, configured, e', hok⟩ :=
    @exists_of_scanOk _ quietMachine ⟨(mapProbed 0xc0000000).pcie, {}⟩ (by decide +kernel)
  have haccepted : Accepted (mapPlatform 0xc0000000) sampleRc.memory.available
      (sampleRegion 0 0x40000000) (mapRegions 0xc0000000) :=
    ⟨_, rfl, by decide, rfl, rfl⟩
  have hmapped : (scannedBars (enumerate quietMachine ⟨(mapProbed 0xc0000000).pcie, {}⟩)).map
      (fun bar => decide bar.Mapped) = [true, true] := by
    decide +kernel
  rw [hok] at hmapped
  have hlist : (memoryBars configured).map (fun bar => decide bar.Mapped) = [true, true] := hmapped
  have hspec := reached_of_probe haccepted (probed_ok (mapPlatform 0xc0000000) (by decide +kernel))
    quietMachine_topology hok
  refine ⟨bus, configured, e', hok, ?_, fun bar hbar => ?_⟩
  · simpa using congrArg List.length hlist
  · have hbool : decide bar.Mapped ∈ (memoryBars configured).map fun bar => decide bar.Mapped :=
      List.mem_map_of_mem hbar
    rw [hlist] at hbool
    have hbar' : bar.Mapped := by simpa using hbool
    exact ⟨hbar', hspec.1 quietMachine_conforming mapProbed_served bar hbar hbar'⟩

/-- The sample controller with 32 MiB of memory and 32 MiB of prefetchable memory behind each other, on
the bus and for the CPU. -/
def splitPlatform : Platform :=
  { samplePlatform 0 0x40000000 0x08000000 with
    node := .ok
      { addressCells := some 3
        sizeCells := some 2
        ranges := some [0x02000000, 0, 0xc0000000, 6, 0, 0, 0x02000000,
          0x42000000, 0, 0xc2000000, 6, 0x02000000, 0, 0x02000000]
        dmaRanges := some [0x02000000, 4, 0, 0, 0, 0, 0x40000000]
        msiIrq := 180
        base := 0xfd500000
        mmioPhys := some [6, 0]
        mmioVirt := some 0x80000000 } }

/-- The region table of that controller. -/
def splitRegions : List PciRegion :=
  [{ busStart := 0xc0000000, physStart := 0x600000000, size := 0x02000000, flags := pciRegionMem },
    { busStart := 0xc2000000, physStart := 0x602000000, size := 0x02000000,
      flags := pciRegionPrefetch },
    { busStart := 0x08000000, physStart := 0x08000000, size := 0x10000000,
      flags := pciRegionMem ||| pciRegionSysMemory }]

/-- After its probe. -/
def splitProbed : RcState GicTable := final (brcmPcieProbe splitPlatform 0) sampleRc

/-- A root port, and behind it a function with a prefetchable BAR of 4 KiB. -/
@[irreducible] def prefetchMachine : Forest HwFunction :=
  .node (sampleBridge false) (.node
    { device := 0
      function := 0
      cfg :=
        { regs := packRegisters [(pciVendorId, 0x34831106), (pciClassRevision, 0x03000000),
            (pciBaseAddress0, 0x8)]
          rw := packRegisters [(pciCommand, 0xffff), (pciBaseAddress0, 0xfffff000)] } }
    .nil .nil) .nil

/-- The BAR lies in the aperture at a CPU address no window shows: the prefetchable region has none. -/
theorem reached_fails : ∃ bus configured e' rc region regions,
    Accepted splitPlatform sampleRc.memory.available region regions ∧
      brcmPcieProbe splitPlatform 0 sampleRc = .ok () rc ∧ Topology prefetchMachine ∧
      enumerate prefetchMachine ⟨rc.pcie, {}⟩ = .ok (bus, configured) e' ∧
      ∃ bar ∈ memoryBars configured, bar.Mapped ∧ ¬ Reached rc bar := by
  obtain ⟨bus, configured, e', hok⟩ :=
    @exists_of_scanOk _ prefetchMachine ⟨splitProbed.pcie, {}⟩ (by decide +kernel)
  have hprobe : brcmPcieProbe splitPlatform 0 sampleRc = .ok () splitProbed :=
    probed_ok splitPlatform (by decide +kernel)
  have hbars : (scannedBars (enumerate prefetchMachine ⟨splitProbed.pcie, {}⟩)).map
      (fun bar => (decide bar.Mapped, bar.busAddr, bar.physAddr, bar.size))
        = [(true, 0xc2000000, 0x602000000, 0x1000)] := by
    decide +kernel
  rw [hok] at hbars
  have hlist : (memoryBars configured).map
      (fun bar => (decide bar.Mapped, bar.busAddr, bar.physAddr, bar.size)) = _ := hbars
  obtain ⟨bar, hsingle, hbar⟩ := List.map_eq_singleton_iff.1 hlist
  obtain ⟨hmapped, hbus, hphys, hsize⟩ : decide bar.Mapped = true ∧ bar.busAddr = 0xc2000000 ∧
      bar.physAddr = 0x602000000 ∧ bar.size = 0x1000 := by
    simpa [Prod.ext_iff] using hbar
  refine ⟨bus, configured, e', splitProbed, sampleRegion 0 0x40000000, splitRegions,
    ⟨_, rfl, by decide, rfl, rfl⟩, hprobe, by decide +kernel, hok, bar, by simp [hsingle],
    of_decide_eq_true hmapped, fun hreached => ?_⟩
  -- the first byte is beyond the only window
  obtain ⟨-, win, hwin, htranslate⟩ := hreached 0 (by rw [hsize]; decide)
  have hcount : (memRegions splitProbed.pcie.regions).length = 1 := by decide +kernel
  rw [hcount] at hwin
  obtain rfl : win = 0 := by omega
  have hbeyond : (outboundWindow splitProbed.regs 0).window.translate 0x602000000 = none := by
    decide +kernel
  rw [hphys] at htranslate
  exact absurd (hbeyond.symm.trans htranslate) (by simp)

end BcmPcie
