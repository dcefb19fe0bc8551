import BcmPcie.Boards.ReadBack
import BcmPcie.Enumeration.BarAddresses
import BcmPcie.Enumeration.RegionCalls

/-! # The window on PCI memory

`PRM_PCIMemWindowLow` and `PRM_PCIMemWindowHigh` report the region that memory BARs are allocated from:
its start, and the sum of its start and its size, in 32 bits. The window of the hardware ends at 4 GiB by
default, where that sum is 0.

* `MemGranted` — a BAR has been granted an address in that region; `memGranted_of_enumerate`.
* `encloses_iff` — when a window encloses a BAR that was granted in its region.
* `memWindow_encloses_iff` — when the reported window encloses a BAR of a machine. -/

namespace BcmPcie

open TagLists

variable {σ : Type}

/-! ## Grants from the region -/

/-- At some allocation pointer the region has had room for the BAR, and has given it this address. -/
def GrantedIn (res : PciRegion) (bar : PciBarInfo) : Prop :=
  ∃ lower, HasRoom { res with busLower := lower } bar.size ∧
    bar.busAddr = ((lower - 1) ||| (bar.size - 1)) + 1

/-- A BAR that goes to the region of memory has been granted its address there. -/
def MemGranted (pcie : PciController σ) (bar : PciBarInfo) : Prop :=
  bar.present = true → bar.kind (pcie.ptr .prefetch).isSome = .mem →
    ∃ res, pcie.chosen .mem = some res ∧ GrantedIn res bar

/-- The regions, and the choice among them, are those of `pcie`. -/
structure SameRegions (pcie pcie' : PciController σ) : Prop where
  map : SameMap pcie pcie'
  choice : SameChoice pcie pcie'

namespace SameRegions

variable {pcie pcie' pcie'' : PciController σ}

/-- Two steps that keep the regions keep them together. -/
theorem trans (h : SameRegions pcie pcie') (h' : SameRegions pcie' pcie'') : SameRegions pcie pcie'' :=
  ⟨h.map.trans h'.map, h.choice.trans h'.choice⟩

/-- The chosen regions have the same spans. -/
theorem chosen (h : SameRegions pcie pcie') (k : RegionKind) :
    (pcie'.chosen k).map PciRegion.span = (pcie.chosen k).map PciRegion.span := by
  have hregion (q : PciController σ) : (q.chosen k).map PciRegion.span
      = (q.ptr k).bind fun i => (q.regions.map PciRegion.span)[i]? := by
    unfold PciController.chosen PciController.region
    rw [Option.map_bind]
    simp only [List.getElem?_map, Function.comp_def]
  rw [hregion, hregion, h.choice.ptr, h.map.spans]

/-- The region in use has its pointer moved at most. -/
theorem chosen_eq_some (h : SameRegions pcie pcie') {k : RegionKind} {res : PciRegion}
    (hres : pcie.chosen k = some res) :
    ∃ lower, pcie'.chosen k = some { res with busLower := lower } := by
  have hspan := h.chosen k
  rw [hres, Option.map_some] at hspan
  obtain ⟨res', hres', heq⟩ := Option.map_eq_some_iff.1 hspan
  refine ⟨res'.busLower, ?_⟩
  rw [hres']
  have hfields : res' = { res.span with busLower := res'.busLower } := by
    rw [← heq]
    rfl
  exact congrArg some hfields

/-- Where no region was chosen none is. -/
theorem chosen_eq_none (h : SameRegions pcie pcie') {k : RegionKind} (hnone : pcie.chosen k = none) :
    pcie'.chosen k = none := by
  have hspan := h.chosen k
  rw [hnone, Option.map_none] at hspan
  exact Option.map_eq_none_iff.1 hspan

end SameRegions

/-- A scan keeps the regions, and grants the BARs that go to the region of memory their addresses
there. -/
theorem scanGranting_memGranted (pcie : PciController σ) :
    ScanGranting (SameRegions pcie) (MemGranted pcie) where
  allocate h halloc :=
    h.trans ⟨.allocate halloc, (OnlyRegions.allocate halloc).sameChoice h.choice.selected⟩
  bar {q pcie' response addr} h halloc := by
    intro _ hkind
    have hplaced : PlacedBar response addr (barInfo pcie' (isIoBar response) (barSizing response) addr) :=
      ⟨rfl, rfl, rfl, rfl, rfl⟩
    rw [hplaced.kind, ← h.choice.ptr] at hkind
    rw [hkind] at halloc
    unfold PciController.allocate at halloc
    have hregion : q.region (q.ptr .mem) = q.chosen .mem := rfl
    rw [hregion] at halloc
    -- a scan moves the pointer of the region only, so the block was granted in the one chosen at
    -- first
    cases hres : pcie.chosen .mem with
    | none =>
      rw [h.chosen_eq_none hres] at halloc
      cases halloc
    | some res =>
      obtain ⟨lower, hlower⟩ := h.chosen_eq_some hres
      rw [hlower, pciautoRegionAllocate_some] at halloc
      by_cases hroom : HasRoom { res with busLower := lower } (barSize response)
      · rw [if_pos hroom] at halloc
        obtain ⟨rfl, -⟩ := Prod.mk.inj (Option.some.inj halloc)
        exact ⟨res, rfl, lower, hroom, rfl⟩
      · rw [if_neg hroom] at halloc
        cases halloc
  absent bar h := fun hpresent => absurd hpresent (by rw [h]; exact Bool.false_ne_true)
  nextBus h := h.trans ⟨.nextBus _, sameChoice_nextBus h.choice.selected⟩
  alignWindows {q} h :=
    h.trans ⟨.alignWindows _, (onlyRegions_alignWindows q).sameChoice h.choice.selected⟩
  configInit {q} h :=
    h.trans ⟨.configInit _, (onlyRegions_configInit q h.choice.selected).sameChoice h.choice.selected⟩

/-- What a scan of the root bus leaves of the regions that it picks, and grants in them. -/
theorem memGranted_of_enumerate {functions : Forest HwFunction} {bus : PciBus}
    {configured : Forest ConfiguredFunction} {s s' : EnumState σ} (htopology : Topology functions)
    (h : enumerate functions s = .ok (bus, configured) s') :
    SameRegions s.pcie.select s'.pcie ∧
      ∀ bar ∈ memoryBars configured, MemGranted s.pcie.select bar := by
  obtain ⟨hselected, hptr, -⟩ := pciautoConfigInit_spec s.pcie
  have hselect : SameMap s.pcie.select s.pcie := ⟨rfl, rfl, rfl, rfl⟩
  have hstart : SameRegions s.pcie.select (pciautoConfigInit s.pcie) :=
    ⟨hselect.trans (.configInit _), hselected, hptr⟩
  obtain ⟨hregions, hbars⟩ := (scan_of_enumerate htopology h).everyBar (scanGranting_memGranted _) hstart
  refine ⟨hregions, fun bar hbar => ?_⟩
  obtain ⟨f, hf, slot, rfl, -, -⟩ := slot_of_mem_memoryBars hbar
  exact hbars f hf slot

/-! ## Windows -/

/-- The window from `low` to `high` encloses the BAR. -/
def Encloses (low high : BitVec 32) (bar : PciBarInfo) : Prop :=
  (low.toNat : ℤ) ≤ bar.busAddr.toNat ∧
    (bar.busAddr.toNat : ℤ) + bar.size.toNat - 1 ≤ high.toNat

/-- The sum in the check for room, of the offset of a BAR and its size, has not wrapped around; or it has
to 0, in a region of all addresses but the last. -/
def SumFits (res : PciRegion) (bar : PciBarInfo) : Prop :=
  (bar.busAddr - res.busStart).toNat + bar.size.toNat < 2 ^ 32 ∨
    (bar.busAddr - res.busStart).toNat + bar.size.toNat = 2 ^ 32 ∧ res.size.toNat + 1 = 2 ^ 32

/-- The window of a region that ends at 4 GiB encloses nothing. -/
theorem encloses_iff {res : PciRegion} (hfits : res.Fits) {bar : PciBarInfo}
    (hgranted : GrantedIn res bar) :
    Encloses res.busStart (res.busStart + res.size) bar ↔
      res.busStart.toNat + res.size.toNat < 2 ^ 32 ∧ SumFits res bar := by
  obtain ⟨lower, hroom, haddr⟩ := hgranted
  have hroom : (bar.busAddr - res.busStart + bar.size).toNat ≤ res.size.toNat := by
    rw [haddr]
    exact Nat.le_of_not_lt hroom
  -- a BAR of size 0 is at address 0
  have hzero : bar.size.toNat = 0 → bar.busAddr.toNat = 0 := by
    intro hsize
    have hsize : bar.size = 0 := BitVec.eq_of_toNat_eq hsize
    have hones : (0 - 1 : BitVec 32) = BitVec.allOnes 32 := rfl
    rw [haddr, hsize, hones, BitVec.or_allOnes]
    rfl
  have hfits : res.busStart.toNat + res.size.toNat ≤ 2 ^ 32 := hfits
  have hstart := res.busStart.isLt
  have hsize := res.size.isLt
  have hbus := bar.busAddr.isLt
  unfold Encloses SumFits
  rw [BitVec.toNat_add, BitVec.toNat_sub] at hroom
  rw [BitVec.toNat_add, BitVec.toNat_sub]
  omega

/-! ## Queries -/

section Query

variable {functions : Forest HwFunction} {bus : PciBus} {configured : Forest ConfiguredFunction}
  {s s' : EnumState σ}

/-- A query of the window, of whichever board, gives the start of the region and the sum of its start
and its size. -/
theorem memWindow_stored {ctrl : AttrController} {res : PciRegion} (hres : ctrl.pciMem = some res)
    (board : Board) {mem : Memory} {tags lowAt highAt : BitVec 32} (hnull : tags ≠ 0) (hlow : lowAt ≠ 0)
    (hhigh : highAt ≠ 0)
    (hrow : Row mem tags [⟨prmPciMemWindowLow, lowAt⟩, ⟨prmPciMemWindowHigh, highAt⟩])
    (regs : RcRegisters) {fuel : ℕ} (hfuel : 2 < fuel) :
    ∃ g, libGetBoardAttrsA ctrl mem fuel (some board) tags regs = some g ∧
      g.stores = [(lowAt, res.busStart), (highAt, res.busStart + res.size)] := by
  obtain ⟨g, hget, hstores⟩ := libGetBoardAttrsA_stores hnull hrow ctrl board regs hfuel
  have hlowAttr : boardAttr ctrl board prmPciMemWindowLow = some res.busStart := by
    have hattr : boardAttr ctrl board prmPciMemWindowLow
        = some ((ctrl.pciMem.map (·.busStart)).getD 0) := rfl
    rw [hattr, hres, Option.map_some, Option.getD_some]
  have hhighAttr : boardAttr ctrl board prmPciMemWindowHigh = some (res.busStart + res.size) := by
    have hattr : boardAttr ctrl board prmPciMemWindowHigh
        = some ((ctrl.pciMem.map fun region => region.busStart + region.size).getD 0) := rfl
    rw [hattr, hres, Option.map_some, Option.getD_some]
  have hlowTag : prmPciMemWindowLow ≠ tagIgnore := by decide
  have hhighTag : prmPciMemWindowHigh ≠ tagIgnore := by decide
  refine ⟨g, hget, ?_⟩
  rw [hstores, reported_cons hlowTag hlow hlowAttr, reported_cons hhighTag hhigh hhighAttr, reported_nil]

/-- **The reported window** encloses a BAR that goes to the region of memory if and only if the region
ends below 4 GiB and the sum in the check for room has fitted. -/
theorem memWindow_encloses_iff (htopology : Topology functions)
    (h : enumerate functions s = .ok (bus, configured) s') {res : PciRegion}
    (hres : s.pcie.select.chosen .mem = some res) (hfits : res.Fits) (base : BitVec 32) (board : Board)
    {mem : Memory} {tags lowAt highAt : BitVec 32} (hnull : tags ≠ 0) (hlow : lowAt ≠ 0)
    (hhigh : highAt ≠ 0)
    (hrow : Row mem tags [⟨prmPciMemWindowLow, lowAt⟩, ⟨prmPciMemWindowHigh, highAt⟩])
    (regs : RcRegisters) {fuel : ℕ} (hfuel : 2 < fuel) :
    ∃ g low high, libGetBoardAttrsA ⟨base, s'.pcie.chosen .mem⟩ mem fuel (some board) tags regs = some g ∧
      g.stores = [(lowAt, low), (highAt, high)] ∧
      ∀ bar ∈ memoryBars configured, bar.kind (s.pcie.select.ptr .prefetch).isSome = .mem →
        (Encloses low high bar ↔
          res.busStart.toNat + res.size.toNat < 2 ^ 32 ∧ SumFits res bar) := by
  obtain ⟨hregions, hbars⟩ := memGranted_of_enumerate htopology h
  obtain ⟨lower, hres'⟩ := hregions.chosen_eq_some hres
  obtain ⟨g, hget, hstores⟩ := @memWindow_stored ⟨base, s'.pcie.chosen .mem⟩ _ hres' board mem tags lowAt
    highAt hnull hlow hhigh hrow regs fuel hfuel
  refine ⟨g, _, _, hget, hstores, fun bar hbar hkind => ?_⟩
  obtain ⟨-, -, -, -, hpresent, -⟩ := slot_of_mem_memoryBars hbar
  obtain ⟨res', hsome, hgranted⟩ := hbars bar hbar hpresent hkind
  obtain rfl := Option.some.inj (hres.symm.trans hsome)
  exact encloses_iff hfits hgranted

/-- Where the check for room never wraps around, the sum fits. -/
theorem sumFits_of_exact (htopology : Topology functions)
    (hconf : ∀ hw ∈ functions.toList,
      ConformingBars hw.cfg hw.headerType (headerBars hw.headerType))
    (h : enumerate functions s = .ok (bus, configured) s') {res : PciRegion}
    (hres : s.pcie.select.chosen .mem = some res) (hfits : res.Fits)
    (hexact : RoomExactAlong .mem s.pcie functions) {bar : PciBarInfo} (hbar : bar ∈ memoryBars configured)
    (hkind : bar.kind (s.pcie.select.ptr .prefetch).isSome = .mem) : SumFits res bar := by
  have hchosen : ∀ res' ∈ s.pcie.select.chosen .mem, res'.Fits := by
    intro res' hres'
    rw [hres] at hres'
    rwa [← Option.some.inj hres']
  obtain ⟨res', hres', hstart, hend, -⟩ := block_mem_arena (by decide) htopology hconf hchosen hexact h
    hbar hkind
  rw [hres] at hres'
  obtain rfl := Option.some.inj hres'
  have hsize := res.size.isLt
  have haddr := bar.busAddr.isLt
  refine Or.inl ?_
  rw [BitVec.toNat_sub]
  omega

end Query

/-! ## Two regions -/

/-- A query of the window. -/
def windowTags : Memory := fun a =>
  if a = 0x1000 then some ⟨prmPciMemWindowLow, 0x2000⟩
  else if a = 0x1008 then some ⟨prmPciMemWindowHigh, 0x2004⟩
  else if a = 0x1010 then some ⟨tagDone, 0⟩ else none

/-- The sample list asks for both ends of the window. -/
theorem windowTags_row :
    Row windowTags 0x1000 [⟨prmPciMemWindowLow, 0x2000⟩, ⟨prmPciMemWindowHigh, 0x2004⟩] :=
  .next rfl (by decide) (.next rfl (by decide) (.done rfl rfl))

/-- The region of the sample controller. -/
def fullRegion : PciRegion :=
  { busStart := 0xc0000000, physStart := 0x600000000, size := 0x40000000, flags := pciRegionMem }

/-- Half of it. -/
def halfRegion : PciRegion := { fullRegion with size := 0x20000000 }

/-- A controller with one region, before the scan. -/
def regionEnum (res : PciRegion) : EnumState Unit :=
  { pcie := { sampleController with regions := [res] }, memory := {} }

/-- The chosen region of the sample fits. -/
theorem regionEnum_chosen {res : PciRegion} (h : (regionEnum res).pcie.select.chosen .mem = some res)
    (hfits : res.Fits) : ∀ res' ∈ (regionEnum res).pcie.select.chosen .mem, res'.Fits := by
  intro res' hres'
  rw [h] at hres'
  rwa [← Option.some.inj hres']

/-- The window of the half encloses the BARs of the quiet machine. -/
theorem memWindow_encloses_half : ∃ bus configured s',
    enumerate quietMachine (regionEnum halfRegion) = .ok (bus, configured) s' ∧
      ∃ g low high, libGetBoardAttrsA ⟨0, s'.pcie.chosen .mem⟩ windowTags 3 (some sampleBoard) 0x1000
          (fun _ => 0) = some g ∧
        g.stores = [(0x2000, low), (0x2004, high)] ∧
        ∀ bar ∈ memoryBars configured, Encloses low high bar := by
  obtain ⟨bus, configured, s', hok⟩ :=
    @exists_of_scanOk _ quietMachine (regionEnum halfRegion) (by decide +kernel)
  have hres : (regionEnum halfRegion).pcie.select.chosen .mem = some halfRegion := by decide +kernel
  have hfits : halfRegion.Fits := by decide +kernel
  have hexact : RoomExactAlong .mem (regionEnum halfRegion).pcie quietMachine := by
    refine everyStep_exact_of_high
      (busSized_of_mem_machineRequests (by decide) _ quietMachine_conforming)
      (regionEnum_chosen hres hfits) ?_ (regionArena_start_le _)
    decide +kernel
  obtain ⟨g, low, high, hget, hstores, hiff⟩ := memWindow_encloses_iff quietMachine_topology hok hres
    hfits 0 sampleBoard (by decide) (by decide) (by decide) windowTags_row (fun _ => 0)
    (by decide : 2 < 3)
  refine ⟨bus, configured, s', hok, g, low, high, hget, hstores, fun bar hbar => ?_⟩
  have hprefetch : ((regionEnum halfRegion).pcie.select.ptr .prefetch).isSome = false := by
    decide +kernel
  have hkind : bar.kind ((regionEnum halfRegion).pcie.select.ptr .prefetch).isSome = .mem := by
    obtain ⟨-, -, -, -, -, htype⟩ := slot_of_mem_memoryBars hbar
    unfold PciBarInfo.kind
    rw [hprefetch, htype]
    rfl
  exact (hiff bar hbar hkind).2 ⟨by decide +kernel, sumFits_of_exact quietMachine_topology
    quietMachine_conforming hok hres hfits hexact hbar hkind⟩

/-- **A region that ends at 4 GiB.** The window of the sample controller is reported to end at 0, below
the BARs of the quiet machine. -/
theorem not_memWindow_encloses :
    ¬ ∀ (functions : Forest HwFunction) (s s' : EnumState Unit) (bus : PciBus)
      (configured : Forest ConfiguredFunction) (res : PciRegion), Topology functions →
      enumerate functions s = .ok (bus, configured) s' → s.pcie.select.chosen .mem = some res →
      res.Fits → ∀ g low high, libGetBoardAttrsA ⟨0, s'.pcie.chosen .mem⟩ windowTags 3 (some sampleBoard)
          0x1000 (fun _ => 0) = some g →
        g.stores = [(0x2000, low), (0x2004, high)] →
        ∀ bar ∈ memoryBars configured, bar.kind (s.pcie.select.ptr .prefetch).isSome = .mem →
          Encloses low high bar := by
  intro h
  obtain ⟨bus, configured, s', hok⟩ :=
    @exists_of_scanOk _ quietMachine (regionEnum fullRegion) (by decide +kernel)
  have hres : (regionEnum fullRegion).pcie.select.chosen .mem = some fullRegion := by decide +kernel
  obtain ⟨lower, hres'⟩ := (memGranted_of_enumerate quietMachine_topology hok).1.chosen_eq_some hres
  obtain ⟨g, hget, hstores⟩ := @memWindow_stored ⟨0, s'.pcie.chosen .mem⟩ _ hres' sampleBoard windowTags
    0x1000 0x2000 0x2004 (by decide) (by decide) (by decide) windowTags_row (fun _ => 0) 3 (by decide)
  have hbars : (scannedBars (enumerate quietMachine (regionEnum fullRegion))).map
      (fun bar => (bar.kind ((regionEnum fullRegion).pcie.select.ptr .prefetch).isSome, bar.busAddr,
        bar.size)) = [(.mem, 0xc0000000, 0x1000), (.mem, 0xc0001000, 0x1000)] := by
    decide +kernel
  rw [hok] at hbars
  -- the first BAR of the quiet machine is enough
  obtain ⟨bar, rest, hlist, hbar, -⟩ := List.map_eq_cons_iff.1 hbars
  have hmem : bar ∈ memoryBars configured := by
    have hcons : memoryBars configured = bar :: rest := hlist
    rw [hcons]
    exact List.mem_cons_self
  obtain ⟨hkind, hvalues⟩ := Prod.mk.inj hbar
  obtain ⟨haddr, hsize⟩ := Prod.mk.inj hvalues
  obtain ⟨-, hend⟩ := h quietMachine _ s' bus configured fullRegion quietMachine_topology hok hres
    (by decide +kernel) g _ _ hget hstores bar hmem hkind
  rw [haddr, hsize] at hend
  have hwrapped : fullRegion.busStart + fullRegion.size = 0 := by decide
  have hend : ((0xc0000000 : BitVec 32).toNat : ℤ) + (0x1000 : BitVec 32).toNat - 1
      ≤ (fullRegion.busStart + fullRegion.size).toNat := hend
  rw [hwrapped] at hend
  exact absurd hend (by decide)

end BcmPcie
