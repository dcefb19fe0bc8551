import BcmPcie.Brcmstb.RangesWalk
import BcmPcie.Enumeration.Placement
import BcmPcie.Memory.DmaWindow

/-! # Who takes which bus address

Memory behind the inbound window, the doorbell of the MSIs and the BARs share the 32-bit addresses of
the bus. `brcm_pcie_probe` puts the window at 0 and the doorbell in the last word, whatever the device
tree says of the regions that BARs are taken from.

* `busSpans` — what takes addresses.
* `spansApart_iff` — what has to be clear of what.
* `bars_clear`, `region_clear` — the BARs are clear if the regions are, and mostly only then.
* `spansApart_of_probe` — when no address is taken twice. -/

namespace BcmPcie

open Bump Computations Runs Windows

variable {σ : Type}

/-! ## The spans of the bus -/

/-- What addresses of the bus can be taken by. -/
inductive BusUse
  | memory | doorbell | bar
  deriving DecidableEq, Repr

/-- The inbound window, the doorbell and the memory BARs that are present. -/
def busSpans (rc : RcState σ) (configured : Forest ConfiguredFunction) : List (Block BusUse) :=
  ⟨(inboundWindow rc.regs).source, (inboundWindow rc.regs).size, .memory⟩ ::
    ⟨rc.pcie.msi.targetAddr.toNat, 4, .doorbell⟩ ::
      (memoryBars configured).map fun bar => ⟨bar.busAddr.toNat, bar.size.toNat, .bar⟩

/-- No two of them share an address. -/
def SpansApart (rc : RcState σ) (configured : Forest ConfiguredFunction) : Prop :=
  (busSpans rc configured).Pairwise Block.Apart

/-- A BAR is asked for in the region of kind `k`. -/
def TakesBar (k : RegionKind) (pcie : PciController σ) (functions : Forest HwFunction) : Prop :=
  ∃ size, .take size .bar ∈ machineRequests k pcie functions

/-- The region of kind `k` starts behind the inbound window, of `low` bytes, and ends before the
doorbell, or everything asked for in it would fit if it did. -/
def RegionClear (k : RegionKind) (low : ℕ) (pcie : PciController σ) (functions : Forest HwFunction) :
    Prop :=
  low ≤ (machineArena k pcie).start ∧
    (machineArena k pcie).EndsBy brcmMsiTargetAddrLt4gb.toNat (machineRequests k pcie functions)

/-- One of the two regions of memory ends before the other one starts, or everything asked for in it
would fit if it did. -/
def RegionsApart (pcie : PciController σ) (functions : Forest HwFunction) : Prop :=
  (machineArena .mem pcie).EndsBy (machineArena .prefetch pcie).start
      (machineRequests .mem pcie functions) ∨
    (machineArena .prefetch pcie).EndsBy (machineArena .mem pcie).start
      (machineRequests .prefetch pcie functions)

/-! ## What the probe leaves -/

section Probe

variable [Gic400 σ] {plat : Platform} {s rc : RcState σ} {region : PciRegion}
  {regions : List PciRegion} {busNumberBase : ℕ}

/-- The doorbell is in the last word below 4 GiB. -/
theorem msiTarget_brcmPcieProbe (haccepted : Accepted plat s.memory.available region regions)
    (hprobe : brcmPcieProbe plat busNumberBase s = .ok () rc) :
    rc.pcie.msi.targetAddr = brcmMsiTargetAddrLt4gb := by
  obtain ⟨node, -, -, hpcie⟩ := brcmPcieProbe_frame busNumberBase haccepted
  rw [final_of_ok hprobe] at hpcie
  exact congrArg (·.msi.targetAddr) hpcie

/-- The registers of the inbound window and the region table. -/
theorem dmaView_brcmPcieProbe (haccepted : Accepted plat s.memory.available region regions)
    (hprobe : brcmPcieProbe plat busNumberBase s = .ok () rc) :
    inboundWindow rc.regs = ⟨0, 0, inboundSize region.size.toNat⟩ ∧ rc.pcie.regions = regions := by
  obtain ⟨regs, hview⟩ := final_brcmPcieProbe busNumberBase haccepted
  rw [final_of_ok hprobe] at hview
  obtain ⟨hrc, hregions⟩ := Prod.mk.inj hview
  obtain ⟨node, -, -, hwin, -⟩ := haccepted
  exact ⟨inboundWindow_of_rcBar2 hwin hrc, hregions⟩

omit [Gic400 σ] in
/-- Every region of the table fits the bus and the CPU's addresses. -/
theorem fits_of_accepted {met : Bool} (h : Accepted plat met region regions) :
    ∀ res ∈ regions, res.Fits ∧ res.physStart.toNat + res.size.toNat ≤ 2 ^ 64 := by
  obtain ⟨node, -, -, hwin, hregs⟩ := h
  obtain ⟨-, hend, hbus⟩ := brcmPcieDmaWindow_ok hwin
  unfold pciGetDevtreeRegions at hregs
  split at hregs
  · cases hregs
  · split at hregs
    · cases hregs
    · cases hregs
      intro res hres
      rcases List.mem_append.1 hres with hres | hres
      · obtain ⟨r, -, hr⟩ := List.mem_filterMap.1 hres
        rw [rangeRegion_eq] at hr
        split at hr
        · rename_i hlisted
          obtain rfl := Option.some.inj hr
          obtain ⟨-, hlow, hsize, -, hlast, hcpu⟩ := hlisted
          show (r.bus.setWidth 32).toNat + (r.size.setWidth 32).toNat ≤ 2 ^ 32 ∧
            r.cpu.toNat + (r.size.setWidth 32).toNat ≤ 2 ^ 64
          rw [BitVec.toNat_setWidth, BitVec.toNat_setWidth]
          omega
        · cases hr
      · obtain ⟨mh, -, hmh⟩ := mem_fastRamRegions hres
        obtain ⟨-, -, hsame, -, hhigh⟩ := fastRamRegion_some hbus hmh
        show res.busStart.toNat + res.size.toNat ≤ 2 ^ 32 ∧ _
        omega

end Probe

/-- The regions that BARs are taken from are regions of the table. -/
theorem mem_regions_of_chosen {pcie : PciController σ} {k : RegionKind} {res : PciRegion}
    (h : res ∈ pcie.select.chosen k) : res ∈ pcie.regions := by
  obtain ⟨i, -, hi⟩ := Option.bind_eq_some_iff.1 h
  exact List.mem_of_getElem? hi

/-- The inbound window ends below 4 GiB. -/
theorem inboundSize_le {size : ℕ} (h : size ≤ 2 ^ 31) : inboundSize size ≤ 2 ^ 31 := by
  unfold inboundSize
  split
  · exact Nat.pow_le_pow_right (by decide) (Nat.clog_le_of_le_pow h)
  · exact Nat.zero_le _

/-! ## When the spans are apart -/

/-- The window and the doorbell are apart whatever the device tree says; the BARs have to be apart from
each other and clear of both. -/
theorem spansApart_iff {rc : RcState σ} {configured : Forest ConfiguredFunction} {low : ℕ}
    (hwindow : inboundWindow rc.regs = ⟨0, 0, low⟩) (hlow : low ≤ 2 ^ 31)
    (htarget : rc.pcie.msi.targetAddr = brcmMsiTargetAddrLt4gb)
    (hbars : ∀ bar ∈ memoryBars configured,
      0 < bar.size.toNat ∧ bar.busAddr.toNat + bar.size.toNat ≤ 2 ^ 32) :
    SpansApart rc configured ↔ BarsApart configured ∧
      ∀ bar ∈ memoryBars configured, low ≤ bar.busAddr.toNat ∧
        bar.busAddr.toNat + bar.size.toNat ≤ brcmMsiTargetAddrLt4gb.toNat := by
  have hdoorbell : brcmMsiTargetAddrLt4gb.toNat = 2 ^ 32 - 4 := rfl
  unfold SpansApart busSpans
  rw [hwindow, htarget, List.pairwise_cons, List.pairwise_cons, List.pairwise_map,
    List.forall_mem_cons, List.forall_mem_map, List.forall_mem_map, hdoorbell]
  unfold Block.Apart
  dsimp only
  constructor
  · rintro ⟨⟨-, hmemory⟩, hbell, hapart⟩
    refine ⟨hapart, fun bar hbar => ?_⟩
    obtain ⟨hpos, hend⟩ := hbars bar hbar
    have hfirst := hmemory bar hbar
    have hlast := hbell bar hbar
    omega
  · rintro ⟨hapart, hclear⟩
    refine ⟨⟨by omega, fun bar hbar => ?_⟩, fun bar hbar => ?_, hapart⟩
    · have hfirst := (hclear bar hbar).1
      omega
    · have hlast := (hclear bar hbar).2
      omega

section Machine

variable {functions : Forest HwFunction} {bus : PciBus} {configured : Forest ConfiguredFunction}
  {s s' : EnumState σ} {low : ℕ}

/-- Where the regions are clear, so are the BARs. -/
theorem bars_clear (htopology : Topology functions)
    (hconf : ∀ hw ∈ functions.toList,
      ConformingBars hw.cfg hw.headerType (headerBars hw.headerType))
    (hfits : ∀ k, ∀ res ∈ s.pcie.select.chosen k, res.Fits)
    (hexact : ∀ k, k ≠ .io → RoomExactAlong k s.pcie functions)
    (h : enumerate functions s = .ok (bus, configured) s')
    (hclear : ∀ k, k ≠ .io → TakesBar k s.pcie functions → RegionClear k low s.pcie functions) :
    ∀ bar ∈ memoryBars configured, low ≤ bar.busAddr.toNat ∧
      bar.busAddr.toNat + bar.size.toNat ≤ brcmMsiTargetAddrLt4gb.toNat := by
  intro bar hbar
  have hof {k : RegionKind} (hk : k ≠ .io)
      (hkind : bar.kind (s.pcie.select.ptr .prefetch).isSome = k) :
      low ≤ bar.busAddr.toNat ∧
        bar.busAddr.toNat + bar.size.toNat ≤ brcmMsiTargetAddrLt4gb.toNat := by
    have hmem := block_mem_blocks hk htopology hconf (hfits k) (hexact k hk) h hbar hkind
    have hpos := positive_of_busSized (busSized_of_mem_machineRequests hk s.pcie hconf)
    obtain ⟨hlow, hhigh⟩ := hclear k hk ⟨_, (machineArena k s.pcie).take_mem_of_mem_blocks hmem⟩
    exact ⟨hlow.trans ((machineArena k s.pcie).blocks_subset hpos le_rfl _ hmem).2.1,
      hhigh.blocks_le _ hpos _ hmem⟩
  rcases kind_of_mem_memoryBars hbar (s.pcie.select.ptr .prefetch).isSome with hkind | hkind
  · exact hof (by decide) hkind
  · exact hof (by decide) hkind

/-- BARs of different regions are apart where the regions are. -/
theorem bars_cross (htopology : Topology functions)
    (hconf : ∀ hw ∈ functions.toList,
      ConformingBars hw.cfg hw.headerType (headerBars hw.headerType))
    (hfits : ∀ k, ∀ res ∈ s.pcie.select.chosen k, res.Fits)
    (hexact : ∀ k, k ≠ .io → RoomExactAlong k s.pcie functions)
    (h : enumerate functions s = .ok (bus, configured) s')
    (happart : TakesBar .mem s.pcie functions → TakesBar .prefetch s.pcie functions →
      RegionsApart s.pcie functions) :
    ∀ bar ∈ memoryBars configured, ∀ bar' ∈ memoryBars configured,
      bar.kind (s.pcie.select.ptr .prefetch).isSome = .mem →
      bar'.kind (s.pcie.select.ptr .prefetch).isSome = .prefetch → bar.block.Apart bar'.block := by
  intro bar hbar bar' hbar' hkind hkind'
  have hmem := block_mem_blocks (by decide) htopology hconf (hfits .mem) (hexact .mem (by decide)) h
    hbar hkind
  have hmem' := block_mem_blocks (by decide) htopology hconf (hfits .prefetch)
    (hexact .prefetch (by decide)) h hbar' hkind'
  have hpos {k : RegionKind} (hk : k ≠ .io) : Arena.Positive (machineRequests k s.pcie functions) :=
    positive_of_busSized (busSized_of_mem_machineRequests hk s.pcie hconf)
  have hstart := ((machineArena .mem s.pcie).blocks_subset (hpos (by decide)) le_rfl _ hmem).2.1
  have hstart' := ((machineArena .prefetch s.pcie).blocks_subset (hpos (by decide)) le_rfl _ hmem').2.1
  rcases happart ⟨_, (machineArena .mem s.pcie).take_mem_of_mem_blocks hmem⟩
    ⟨_, (machineArena .prefetch s.pcie).take_mem_of_mem_blocks hmem'⟩ with hends | hends
  · exact Or.inl ((hends.blocks_le _ (hpos (by decide)) _ hmem).trans hstart')
  · exact Or.inr ((hends.blocks_le _ (hpos (by decide)) _ hmem').trans hstart)

/-- **Clear BARs ask for a clear region**, where no expansion ROM takes part: it starts behind the
inbound window if its start suits everything asked for, and what is asked for would fit before the
doorbell if all of it is granted. -/
theorem region_clear (htopology : Topology functions)
    (hconf : ∀ hw ∈ functions.toList,
      ConformingBars hw.cfg hw.headerType (headerBars hw.headerType))
    {k : RegionKind} (hk : k ≠ .io) (hfits : ∀ res ∈ s.pcie.select.chosen k, res.Fits)
    (hexact : RoomExactAlong k s.pcie functions)
    (h : enumerate functions s = .ok (bus, configured) s')
    (hrom : ∀ hw ∈ functions.toList, romResponse hw.cfg hw.headerType = 0)
    (hclear : ∀ bar ∈ memoryBars configured, low ≤ bar.busAddr.toNat ∧
      bar.busAddr.toNat + bar.size.toNat ≤ brcmMsiTargetAddrLt4gb.toNat) :
    ((machineArena k s.pcie).Natural (machineRequests k s.pcie functions) →
        TakesBar k s.pcie functions → low ≤ (machineArena k s.pcie).start) ∧
      ((machineArena k s.pcie).Roomy (machineArena k s.pcie).start
          (machineRequests k s.pcie functions) →
        (machineArena k s.pcie).EndsBy brcmMsiTargetAddrLt4gb.toNat
          (machineRequests k s.pcie functions)) := by
  have hbar {b : Block BlockUse} (hb : b ∈ (machineArena k s.pcie).blocks (machineArena k s.pcie).start
      (machineRequests k s.pcie functions)) :
      low ≤ b.addr ∧ b.addr + b.size ≤ brcmMsiTargetAddrLt4gb.toNat := by
    obtain ⟨bar, hbar, rfl⟩ := exists_bar_of_block hk htopology hconf hfits hexact h hrom hb
    exact hclear bar hbar
  constructor
  · rintro hnatural ⟨size, htake⟩
    -- the first block taken is at the start
    obtain ⟨b, hb, haddr⟩ := (machineArena k s.pcie).exists_block_at_start
      (positive_of_busSized (busSized_of_mem_machineRequests hk s.pcie hconf)) hnatural
      ⟨size, .bar, htake⟩
    exact haddr ▸ (hbar hb).1
  · exact fun hroomy => Or.inr (Arena.roomy_upTo _ hroomy fun b hb => (hbar hb).2)

/-- A memory BAR takes addresses of the bus. -/
theorem memoryBar_bounds (htopology : Topology functions)
    (hconf : ∀ hw ∈ functions.toList,
      ConformingBars hw.cfg hw.headerType (headerBars hw.headerType))
    (hfits : ∀ k, ∀ res ∈ s.pcie.select.chosen k, res.Fits)
    (hexact : ∀ k, k ≠ .io → RoomExactAlong k s.pcie functions)
    (h : enumerate functions s = .ok (bus, configured) s') :
    ∀ bar ∈ memoryBars configured,
      0 < bar.size.toNat ∧ bar.busAddr.toNat + bar.size.toNat ≤ 2 ^ 32 := by
  intro bar hbar
  have hbound {k : RegionKind} (hk : k ≠ .io)
      (hkind : bar.kind (s.pcie.select.ptr .prefetch).isSome = k) :
      0 < bar.size.toNat ∧ bar.busAddr.toNat + bar.size.toNat ≤ 2 ^ 32 := by
    obtain ⟨res, hres, -, hend, hpos⟩ :=
      block_mem_arena hk htopology hconf (hfits k) (hexact k hk) h hbar hkind
    exact ⟨hpos, hend.trans (hfits k res hres)⟩
  rcases kind_of_mem_memoryBars hbar (s.pcie.select.ptr .prefetch).isSome with hkind | hkind
  · exact hbound (by decide) hkind
  · exact hbound (by decide) hkind

end Machine

/-- The check for room does not wrap around, no region is set back between two BARs taken from it,
a region that BARs are taken from is clear of the inbound window and the doorbell, and if BARs are
taken from both regions, these are apart. -/
structure MapCond (region : PciRegion) (pcie : PciController σ) (functions : Forest HwFunction) :
    Prop where
  exact : ∀ k, k ≠ .io → RoomExactAlong k pcie functions
  stretch : ∀ k, k ≠ .io → Arena.OneStretch .bar (machineRequests k pcie functions)
  clear : ∀ k, k ≠ .io → TakesBar k pcie functions →
    RegionClear k (inboundSize region.size.toNat) pcie functions
  apart : TakesBar .mem pcie functions → TakesBar .prefetch pcie functions →
    RegionsApart pcie functions

/-- **When no address of the bus is taken twice**, after a probe and a scan that succeed. The condition
is enough. What it says of one region is also necessary where no expansion ROM takes part and the check
for room does not wrap around: that the region is not set back between two BARs and starts behind the
inbound window, if its start suits everything asked for; that what is asked for ends before the
doorbell, if all of it is granted. -/
theorem spansApart_of_probe [Gic400 σ] {plat : Platform} {busNumberBase : ℕ} {s rc : RcState σ}
    {region : PciRegion} {regions : List PciRegion} {functions : Forest HwFunction} {bus : PciBus}
    {configured : Forest ConfiguredFunction} {memory : Ledger Resource} {e' : EnumState σ}
    (haccepted : Accepted plat s.memory.available region regions)
    (hprobe : brcmPcieProbe plat busNumberBase s = .ok () rc) (htopology : Topology functions)
    (hconf : ∀ hw ∈ functions.toList,
      ConformingBars hw.cfg hw.headerType (headerBars hw.headerType))
    (h : enumerate functions ⟨rc.pcie, memory⟩ = .ok (bus, configured) e') :
    (MapCond region rc.pcie functions → SpansApart rc configured) ∧
      (SpansApart rc configured → (∀ k, k ≠ .io → RoomExactAlong k rc.pcie functions) →
        (∀ hw ∈ functions.toList, romResponse hw.cfg hw.headerType = 0) → ∀ k, k ≠ .io →
          ((machineArena k rc.pcie).Natural (machineRequests k rc.pcie functions) →
            Arena.OneStretch .bar (machineRequests k rc.pcie functions) ∧
              (TakesBar k rc.pcie functions →
                inboundSize region.size.toNat ≤ (machineArena k rc.pcie).start)) ∧
          ((machineArena k rc.pcie).Roomy (machineArena k rc.pcie).start
              (machineRequests k rc.pcie functions) →
            (machineArena k rc.pcie).EndsBy brcmMsiTargetAddrLt4gb.toNat
              (machineRequests k rc.pcie functions))) := by
  obtain ⟨hwindow, hregions⟩ := dmaView_brcmPcieProbe haccepted hprobe
  have htarget := msiTarget_brcmPcieProbe haccepted hprobe
  have hfits : ∀ k, ∀ res ∈ rc.pcie.select.chosen k, res.Fits := fun k res hres =>
    (fits_of_accepted haccepted res (hregions ▸ mem_regions_of_chosen hres)).1
  have hlow : inboundSize region.size.toNat ≤ 2 ^ 31 := by
    obtain ⟨node, -, -, hwin, -⟩ := haccepted
    obtain ⟨-, hend, -⟩ := brcmPcieDmaWindow_ok hwin
    exact inboundSize_le (by omega)
  -- where the room is exact, what is left is that the BARs keep apart and clear of memory
  have hiff (hexact : ∀ k, k ≠ .io → RoomExactAlong k rc.pcie functions) :=
    spansApart_iff hwindow hlow htarget (memoryBar_bounds htopology hconf hfits hexact h)
  constructor
  · rintro ⟨hexact, hstretch, hclear, hapart⟩
    exact (hiff hexact).2 ⟨barsApart_of_cross htopology hconf hfits hexact h hstretch
      (bars_cross htopology hconf hfits hexact h hapart),
      bars_clear htopology hconf hfits hexact h hclear⟩
  · intro hapart hexact hrom k hk
    obtain ⟨hbars, hclear⟩ := (hiff hexact).1 hapart
    obtain ⟨hstart, hend⟩ := region_clear htopology hconf hk (hfits k) (hexact k hk) h hrom hclear
    exact ⟨fun hnatural => ⟨oneStretch_of_barsApart htopology hconf hk (hfits k) (hexact k hk) h
      hnatural hrom hbars, hstart hnatural⟩, hend⟩

/-! ## Two machines -/

/-- The sample controller with its regions of the bus from `bus` on. -/
def mapPlatform (bus : BitVec 32) : Platform :=
  { samplePlatform 0 0x40000000 0x08000000 with
    node := .ok
      { addressCells := some 3
        sizeCells := some 2
        ranges := some [0x02000000, 0, bus, 6, 0, 0, 0x40000000]
        dmaRanges := some [0x02000000, 4, 0, 0, 0, 0, 0x40000000]
        msiIrq := 180
        base := 0xfd500000
        mmioPhys := some [6, 0]
        mmioVirt := some 0x80000000 } }

/-- The region table of that controller. -/
def mapRegions (bus : BitVec 32) : List PciRegion :=
  [{ busStart := bus, physStart := 0x600000000, size := 0x40000000, flags := pciRegionMem },
    { busStart := 0x08000000, physStart := 0x08000000, size := 0x10000000,
      flags := pciRegionMem ||| pciRegionSysMemory }]

/-- After its probe. -/
def mapProbed (bus : BitVec 32) : RcState GicTable := final (brcmPcieProbe (mapPlatform bus) 0) sampleRc

/-- A probe that succeeds, from its final state. -/
theorem probed_ok (plat : Platform)
    (h : (match brcmPcieProbe plat 0 sampleRc with
      | .ok _ _ => true
      | .error _ _ => false) = true) :
    brcmPcieProbe plat 0 sampleRc = .ok () (final (brcmPcieProbe plat 0) sampleRc) := by
  cases hrun : brcmPcieProbe plat 0 sampleRc with
  | ok u rc =>
    obtain rfl := final_of_ok hrun
    rfl
  | error e rc =>
    rw [hrun] at h
    cases h

/-- The allocators of the controller grant the quiet machine what those of the sample controller do. -/
theorem mapProbed_cond : MapCond (sampleRegion 0 0x40000000) (mapProbed 0xc0000000).pcie quietMachine := by
  have hfits (k : RegionKind) : ∀ res ∈ (mapProbed 0xc0000000).pcie.select.chosen k, res.Fits := by
    cases k <;> decide +kernel
  have hrequests (k : RegionKind) : machineRequests k (mapProbed 0xc0000000).pcie quietMachine
      = machineRequests k sampleEnum.pcie quietMachine := by
    unfold machineRequests
    rw [show ((mapProbed 0xc0000000).pcie.select.ptr .prefetch).isSome
      = (sampleEnum.pcie.select.ptr .prefetch).isSome by decide +kernel]
  have hprefetch : ∀ r ∈ machineRequests .prefetch (mapProbed 0xc0000000).pcie quietMachine,
      r = .round (2 ^ 20) ∨ r = .rewind := by decide +kernel
  refine ⟨fun k hk => ?_, fun k _ => ?_, fun k hk htakes => ?_, fun _ _ => ?_⟩
  · refine everyStep_exact_of_high (busSized_of_mem_machineRequests hk _ quietMachine_conforming)
      (hfits k) ?_ (regionArena_start_le _)
    cases k <;> decide +kernel
  · rw [hrequests]
    exact (quietMachine_settled k).oneStretch .bar
  · cases k with
    | io => exact absurd rfl hk
    | mem =>
      unfold RegionClear
      decide +kernel
    | prefetch =>
      obtain ⟨size, htake⟩ := htakes
      rcases hprefetch _ htake with h | h <;> cases h
  · unfold RegionsApart
    decide +kernel

/-- A region from 3 GiB of the bus on, and functions on the last bus only. -/
theorem spansApart_quiet : ∃ bus configured e',
    enumerate quietMachine ⟨(mapProbed 0xc0000000).pcie, {}⟩ = .ok (bus, configured) e' ∧
      SpansApart (mapProbed 0xc0000000) configured := by
  obtain ⟨bus, configured, e', hok⟩ :=
    @exists_of_scanOk _ quietMachine ⟨(mapProbed 0xc0000000).pcie, {}⟩ (by decide +kernel)
  have haccepted : Accepted (mapPlatform 0xc0000000) sampleRc.memory.available
      (sampleRegion 0 0x40000000) (mapRegions 0xc0000000) :=
    ⟨_, rfl, by decide, rfl, rfl⟩
  have hspec := spansApart_of_probe haccepted (probed_ok (mapPlatform 0xc0000000) (by decide +kernel))
    quietMachine_topology quietMachine_conforming hok
  exact ⟨bus, configured, e', hok, hspec.1 mapProbed_cond⟩

/-- A region from the start of the bus on: the BARs of the same machine lie in the inbound window. -/
theorem spansApart_fails : ∃ bus configured e' region regions,
    Accepted (mapPlatform 0) sampleRc.memory.available region regions ∧
      brcmPcieProbe (mapPlatform 0) 0 sampleRc = .ok () (mapProbed 0) ∧
      Topology quietMachine ∧
      (∀ hw ∈ quietMachine.toList,
        ConformingBars hw.cfg hw.headerType (headerBars hw.headerType)) ∧
      enumerate quietMachine ⟨(mapProbed 0).pcie, {}⟩ = .ok (bus, configured) e' ∧
      ¬ SpansApart (mapProbed 0) configured := by
  obtain ⟨bus, configured, e', hok⟩ :=
    @exists_of_scanOk _ quietMachine ⟨(mapProbed 0).pcie, {}⟩ (by decide +kernel)
  refine ⟨bus, configured, e', sampleRegion 0 0x40000000, mapRegions 0,
    ⟨_, rfl, by decide, rfl, rfl⟩, probed_ok (mapPlatform 0) (by decide +kernel), quietMachine_topology,
    quietMachine_conforming, hok, ?_⟩
  have hspans : (match enumerate quietMachine ⟨(mapProbed 0).pcie, {}⟩ with
      | .ok r _ => busSpans (mapProbed 0) r.2
      | .error _ _ => []) =
      [⟨0, 0x40000000, .memory⟩, ⟨0xfffffffc, 4, .doorbell⟩, ⟨0x1000, 0x1000, .bar⟩,
        ⟨0x2000, 0x1000, .bar⟩] := by
    decide +kernel
  rw [hok] at hspans
  have hlist : busSpans (mapProbed 0) configured = _ := hspans
  unfold SpansApart
  rw [hlist]
  intro hapart
  have hfirst := (List.pairwise_cons.1 hapart).1 ⟨0x1000, 0x1000, .bar⟩ (by decide)
  revert hfirst
  unfold Block.Apart
  decide

end BcmPcie
