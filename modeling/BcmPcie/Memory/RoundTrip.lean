import BcmPcie.Memory.KnownRanges

/-! # There and back

A 68k address in a BAR or in Fast RAM, translated to the bus and back, and a bus address the other
way. The two translations search by different keys and fall back to the region table by different
keys; they agree where neither the tests for a BAR nor the table picks a foreign entry.

* `RangesApart` — a device whose mapped BARs and Fast RAM share no address.
* `physic_of_virt`, `logic_of_bus` — the translations inside a BAR.
* `roundTrip_iff` — when every address comes back. -/

namespace BcmPcie

open Windows

variable {σ : Type*}

/-! ## The setting -/

/-- The region table of a controller was built from the device tree; only the allocation pointers have
moved since. -/
def Registered (pcie : PciController σ) : Prop :=
  ∃ common node memList alloc regions, devtreeRegions common node memList alloc = .ok regions ∧
    pcie.regions.map (fun res => { res with busLower := 0 })
      = regions.map fun res => { res with busLower := 0 }

section Setting

variable (pcie : PciController σ) (dev : PciDevice)

/-- The mapped BARs of a device share no address on the bus or of the 68k, with each other or with Fast
RAM, and all of it lies in the 32-bit space. -/
structure RangesApart : Prop where
  bus : (dev.slots.filter fun bar => decide bar.Mapped).Pairwise
    fun bar bar' => bar.busWindow.Apart bar'.busWindow
  virt : (dev.slots.filter fun bar => decide bar.Mapped).Pairwise
    fun bar bar' => bar.virtWindow.Apart bar'.virtWindow
  ramBus : ∀ bar ∈ dev.slots, bar.Mapped → ∀ res ∈ pcie.regions, res.IsSysMemory →
    bar.busWindow.Apart res.busWindow
  ramVirt : ∀ bar ∈ dev.slots, bar.Mapped → ∀ res ∈ pcie.regions, res.IsSysMemory →
    bar.virtWindow.Apart res.cpuWindow
  busEnd : ∀ bar ∈ dev.slots, bar.Mapped → bar.busAddr.toNat + bar.size.toNat ≤ 2 ^ 32
  virtEnd : ∀ bar ∈ dev.slots, bar.Mapped → bar.pointer.toNat + bar.size.toNat ≤ 2 ^ 32

/-- A 68k address in a mapped BAR of the device or in Fast RAM. -/
def InLogic (addr : BitVec 32) : Prop :=
  (∃ bar ∈ dev.slots, bar.Mapped ∧ bar.virtWindow.Decodes addr.toNat) ∨
    ∃ res ∈ pcie.regions, res.IsSysMemory ∧ res.cpuWindow.Decodes addr.toNat

/-- A bus address in a mapped BAR of the device or in Fast RAM. -/
def InBus (addr : BitVec 32) : Prop :=
  (∃ bar ∈ dev.slots, bar.Holds addr) ∨
    ∃ res ∈ pcie.regions, res.IsSysMemory ∧ res.busWindow.Decodes addr.toNat

/-- Every address in those ranges but 0 is translated to one that is translated back. -/
def RoundTrip : Prop :=
  ∀ addr, addr ≠ 0 →
    (InLogic pcie dev addr → libLogicToPhysic pcie dev addr ≠ 0 ∧
      libPhysicToLogic pcie dev (libLogicToPhysic pcie dev addr) = addr) ∧
    (InBus pcie dev addr → libPhysicToLogic pcie dev addr ≠ 0 ∧
      libLogicToPhysic pcie dev (libPhysicToLogic pcie dev addr) = addr)

/-- The first region of the table, of any type, that holds a 68k address is `shift` away from the bus for
the CPU, in 32 bits. An empty table leaves an address as it is, and one that no region holds is given
0. -/
def CpuShifted (addr shift : BitVec 32) : Prop :=
  if pcie.regions = [] then shift = 0
  else
    match pcie.cpuRegion addr with
    | some first => first.shift = shift
    | none => shift = addr

/-- No mapped BAR is at bus address 0; where one ends at 4 GiB, on the bus or where the CPU sees it, the
first region of the table that holds one of its addresses is as far from the bus to the CPU as the BAR;
and the first that holds an address of Fast RAM has the bus where the CPU is. -/
def RoundTripCond : Prop :=
  (∀ bar ∈ dev.slots, bar.Mapped → 0 < bar.size.toNat →
    bar.busAddr ≠ 0 ∧
    (bar.pointer.toNat + bar.size.toNat < 2 ^ 32 ∨ ∀ addr : BitVec 32,
      bar.virtWindow.Decodes addr.toNat → CpuShifted pcie addr bar.shift) ∧
    (bar.busAddr.toNat + bar.size.toNat < 2 ^ 32 ∨ ∀ addr : BitVec 32,
      bar.busWindow.Decodes addr.toNat → BusShifted pcie addr bar.shift)) ∧
  ∀ res ∈ pcie.regions, res.IsSysMemory → ∀ addr : BitVec 32, addr ≠ 0 →
    res.busWindow.Decodes addr.toNat → CpuShifted pcie addr 0 ∧ BusShifted pcie addr 0

/-- The CPU sees every BAR below 4 GiB, and the windows onto the bus above. -/
def HighWindows : Prop :=
  (∀ bar ∈ dev.slots, bar.Mapped → bar.pointer.toNat + bar.size.toNat < 2 ^ 32) ∧
    ∀ res ∈ pcie.regions, ¬ res.IsSysMemory → 2 ^ 32 ≤ res.physStart.toNat

end Setting

variable {pcie : PciController σ} {dev : PciDevice} {addr : BitVec 32}

/-- Fast RAM of a registered table has one address on the bus and of the CPU. -/
theorem Registered.sysMemory (h : Registered pcie) : ∀ res ∈ pcie.regions, res.IsSysMemory →
    res.physStart.toNat = res.busStart.toNat ∧ res.cpuWindow = res.busWindow := by
  intro res hmem hsys
  obtain ⟨common, node, memList, alloc, regions, hok, hmap⟩ := h
  have hfields : ({ res with busLower := 0 } : PciRegion) ∈
      regions.map fun res => { res with busLower := 0 } := by
    rw [← hmap]
    exact List.mem_map_of_mem hmem
  obtain ⟨res', hmem', heq⟩ := List.mem_map.1 hfields
  rw [PciRegion.mk.injEq] at heq
  obtain ⟨hbus, hphys, -, hflags, -⟩ := heq
  obtain ⟨-, hidentity, -⟩ := sysMemory_of_mem hok res' hmem' (hflags.trans hsys)
  rw [hbus, hphys] at hidentity
  refine ⟨hidentity, ?_⟩
  unfold PciRegion.cpuWindow PciRegion.busWindow Window.reverse
  rw [hidentity]

/-- The table translates an address of Fast RAM to itself, if it is Fast RAM that is found. -/
theorem physic_of_sysMemory (h : Registered pcie) {res : PciRegion} (hmem : res ∈ pcie.regions)
    (hsys : res.IsSysMemory) : res.physic addr = addr ∧ res.logic addr = addr := by
  obtain ⟨hidentity, -⟩ := h.sysMemory res hmem hsys
  have hphys : res.physStart = res.busStart.setWidth 64 := by
    apply BitVec.eq_of_toNat_eq
    have hstart := res.busStart.isLt
    rw [BitVec.toNat_setWidth, hidentity]
    omega
  have hlogic : res.logic addr = addr := by
    apply BitVec.eq_of_toNat_eq
    have haddr := addr.isLt
    have hstart := res.busStart.isLt
    unfold PciRegion.logic
    rw [hphys, BitVec.toNat_setWidth, BitVec.toNat_add, BitVec.toNat_setWidth, BitVec.toNat_setWidth,
      BitVec.toNat_sub]
    omega
  refine ⟨?_, hlogic⟩
  unfold PciRegion.physic
  rw [hphys, BitVec.add_comm, BitVec.sub_add_cancel]
  exact BitVec.setWidth_setWidth_of_le addr (by decide)

/-- What the region table gives for a 68k address; an empty table gives the address itself. -/
def tablePhysic (pcie : PciController σ) (addr : BitVec 32) : BitVec 32 :=
  if pcie.regions = [] then addr else ((pcie.cpuRegion addr).map (·.physic addr)).getD 0

/-- Where `LibLogicToPhysic` looks when no BAR holds the address. -/
theorem tablePhysic_eq : pciPhysToBus pcie (addr.setWidth 64) 1 0 0 = tablePhysic pcie addr := by
  unfold tablePhysic
  by_cases hnil : pcie.regions = []
  · have hlen : pcie.regions.length = 0 := List.length_eq_zero_iff.2 hnil
    rw [if_pos hnil]
    unfold pciPhysToBus
    rw [if_pos hlen]
    exact BitVec.setWidth_setWidth_of_le addr (by decide)
  · rw [if_neg hnil]
    exact PciController.physic_cpuRegion addr hnil

/-- The table moves a 68k address back by the distance of the first region that holds it. -/
theorem tablePhysic_eq_iff {shift : BitVec 32} :
    tablePhysic pcie addr = addr - shift ↔ CpuShifted pcie addr shift := by
  have hcancel {x y : BitVec 32} : addr - x = addr - y ↔ x = y := by
    constructor <;> intro h <;> bv_omega
  unfold tablePhysic CpuShifted
  by_cases hnil : pcie.regions = []
  · rw [if_pos hnil, if_pos hnil]
    constructor <;> intro h <;> bv_omega
  · rw [if_neg hnil, if_neg hnil]
    cases pcie.cpuRegion addr with
    | none =>
      show 0#32 = addr - shift ↔ shift = addr
      constructor <;> intro h <;> bv_omega
    | some first =>
      show first.physic addr = addr - shift ↔ first.shift = shift
      rw [PciRegion.physic_eq]
      exact hcancel

/-- A BAR moves one back by its own distance. -/
theorem PciBarInfo.physic_eq (bar : PciBarInfo) (addr : BitVec 32) :
    bar.busAddr + (addr - bar.pointer) = addr - bar.shift := by
  unfold PciBarInfo.shift
  bv_omega

/-- The table leaves an address as it is if the first region that holds it, on either side, has the bus
where the CPU is. -/
theorem unmoved_iff : tablePhysic pcie addr = addr ∧ tableLogic pcie addr = addr ↔
    CpuShifted pcie addr 0 ∧ BusShifted pcie addr 0 := by
  rw [← tablePhysic_eq_iff, ← tableLogic_eq_iff]
  exact and_congr (by rw [BitVec.ofNat_eq_ofNat, BitVec.sub_zero])
    (by rw [BitVec.ofNat_eq_ofNat, BitVec.zero_add])

/-! ## The translations -/

section Apart

variable {bar : PciBarInfo} (h : RangesApart pcie dev)

include h

/-- Of the mapped BARs, one alone holds a 68k address. -/
theorem RangesApart.eq_of_virt {bar' : PciBarInfo} (hbar : bar ∈ dev.slots) (hmapped : bar.Mapped)
    (hbar' : bar' ∈ dev.slots) (hmapped' : bar'.Mapped) (hin : bar.virtWindow.Decodes addr.toNat)
    (hin' : bar'.virtWindow.Decodes addr.toNat) : bar = bar' :=
  Window.eq_of_decodes h.virt (List.mem_filter.2 ⟨hbar, decide_eq_true hmapped⟩)
    (List.mem_filter.2 ⟨hbar', decide_eq_true hmapped'⟩) hin hin'

/-- Of the mapped BARs, one alone holds a bus address. -/
theorem RangesApart.eq_of_bus {bar' : PciBarInfo} (hbar : bar ∈ dev.slots) (hmapped : bar.Mapped)
    (hbar' : bar' ∈ dev.slots) (hmapped' : bar'.Mapped) (hin : bar.busWindow.Decodes addr.toNat)
    (hin' : bar'.busWindow.Decodes addr.toNat) : bar = bar' :=
  Window.eq_of_decodes h.bus (List.mem_filter.2 ⟨hbar, decide_eq_true hmapped⟩)
    (List.mem_filter.2 ⟨hbar', decide_eq_true hmapped'⟩) hin hin'

/-- **From the 68k to the bus, inside a BAR**: through the BAR if it ends below 4 GiB, else through the
table. -/
theorem physic_of_virt (hbar : bar ∈ dev.slots) (hmapped : bar.Mapped)
    (hin : bar.virtWindow.Decodes addr.toNat) :
    libLogicToPhysic pcie dev addr =
      if bar.pointer.toNat + bar.size.toNat < 2 ^ 32 then bar.busAddr + (addr - bar.pointer)
      else tablePhysic pcie addr := by
  have hne : addr ≠ 0 := by
    rintro rfl
    have hpointer : bar.pointer.toNat = 0 := Nat.le_zero.1 hin.1
    exact hmapped.2 (BitVec.eq_of_toNat_eq hpointer)
  unfold libLogicToPhysic
  rw [if_neg hne]
  cases hfind : dev.slots.find? fun bar => VirtHit addr bar with
  | some bar' =>
    obtain ⟨hbar', hhit⟩ := of_find?_eq_some hfind
    obtain ⟨hmapped', hin', hend⟩ := virtHit_iff.1 hhit
    obtain rfl := h.eq_of_virt hbar hmapped hbar' hmapped' hin hin'
    rw [if_pos hend]
  | none =>
    have hmiss := find?_eq_none_iff.1 hfind bar hbar
    rw [if_neg fun hend => hmiss (virtHit_iff.2 ⟨hmapped, hin, hend⟩)]
    exact tablePhysic_eq

/-- **From the bus to the 68k, inside a BAR.** -/
theorem logic_of_bus (hbar : bar ∈ dev.slots) (hmapped : bar.Mapped)
    (hin : bar.busWindow.Decodes addr.toNat) (hne : addr ≠ 0) :
    libPhysicToLogic pcie dev addr =
      if bar.busAddr.toNat + bar.size.toNat < 2 ^ 32 then bar.address addr
      else tableLogic pcie addr := by
  unfold libPhysicToLogic
  rw [if_neg hne]
  cases hfind : dev.slots.find? fun bar => BusHit addr bar with
  | some bar' =>
    obtain ⟨hbar', hhit⟩ := of_find?_eq_some hfind
    obtain ⟨hmapped', hin', hend⟩ := busHit_iff.1 hhit
    obtain rfl := h.eq_of_bus hbar hmapped hbar' hmapped' hin hin'
    rw [if_pos hend]
    rfl
  | none =>
    have hmiss := find?_eq_none_iff.1 hfind bar hbar
    rw [if_neg fun hend => hmiss (busHit_iff.2 ⟨hmapped, hin, hend⟩)]
    exact tableLogic_eq

/-- **From the 68k to the bus, in Fast RAM.** -/
theorem physic_of_ram {res : PciRegion} (hmem : res ∈ pcie.regions) (hsys : res.IsSysMemory)
    (hin : res.cpuWindow.Decodes addr.toNat) (hne : addr ≠ 0) :
    libLogicToPhysic pcie dev addr = tablePhysic pcie addr := by
  have hmiss : (dev.slots.find? fun bar => VirtHit addr bar) = none := by
    refine find?_eq_none_iff.2 fun bar hbar hhit => ?_
    obtain ⟨hmapped, hin', -⟩ := virtHit_iff.1 hhit
    exact (h.ramVirt bar hbar hmapped res hmem hsys).not_decodes hin' hin
  unfold libLogicToPhysic
  rw [if_neg hne, hmiss]
  exact tablePhysic_eq

/-- **From the bus to the 68k, in Fast RAM.** -/
theorem logic_of_ram {res : PciRegion} (hmem : res ∈ pcie.regions) (hsys : res.IsSysMemory)
    (hin : res.busWindow.Decodes addr.toNat) (hne : addr ≠ 0) :
    libPhysicToLogic pcie dev addr = tableLogic pcie addr := by
  have hmiss : (dev.slots.find? fun bar => BusHit addr bar) = none := by
    refine find?_eq_none_iff.2 fun bar hbar hhit => ?_
    obtain ⟨hmapped, hin', -⟩ := busHit_iff.1 hhit
    exact (h.ramBus bar hbar hmapped res hmem hsys).not_decodes hin' hin
  unfold libPhysicToLogic
  rw [if_neg hne, hmiss]
  exact tableLogic_eq

end Apart

/-! ## There and back -/

/-- The place of a 68k address of a BAR on the bus, and back. -/
theorem PciBarInfo.busWindow_of_virt {bar : PciBarInfo} (hbus : bar.busAddr ≠ 0)
    (hend : bar.busAddr.toNat + bar.size.toNat ≤ 2 ^ 32) (hin : bar.virtWindow.Decodes addr.toNat) :
    let p := bar.busAddr + (addr - bar.pointer)
    p ≠ 0 ∧ bar.busWindow.Decodes p.toNat ∧ bar.address p = addr := by
  intro p
  obtain ⟨hlow, hhigh⟩ := hin
  simp only [PciBarInfo.virtWindow, PciBarInfo.busWindow, Window.reverse] at hlow hhigh
  have hoff : (addr - bar.pointer).toNat = addr.toNat - bar.pointer.toNat :=
    BitVec.toNat_sub_of_le hlow
  have hp : p.toNat = bar.busAddr.toNat + (addr.toNat - bar.pointer.toNat) := by
    rw [BitVec.toNat_add, hoff, Nat.mod_eq_of_lt (by omega)]
  have hpos : bar.busAddr.toNat ≠ 0 := fun hzero => hbus (BitVec.eq_of_toNat_eq hzero)
  refine ⟨fun hzero => ?_, ⟨?_, ?_⟩, ?_⟩
  · have hp0 : p.toNat = 0 := by rw [hzero]; rfl
    omega
  · show bar.busAddr.toNat ≤ p.toNat
    omega
  · show p.toNat < bar.busAddr.toNat + bar.size.toNat
    omega
  · show bar.pointer + (bar.busAddr + (addr - bar.pointer) - bar.busAddr) = addr
    rw [BitVec.add_comm bar.busAddr, BitVec.add_sub_cancel, BitVec.add_comm, BitVec.sub_add_cancel]

/-- The place of a bus address of a BAR, and back. -/
theorem PciBarInfo.virtWindow_of_bus {bar : PciBarInfo} (hmapped : bar.Mapped)
    (hend : bar.pointer.toNat + bar.size.toNat ≤ 2 ^ 32) (hin : bar.busWindow.Decodes addr.toNat) :
    let l := bar.address addr
    l ≠ 0 ∧ bar.virtWindow.Decodes l.toNat ∧ bar.busAddr + (l - bar.pointer) = addr := by
  intro l
  obtain ⟨hlow, hhigh⟩ := hin
  simp only [PciBarInfo.busWindow] at hlow hhigh
  have hoff : (addr - bar.busAddr).toNat = addr.toNat - bar.busAddr.toNat :=
    BitVec.toNat_sub_of_le hlow
  have hl : l.toNat = bar.pointer.toNat + (addr.toNat - bar.busAddr.toNat) := by
    show (bar.pointer + (addr - bar.busAddr)).toNat = _
    rw [BitVec.toNat_add, hoff, Nat.mod_eq_of_lt (by omega)]
  have hpos : bar.pointer.toNat ≠ 0 := fun hzero => hmapped.2 (BitVec.eq_of_toNat_eq hzero)
  refine ⟨fun hzero => ?_, ⟨?_, ?_⟩, ?_⟩
  · have hl0 : l.toNat = 0 := by rw [hzero]; rfl
    omega
  · show bar.pointer.toNat ≤ l.toNat
    omega
  · show l.toNat < bar.pointer.toNat + bar.size.toNat
    omega
  · show bar.busAddr + (bar.pointer + (addr - bar.busAddr) - bar.pointer) = addr
    rw [BitVec.add_comm bar.pointer, BitVec.add_sub_cancel, BitVec.add_comm, BitVec.sub_add_cancel]

/-- Under the condition every address comes back. -/
theorem roundTrip_of_cond (h : RangesApart pcie dev) (hreg : Registered pcie)
    (hcond : RoundTripCond pcie dev) : RoundTrip pcie dev := by
  obtain ⟨hbars, hram⟩ := hcond
  -- inside a BAR the two calls do what the BAR does
  have hvirt : ∀ bar ∈ dev.slots, bar.Mapped → ∀ a : BitVec 32, bar.virtWindow.Decodes a.toNat →
      libLogicToPhysic pcie dev a = bar.busAddr + (a - bar.pointer) := by
    intro bar hbar hmapped a hin
    have hsize : 0 < bar.size.toNat := hin.size_pos
    rw [physic_of_virt h hbar hmapped hin]
    split
    · rfl
    · rename_i hhigh
      rw [PciBarInfo.physic_eq]
      exact tablePhysic_eq_iff.2 (((hbars bar hbar hmapped hsize).2.1.resolve_left hhigh) a hin)
  have hbus : ∀ bar ∈ dev.slots, bar.Mapped → ∀ a : BitVec 32, bar.busWindow.Decodes a.toNat →
      a ≠ 0 → libPhysicToLogic pcie dev a = bar.address a := by
    intro bar hbar hmapped a hin hne
    have hsize : 0 < bar.size.toNat := hin.size_pos
    rw [logic_of_bus h hbar hmapped hin hne]
    split
    · rfl
    · rename_i hhigh
      rw [PciBarInfo.address_eq]
      exact tableLogic_eq_iff.2 (((hbars bar hbar hmapped hsize).2.2.resolve_left hhigh) a hin)
  -- and in Fast RAM both leave the address as it is
  have hrambus : ∀ res ∈ pcie.regions, res.IsSysMemory → ∀ a : BitVec 32, a ≠ 0 →
      res.busWindow.Decodes a.toNat →
      libLogicToPhysic pcie dev a = a ∧ libPhysicToLogic pcie dev a = a := by
    intro res hmem hsys a hne hin
    have hcpu : res.cpuWindow.Decodes a.toNat := by
      rw [(hreg.sysMemory res hmem hsys).2]
      exact hin
    obtain ⟨hphysic, hlogic⟩ := unmoved_iff.2 (hram res hmem hsys a hne hin)
    exact ⟨(physic_of_ram h hmem hsys hcpu hne).trans hphysic,
      (logic_of_ram h hmem hsys hin hne).trans hlogic⟩
  intro a hne
  constructor
  · rintro (⟨bar, hbar, hmapped, hin⟩ | ⟨res, hmem, hsys, hin⟩)
    · have hsize : 0 < bar.size.toNat := hin.size_pos
      obtain ⟨hp, hpin, hback⟩ := PciBarInfo.busWindow_of_virt (hbars bar hbar hmapped hsize).1
        (h.busEnd bar hbar hmapped) hin
      rw [hvirt bar hbar hmapped a hin, hbus bar hbar hmapped _ hpin hp]
      exact ⟨hp, hback⟩
    · rw [(hreg.sysMemory res hmem hsys).2] at hin
      obtain ⟨hphysic, hlogic⟩ := hrambus res hmem hsys a hne hin
      rw [hphysic, hlogic]
      exact ⟨hne, rfl⟩
  · rintro (⟨bar, hbar, hmapped, hin⟩ | ⟨res, hmem, hsys, hin⟩)
    · obtain ⟨hl, hlin, hback⟩ := PciBarInfo.virtWindow_of_bus hmapped (h.virtEnd bar hbar hmapped) hin
      rw [hbus bar hbar hmapped a hin hne, hvirt bar hbar hmapped _ hlin]
      exact ⟨hl, hback⟩
    · obtain ⟨hphysic, hlogic⟩ := hrambus res hmem hsys a hne hin
      rw [hlogic, hphysic]
      exact ⟨hne, rfl⟩

/-- Where the CPU sees BARs below 4 GiB and the windows onto the bus above, only such devices have every
address come back. -/
theorem cond_of_roundTrip (h : RangesApart pcie dev) (hreg : Registered pcie)
    (hhigh : HighWindows pcie dev) (htrip : RoundTrip pcie dev) : RoundTripCond pcie dev := by
  obtain ⟨hlow, hwindows⟩ := hhigh
  have hvirt : ∀ bar ∈ dev.slots, bar.Mapped → ∀ a : BitVec 32, bar.virtWindow.Decodes a.toNat →
      libLogicToPhysic pcie dev a = bar.busAddr + (a - bar.pointer) := by
    intro bar hbar hmapped a hin
    rw [physic_of_virt h hbar hmapped hin, if_pos (hlow bar hbar hmapped)]
  -- a region with a CPU address below 4 GiB is Fast RAM, which the table leaves as it is
  have hregion : ∀ a : BitVec 32, pcie.regions ≠ [] → tablePhysic pcie a ≠ 0 →
      tablePhysic pcie a = a := by
    intro a hnil hne
    unfold tablePhysic at hne ⊢
    rw [if_neg hnil] at hne ⊢
    cases hfind : pcie.cpuRegion a with
    | none =>
      rw [hfind] at hne
      exact absurd rfl hne
    | some res =>
      obtain ⟨hmem, hin⟩ := of_find?_eq_some hfind
      have hsys : res.IsSysMemory := by
        by_contra hnot
        have hphys := hwindows res hmem hnot
        have hle : res.physStart.toNat ≤ a.toNat := hin.1
        have hlt := a.isLt
        omega
      exact (physic_of_sysMemory hreg hmem hsys).1
  constructor
  · intro bar hbar hmapped hsize
    have hbus : bar.busAddr ≠ 0 := by
      -- the first byte of the BAR
      have hin : bar.virtWindow.Decodes bar.pointer.toNat :=
        ⟨le_rfl, by show _ < bar.pointer.toNat + bar.size.toNat; omega⟩
      have hfirst := ((htrip bar.pointer hmapped.2).1 (Or.inl ⟨bar, hbar, hmapped, hin⟩)).1
      rw [hvirt bar hbar hmapped _ hin, BitVec.sub_self, BitVec.add_zero] at hfirst
      exact hfirst
    refine ⟨hbus, Or.inl (hlow bar hbar hmapped), or_iff_not_imp_left.2 fun hend a hin => ?_⟩
    have hne : a ≠ 0 := by
      rintro rfl
      have hzero : bar.busAddr.toNat = 0 := Nat.le_zero.1 hin.1
      exact hbus (BitVec.eq_of_toNat_eq hzero)
    obtain ⟨hl, hlin, hback⟩ := PciBarInfo.virtWindow_of_bus hmapped (h.virtEnd bar hbar hmapped) hin
    have hcome := ((htrip _ hl).1 (Or.inl ⟨bar, hbar, hmapped, hlin⟩)).2
    rw [hvirt bar hbar hmapped _ hlin, hback, logic_of_bus h hbar hmapped hin hne, if_neg hend,
      PciBarInfo.address_eq] at hcome
    exact tableLogic_eq_iff.1 hcome
  · intro res hmem hsys a hne hin
    have hnil : pcie.regions ≠ [] := List.ne_nil_of_mem hmem
    have hcpu : res.cpuWindow.Decodes a.toNat := by
      rw [(hreg.sysMemory res hmem hsys).2]
      exact hin
    have hthere := ((htrip a hne).1 (Or.inr ⟨res, hmem, hsys, hcpu⟩)).1
    rw [physic_of_ram h hmem hsys hcpu hne] at hthere
    refine unmoved_iff.1 ⟨hregion a hnil hthere, ?_⟩
    obtain ⟨hl, hback⟩ := (htrip a hne).2 (Or.inr ⟨res, hmem, hsys, hin⟩)
    rw [logic_of_ram h hmem hsys hin hne] at hl hback
    -- what the table gives is in no BAR, as the BAR's bus addresses are not Fast RAM's
    have hmiss : (dev.slots.find? fun bar => VirtHit (tableLogic pcie a) bar) = none := by
      refine find?_eq_none_iff.2 fun bar hbar hhit => ?_
      obtain ⟨hmapped, hin', -⟩ := virtHit_iff.1 hhit
      rw [hvirt bar hbar hmapped _ hin'] at hback
      obtain ⟨hlow', hhigh'⟩ := hin'
      simp only [PciBarInfo.virtWindow, PciBarInfo.busWindow, Window.reverse] at hlow' hhigh'
      have hoff : (tableLogic pcie a - bar.pointer).toNat
          = (tableLogic pcie a).toNat - bar.pointer.toNat := BitVec.toNat_sub_of_le hlow'
      have hend := h.busEnd bar hbar hmapped
      have ha : a.toNat
          = bar.busAddr.toNat + ((tableLogic pcie a).toNat - bar.pointer.toNat) := by
        rw [← hback, BitVec.toNat_add, hback, hoff, Nat.mod_eq_of_lt (by omega)]
      refine (h.ramBus bar hbar hmapped res hmem hsys).not_decodes (a := a.toNat) ⟨?_, ?_⟩ hin
      · show bar.busAddr.toNat ≤ a.toNat
        omega
      · show a.toNat < bar.busAddr.toNat + bar.size.toNat
        omega
    have htable : libLogicToPhysic pcie dev (tableLogic pcie a)
        = tablePhysic pcie (tableLogic pcie a) := by
      unfold libLogicToPhysic
      rw [if_neg hl, hmiss]
      exact tablePhysic_eq
    rw [htable] at hback
    have hsame := hregion (tableLogic pcie a) hnil (by rw [hback]; exact hne)
    exact hsame.symm.trans hback

/-- The table leaves Fast RAM as it is where the windows onto the bus are above 4 GiB for the CPU and
clear of Fast RAM on the bus. -/
theorem ram_of_apart (hreg : Registered pcie)
    (hhigh : ∀ res ∈ pcie.regions, ¬ res.IsSysMemory → 2 ^ 32 ≤ res.physStart.toNat)
    (hapart : ∀ res ∈ pcie.regions, ¬ res.IsSysMemory → ∀ ram ∈ pcie.regions, ram.IsSysMemory →
      res.busWindow.Apart ram.busWindow) :
    ∀ res ∈ pcie.regions, res.IsSysMemory → ∀ addr, res.busWindow.Decodes addr.toNat →
      tablePhysic pcie addr = addr ∧ tableLogic pcie addr = addr := by
  intro ram hram hsys a hin
  have hnil : pcie.regions ≠ [] := List.ne_nil_of_mem hram
  have hcpu : ram.cpuWindow.Decodes a.toNat := by
    rw [(hreg.sysMemory ram hram hsys).2]
    exact hin
  constructor
  · unfold tablePhysic
    rw [if_neg hnil]
    -- a 32-bit address is below every window onto the bus, so what is found first is Fast RAM
    cases hfind : pcie.cpuRegion a with
    | none => exact absurd hcpu (find?_eq_none_iff.1 hfind ram hram)
    | some res =>
      obtain ⟨hmem, hin'⟩ := of_find?_eq_some hfind
      have hres : res.IsSysMemory := by
        by_contra hnot
        have hphys := hhigh res hmem hnot
        have hle : res.physStart.toNat ≤ a.toNat := hin'.1
        have hlt := a.isLt
        omega
      exact (physic_of_sysMemory hreg hmem hres).1
  · unfold tableLogic
    rw [if_neg hnil]
    cases hfind : pcie.busRegion a with
    | none => exact absurd hin (find?_eq_none_iff.1 hfind ram hram)
    | some res =>
      obtain ⟨hmem, hin'⟩ := of_find?_eq_some hfind
      have hres : res.IsSysMemory := by
        by_contra hnot
        exact (hapart res hmem hnot ram hram hsys).not_decodes hin' hin
      exact (physic_of_sysMemory hreg hmem hres).2

/-- **There and back.** On a device whose mapped BARs and Fast RAM share no address, every address comes
back under the condition; and only under it, where the CPU sees the BARs below 4 GiB and the windows
onto the bus above. -/
theorem roundTrip_iff (h : RangesApart pcie dev) (hreg : Registered pcie) :
    (RoundTripCond pcie dev → RoundTrip pcie dev) ∧
      (HighWindows pcie dev → (RoundTrip pcie dev ↔ RoundTripCond pcie dev)) :=
  ⟨roundTrip_of_cond h hreg,
    fun hhigh => ⟨cond_of_roundTrip h hreg hhigh, roundTrip_of_cond h hreg⟩⟩

/-! ## A controller with Fast RAM -/

/-- A node with one window onto the bus, at 24 GiB for the CPU, and an inbound window of 4 GiB. -/
def sampleNode : DtNode where
  ranges := some [0x02000000, 0, 0xc0000000, 6, 0, 0, 0x40000000]
  dmaRanges := some [0x02000000, 4, 0, 0, 0, 1, 0]
  addressCells := 3
  sizeCells := 2

/-- Fast RAM from 128 MiB up to 1 GiB. -/
def sampleMemList : List MemHeader := [⟨memfFast, 0x08000000, 0x40000000⟩]

/-- A controller with the regions of the node. -/
def ramController : PciController Unit :=
  { sampleController with
    regions :=
      [{ busStart := 0xc0000000, physStart := 0x600000000, size := 0x40000000, flags := pciRegionMem },
        { busStart := 0x08000000, physStart := 0x08000000, size := 0x38000000
          flags := pciRegionMem ||| pciRegionSysMemory }] }

/-- The sample controller has its regions registered. -/
theorem ramController_registered : Registered ramController :=
  ⟨Emu68Common.plain, sampleNode, sampleMemList, true, ramController.regions, by decide +kernel, rfl⟩

/-- The sample BAR and the RAM do not overlap. -/
theorem mappedDevice_rangesApart {busAddr size : BitVec 32}
    (hbus : 0x40000000 ≤ busAddr.toNat ∧ busAddr.toNat + size.toNat ≤ 2 ^ 32)
    (hsize : size.toNat ≤ 0x80000000) : RangesApart ramController (mappedDevice busAddr size) := by
  have hslots : ∀ bar ∈ (mappedDevice busAddr size).slots,
      bar.busAddr = busAddr ∧ bar.size = size ∧ bar.pointer.toNat = 0x40000000 := by
    intro bar hbar
    obtain rfl := List.mem_singleton.1 hbar
    exact ⟨rfl, rfl, rfl⟩
  -- Fast RAM ends at 1 GiB, where the BAR is shown to the CPU
  have hram : ∀ res ∈ ramController.regions, res.IsSysMemory →
      res.busStart.toNat + res.size.toNat = 0x40000000 ∧
        res.physStart.toNat + res.size.toNat = 0x40000000 := by
    decide
  refine ⟨(List.pairwise_singleton _ _).filter _, (List.pairwise_singleton _ _).filter _, ?_, ?_, ?_,
    ?_⟩
  · intro bar hbar _ res hmem hsys
    obtain ⟨haddr, -, -⟩ := hslots bar hbar
    refine Or.inr ?_
    show res.busStart.toNat + res.size.toNat ≤ bar.busAddr.toNat
    rw [(hram res hmem hsys).1, haddr]
    exact hbus.1
  · intro bar hbar _ res hmem hsys
    refine Or.inr ?_
    show res.physStart.toNat + res.size.toNat ≤ bar.pointer.toNat
    rw [(hram res hmem hsys).2, (hslots bar hbar).2.2]
  · intro bar hbar _
    obtain ⟨haddr, hlen, -⟩ := hslots bar hbar
    rw [haddr, hlen]
    exact hbus.2
  · intro bar hbar _
    obtain ⟨-, hlen, hpointer⟩ := hslots bar hbar
    rw [hlen, hpointer]
    omega

/-- A function with one BAR that ends well below 4 GiB. -/
theorem roundTrip_sample :
    RangesApart ramController (mappedDevice 0xc0000000 0x1000) ∧ Registered ramController ∧
      RoundTrip ramController (mappedDevice 0xc0000000 0x1000) := by
  have hapart := @mappedDevice_rangesApart 0xc0000000 0x1000 (by decide) (by decide)
  have hram := @ram_of_apart _ ramController ramController_registered (by decide) (by decide)
  refine ⟨hapart, ramController_registered,
    (roundTrip_iff hapart ramController_registered).1 ⟨?_, ?_⟩⟩
  · intro bar hbar _ _
    obtain rfl := List.mem_singleton.1 hbar
    exact ⟨by decide, Or.inl (by decide), Or.inl (by decide)⟩
  · exact fun res hmem hsys addr _ hin => unmoved_iff.1 (hram res hmem hsys addr hin)

/-- **A BAR at the top of the bus does not come back.** It ends at 4 GiB, where the test of
`LibPhysicToLogic` adds up to 0, so that its bus addresses are looked up in the region table. -/
theorem roundTrip_fails :
    RangesApart ramController (mappedDevice 0xfff00000 0x100000) ∧ Registered ramController ∧
      ¬ RoundTrip ramController (mappedDevice 0xfff00000 0x100000) := by
  refine ⟨mappedDevice_rangesApart (by decide) (by decide), ramController_registered, fun h => ?_⟩
  have hin : InLogic ramController (mappedDevice 0xfff00000 0x100000) 0x40000000 :=
    Or.inl ⟨_, List.mem_singleton_self _, by decide, by decide⟩
  have hback := ((h 0x40000000 (by decide)).1 hin).2
  revert hback
  decide

end BcmPcie
