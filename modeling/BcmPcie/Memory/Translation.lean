import BcmPcie.Brcmstb.DeviceTree
import BcmPcie.Enumeration.DeviceBlocks
import BcmPcie.Library.Windows

/-! # Address translation for drivers

`pcie_mem.c`: a driver turns an address of its own into the bus address of the same byte and back, and
asks for the CPU's view of a range of the bus. Both look at the BARs of the device first; the
translations then go on to the region table of the controller.

The interval tests add two 32-bit numbers, and a range may end at 4 GiB, where the sum is 0.

* `libLogicToPhysic`, `libPhysicToLogic`, `libObtainPCIRegion` — the calls.
* `busHit_iff`, `virtHit_iff` — what the tests of the two translations take for inside a BAR.
* `regionSound_iff` — when a range of the bus is granted rightly. -/

namespace BcmPcie

open Windows

variable {σ : Type*}

/-! ## Mapped BARs -/

namespace PciBarInfo

variable (bar : PciBarInfo)

/-- From the bus to the 68k. -/
def busWindow : Window := ⟨bar.busAddr.toNat, bar.pointer.toNat, bar.size.toNat⟩

/-- From the 68k to the bus. -/
def virtWindow : Window := bar.busWindow.reverse

end PciBarInfo

/-! ## The calls -/

/-- The test of `LibPhysicToLogic` for a BAR. -/
def BusHit (addr : BitVec 32) (bar : PciBarInfo) : Prop :=
  bar.Mapped ∧ bar.busAddr ≤ addr ∧ addr < bar.busAddr + bar.size

instance (addr : BitVec 32) (bar : PciBarInfo) : Decidable (BusHit addr bar) :=
  inferInstanceAs (Decidable (_ ∧ _))

/-- The test of `LibLogicToPhysic` for a BAR. -/
def VirtHit (addr : BitVec 32) (bar : PciBarInfo) : Prop :=
  bar.Mapped ∧ bar.pointer ≤ addr ∧ addr < bar.pointer + bar.size

instance (addr : BitVec 32) (bar : PciBarInfo) : Decidable (VirtHit addr bar) :=
  inferInstanceAs (Decidable (_ ∧ _))

/-- The test of `LibObtainPCIRegion` for a BAR. -/
def RangeHit (region size : BitVec 32) (bar : PciBarInfo) : Prop :=
  bar.Mapped ∧ bar.type ≠ .io ∧ bar.busAddr ≤ region ∧ region + size ≤ bar.busAddr + bar.size

instance (region size : BitVec 32) (bar : PciBarInfo) : Decidable (RangeHit region size bar) :=
  inferInstanceAs (Decidable (_ ∧ _))

/-- `pci_phys_to_bus`: through the first region of the kind that holds the whole range. -/
def pciPhysToBus (pcie : PciController σ) (physAddr len : BitVec 64) (mask flags : BitVec 32) :
    BitVec 32 :=
  if pcie.regions.length = 0 then physAddr.setWidth 32
  else
    let holds (res : PciRegion) : Bool :=
      res.flags &&& mask = flags ∧ ¬ physAddr < res.physStart ∧
        ¬ res.size.setWidth 64 ≤ physAddr - res.physStart ∧
        ¬ res.size.setWidth 64 - (physAddr - res.physStart) < len
    match pcie.regions.find? holds with
    | none => 0
    | some res => (res.busStart.setWidth 64 + (physAddr - res.physStart)).setWidth 32

/-- `LibLogicToPhysic`: the BARs of the device, then the regions of the controller, of any kind. -/
def libLogicToPhysic (pcie : PciController σ) (dev : PciDevice) (addr : BitVec 32) : BitVec 32 :=
  if addr = 0 then 0
  else
    match dev.slots.find? fun bar => VirtHit addr bar with
    | some bar => bar.busAddr + (addr - bar.pointer)
    | none => pciPhysToBus pcie (addr.setWidth 64) 1 0 0

/-- `LibPhysicToLogic`. -/
def libPhysicToLogic (pcie : PciController σ) (dev : PciDevice) (addr : BitVec 32) : BitVec 32 :=
  if addr = 0 then 0
  else
    match dev.slots.find? fun bar => BusHit addr bar with
    | some bar => bar.pointer + (addr - bar.busAddr)
    | none => (pciBusToPhys pcie addr 1 0 0).setWidth 32

/-- `LibObtainPCIRegion`: where the CPU sees a range of the bus, 0 if it does not. -/
def libObtainPCIRegion (dev : PciDevice) (region size : BitVec 32) : BitVec 32 :=
  if region = 0 then 0
  else
    match dev.slots.find? fun bar => RangeHit region size bar with
    | some bar => bar.pointer + (region - bar.busAddr)
    | none => 0

/-! ## What the searches find -/

/-- An interval test in 32 bits: right, but for a range that ends at or behind 4 GiB, in which it
finds nothing. -/
theorem hit_iff (start size addr : BitVec 32) (target : ℕ) :
    start ≤ addr ∧ addr < start + size ↔
      (⟨start.toNat, target, size.toNat⟩ : Window).Decodes addr.toNat ∧
        start.toNat + size.toNat < 2 ^ 32 := by
  have haddr := addr.isLt
  have hsize := size.isLt
  rw [BitVec.le_def, BitVec.lt_def, BitVec.toNat_add]
  unfold Window.Decodes
  dsimp only
  omega

/-- A BAR is hit if it is mapped, decodes the address and ends below 4 GiB. -/
theorem busHit_iff {addr : BitVec 32} {bar : PciBarInfo} :
    BusHit addr bar ↔ bar.Mapped ∧ bar.busWindow.Decodes addr.toNat ∧
      bar.busAddr.toNat + bar.size.toNat < 2 ^ 32 :=
  and_congr_right fun _ => hit_iff _ _ _ _

/-- A BAR is hit by a pointer in the same way. -/
theorem virtHit_iff {addr : BitVec 32} {bar : PciBarInfo} :
    VirtHit addr bar ↔ bar.Mapped ∧ bar.virtWindow.Decodes addr.toNat ∧
      bar.pointer.toNat + bar.size.toNat < 2 ^ 32 :=
  and_congr_right fun _ => hit_iff _ _ _ _

namespace PciRegion

variable (res : PciRegion)

/-- From the bus to the CPU. -/
def busWindow : Window := ⟨res.busStart.toNat, res.physStart.toNat, res.size.toNat⟩

/-- From the CPU to the bus. -/
def cpuWindow : Window := res.busWindow.reverse

/-- The low half of the CPU address of a bus address. -/
def logic (addr : BitVec 32) : BitVec 32 :=
  (res.physStart + (addr - res.busStart).setWidth 64).setWidth 32

/-- The bus address of a CPU address below 4 GiB. -/
def physic (addr : BitVec 32) : BitVec 32 :=
  (res.busStart.setWidth 64 + (addr.setWidth 64 - res.physStart)).setWidth 32

/-- How far the region is from the bus to the CPU, in 32 bits. -/
def shift : BitVec 32 := (res.physStart - res.busStart.setWidth 64).setWidth 32

/-- Translation of a bus address adds that distance. -/
theorem logic_eq (addr : BitVec 32) : res.logic addr = res.shift + addr := by
  have hphys := res.physStart.isLt
  have hbus := res.busStart.isLt
  have haddr := addr.isLt
  apply BitVec.eq_of_toNat_eq
  unfold logic shift
  simp only [BitVec.toNat_setWidth, BitVec.toNat_add, BitVec.toNat_sub]
  omega

/-- Translation of a CPU address takes it off. -/
theorem physic_eq (addr : BitVec 32) : res.physic addr = addr - res.shift := by
  have hphys := res.physStart.isLt
  have hbus := res.busStart.isLt
  have haddr := addr.isLt
  apply BitVec.eq_of_toNat_eq
  unfold physic shift
  simp only [BitVec.toNat_setWidth, BitVec.toNat_add, BitVec.toNat_sub]
  omega

end PciRegion

namespace PciController

variable (pcie : PciController σ) (addr : BitVec 32)

/-- The first region, of any kind, that holds a bus address. -/
def busRegion : Option PciRegion :=
  pcie.regions.find? fun res => decide (res.busWindow.Decodes addr.toNat)

/-- The first region, of any kind, that holds a CPU address below 4 GiB. -/
def cpuRegion : Option PciRegion :=
  pcie.regions.find? fun res => decide (res.cpuWindow.Decodes addr.toNat)

variable {pcie}

/-- Where `LibPhysicToLogic` looks when no BAR holds the address. -/
theorem logic_busRegion (h : pcie.regions ≠ []) :
    (pciBusToPhys pcie addr 1 0 0).setWidth 32 = ((pcie.busRegion addr).map (·.logic addr)).getD 0 := by
  have hlen : ¬ pcie.regions.length = 0 := fun hzero => h (List.length_eq_zero_iff.1 hzero)
  unfold pciBusToPhys busRegion
  rw [if_neg hlen]
  dsimp only
  rw [find?_congr (Q := fun res => res.busWindow.Decodes addr.toNat)]
  · cases pcie.regions.find? fun res => decide (res.busWindow.Decodes addr.toNat) <;> rfl
  · intro res _
    have haddr := addr.isLt
    have hone : (1 : BitVec 64).toNat = 1 := rfl
    unfold Window.Decodes PciRegion.busWindow
    dsimp only
    have hany : res.flags &&& (0 : BitVec 32) = 0 := BitVec.and_zero
    rw [and_iff_right hany, BitVec.lt_def, BitVec.le_def, BitVec.lt_def, BitVec.toNat_setWidth, hone]
    simp only [BitVec.toNat_sub]
    omega

/-- Where `LibLogicToPhysic` looks when no BAR holds the address. -/
theorem physic_cpuRegion (h : pcie.regions ≠ []) :
    pciPhysToBus pcie (addr.setWidth 64) 1 0 0
      = ((pcie.cpuRegion addr).map (·.physic addr)).getD 0 := by
  have hlen : ¬ pcie.regions.length = 0 := fun hzero => h (List.length_eq_zero_iff.1 hzero)
  unfold pciPhysToBus cpuRegion
  rw [if_neg hlen]
  dsimp only
  rw [find?_congr (Q := fun res => res.cpuWindow.Decodes addr.toNat)]
  · cases pcie.regions.find? fun res => decide (res.cpuWindow.Decodes addr.toNat) <;> rfl
  · intro res _
    have haddr := addr.isLt
    have hsize := res.size.isLt
    have hone : (1 : BitVec 64).toNat = 1 := rfl
    have hwide : (addr.setWidth 64).toNat = addr.toNat :=
      BitVec.toNat_setWidth_of_le (by omega)
    have hwide' : (res.size.setWidth 64).toNat = res.size.toNat :=
      BitVec.toNat_setWidth_of_le (by omega)
    unfold Window.Decodes PciRegion.cpuWindow PciRegion.busWindow Window.reverse
    dsimp only
    have hany : res.flags &&& (0 : BitVec 32) = 0 := BitVec.and_zero
    rw [and_iff_right hany, BitVec.lt_def, BitVec.le_def, BitVec.lt_def, hone, hwide, hwide']
    simp only [BitVec.toNat_sub, hwide, hwide']
    omega

end PciController

/-! ## Ranges of the bus -/

namespace PciBarInfo

variable {bar : PciBarInfo} {region size : BitVec 32}

/-- A mapped BAR of memory that holds the range. -/
def Covers (bar : PciBarInfo) (region size : BitVec 32) : Prop :=
  bar.Mapped ∧ bar.type ≠ .io ∧ bar.busAddr.toNat ≤ region.toNat ∧
    region.toNat + size.toNat ≤ bar.busAddr.toNat + bar.size.toNat

instance : Decidable (bar.Covers region size) := inferInstanceAs (Decidable (_ ∧ _))

/-- Where the CPU sees a bus address through the BAR. -/
def address (bar : PciBarInfo) (region : BitVec 32) : BitVec 32 :=
  bar.pointer + (region - bar.busAddr)

/-- How far it is from the bus to the CPU, in 32 bits. -/
def shift (bar : PciBarInfo) : BitVec 32 := bar.pointer - bar.busAddr

/-- A bus address and where the CPU sees it are that far apart. -/
theorem address_eq (bar : PciBarInfo) (region : BitVec 32) :
    bar.address region = bar.shift + region := by
  unfold address shift
  rw [BitVec.sub_eq_add_neg, BitVec.sub_eq_add_neg, BitVec.add_comm region, ← BitVec.add_assoc]

/-- Two BARs as far from the bus to the CPU show a bus address at one place. -/
theorem address_eq_iff {bar' : PciBarInfo} :
    bar.address region = bar'.address region ↔ bar.shift = bar'.shift := by
  rw [address_eq, address_eq]
  exact BitVec.add_left_inj ..

end PciBarInfo

section Obtain

variable (dev : PciDevice) (region size : BitVec 32)

/-- A range is granted if and only if a mapped BAR of memory holds it, and the address is then its
place in such a BAR. -/
def RegionSound : Prop :=
  (libObtainPCIRegion dev region size ≠ 0 ↔ ∃ bar ∈ dev.slots, bar.Covers region size) ∧
    (libObtainPCIRegion dev region size ≠ 0 →
      ∃ bar ∈ dev.slots, bar.Covers region size ∧
        libObtainPCIRegion dev region size = bar.address region)

/-- A mapped BAR of memory that starts at or below the range. -/
def PciBarInfo.Reaches (bar : PciBarInfo) (region : BitVec 32) : Prop :=
  bar.Mapped ∧ bar.type ≠ .io ∧ bar.busAddr.toNat ≤ region.toNat

instance (bar : PciBarInfo) : Decidable (bar.Reaches region) := inferInstanceAs (Decidable (_ ∧ _))

/-- The mapped BARs of a device lie in the 32-bit space: on the bus they may end at 4 GiB, where the CPU
sees them they end below. -/
def BarsBelow : Prop :=
  ∀ bar ∈ dev.slots, bar.Mapped →
    bar.busAddr.toNat + bar.size.toNat ≤ 2 ^ 32 ∧ bar.pointer.toNat + bar.size.toNat < 2 ^ 32

instance : Decidable (BarsBelow dev) := inferInstanceAs (Decidable (∀ _ ∈ _, _))

/-- On BARs in the 32-bit space: if the range ends below 4 GiB and is in a BAR, it is in one that ends
below 4 GiB too; if it ends at 4 GiB, the first BAR that starts at or below it, if any, is as far from the
bus to the CPU as one that holds it; and if it goes beyond, no BAR that starts at or below it has an end
of which the low 32 bits reach those of the range's. -/
structure RegionCond : Prop where
  below : BarsBelow dev
  inside : region.toNat + size.toNat < 2 ^ 32 → (∃ bar ∈ dev.slots, bar.Covers region size) →
    ∃ bar ∈ dev.slots, bar.Covers region size ∧ bar.busAddr.toNat + bar.size.toNat < 2 ^ 32
  top : region.toNat + size.toNat = 2 ^ 32 →
    ∀ first ∈ dev.slots.find? fun bar => bar.Reaches region,
      ∃ bar ∈ dev.slots, bar.Covers region size ∧ bar.shift = first.shift
  beyond : 2 ^ 32 < region.toNat + size.toNat → ∀ bar ∈ dev.slots, bar.Reaches region →
    (bar.busAddr.toNat + bar.size.toNat) % 2 ^ 32 + 2 ^ 32 < region.toNat + size.toNat

/-- No end of a range is at or behind 4 GiB: not that of the range asked for, and not that of a mapped
BAR, on the bus or where the CPU sees it. -/
def EndsBelow : Prop :=
  region.toNat + size.toNat < 2 ^ 32 ∧
    ∀ bar ∈ dev.slots, bar.Mapped →
      bar.busAddr.toNat + bar.size.toNat < 2 ^ 32 ∧ bar.pointer.toNat + bar.size.toNat < 2 ^ 32

instance : Decidable (EndsBelow dev region size) := inferInstanceAs (Decidable (_ ∧ _))

variable {dev region size}

/-- What the search finds. -/
theorem libObtainPCIRegion_eq (hregion : region ≠ 0) :
    libObtainPCIRegion dev region size
      = ((dev.slots.find? fun bar => RangeHit region size bar).map (·.address region)).getD 0 := by
  unfold libObtainPCIRegion
  rw [if_neg hregion]
  cases dev.slots.find? fun bar => RangeHit region size bar <;> rfl

/-- An address inside a BAR that ends below 4 GiB is not `NULL`. -/
theorem PciBarInfo.Covers.address_ne_zero {bar : PciBarInfo} (h : bar.Covers region size)
    (hend : bar.pointer.toNat + bar.size.toNat < 2 ^ 32) : bar.address region ≠ 0 := by
  obtain ⟨⟨-, hpointer⟩, -, hlow, hhigh⟩ := h
  have hpos : bar.pointer.toNat ≠ 0 := fun hzero => hpointer (BitVec.eq_of_toNat_eq hzero)
  have hoff : (region - bar.busAddr).toNat = region.toNat - bar.busAddr.toNat :=
    BitVec.toNat_sub_of_le hlow
  intro hzero
  have hsum : (bar.address region).toNat = 0 := by rw [hzero]; rfl
  unfold PciBarInfo.address at hsum
  rw [BitVec.toNat_add, hoff] at hsum
  omega

/-- What the test asks of a BAR, in numbers. -/
theorem rangeHit_iff {bar : PciBarInfo} : RangeHit region size bar ↔ bar.Reaches region ∧
    (region.toNat + size.toNat) % 2 ^ 32 ≤ (bar.busAddr.toNat + bar.size.toNat) % 2 ^ 32 := by
  unfold RangeHit PciBarInfo.Reaches
  rw [BitVec.le_def, BitVec.le_def, BitVec.toNat_add, BitVec.toNat_add, and_assoc, and_assoc]

/-- A range that ends below 4 GiB passes the test of the BARs that hold it and end below 4 GiB. -/
theorem rangeHit_inside (hbelow : BarsBelow dev) (hregion : region ≠ 0)
    (hlt : region.toNat + size.toNat < 2 ^ 32) {bar : PciBarInfo} (hbar : bar ∈ dev.slots) :
    RangeHit region size bar ↔ bar.Covers region size ∧ bar.busAddr.toNat + bar.size.toNat < 2 ^ 32 := by
  have hpos : region.toNat ≠ 0 := fun hzero => hregion (BitVec.eq_of_toNat_eq hzero)
  rw [rangeHit_iff, Nat.mod_eq_of_lt hlt]
  constructor
  · rintro ⟨hreaches, hle⟩
    have hend := (hbelow bar hbar hreaches.1).1
    have hne : bar.busAddr.toNat + bar.size.toNat ≠ 2 ^ 32 := by
      intro heq
      rw [heq] at hle
      omega
    have hlow : bar.busAddr.toNat + bar.size.toNat < 2 ^ 32 := by omega
    rw [Nat.mod_eq_of_lt hlow] at hle
    exact ⟨⟨hreaches.1, hreaches.2.1, hreaches.2.2, hle⟩, hlow⟩
  · rintro ⟨⟨hmapped, htype, hstart, hle⟩, hlow⟩
    rw [Nat.mod_eq_of_lt hlow]
    exact ⟨⟨hmapped, htype, hstart⟩, hle⟩

/-- A range that ends at 4 GiB passes the test of every BAR that starts at or below it. -/
theorem rangeHit_top (htop : region.toNat + size.toNat = 2 ^ 32) {bar : PciBarInfo} :
    RangeHit region size bar ↔ bar.Reaches region := by
  rw [rangeHit_iff, htop, Nat.mod_self]
  exact and_iff_left (Nat.zero_le _)

/-- No BAR holds a range that goes beyond 4 GiB. -/
theorem not_covers_beyond (hbelow : BarsBelow dev) (hgt : 2 ^ 32 < region.toNat + size.toNat) :
    ¬ ∃ bar ∈ dev.slots, bar.Covers region size := by
  rintro ⟨bar, hbar, hmapped, -, -, hend⟩
  have hle := (hbelow bar hbar hmapped).1
  omega

/-- The call is right if the first BAR that passes the test, if any, gives the place of the range in one
that holds it. -/
theorem regionSound_of_first (hregion : region ≠ 0) (hbelow : BarsBelow dev)
    (hnone : (dev.slots.find? fun bar => RangeHit region size bar) = none →
      ¬ ∃ bar ∈ dev.slots, bar.Covers region size)
    (hsome : ∀ first ∈ dev.slots.find? fun bar => RangeHit region size bar,
      ∃ bar ∈ dev.slots, bar.Covers region size ∧ bar.shift = first.shift) :
    RegionSound dev region size := by
  unfold RegionSound
  rw [libObtainPCIRegion_eq hregion]
  cases hfind : dev.slots.find? fun bar => RangeHit region size bar with
  | none => exact ⟨iff_of_false (fun h => h rfl) (hnone hfind), fun h => absurd rfl h⟩
  | some first =>
    obtain ⟨bar, hbar, hcovers, hshift⟩ := hsome first hfind
    have haddr : bar.address region = first.address region := PciBarInfo.address_eq_iff.2 hshift
    have hne : first.address region ≠ 0 :=
      haddr ▸ hcovers.address_ne_zero (hbelow bar hbar hcovers.1).2
    exact ⟨iff_of_true hne ⟨bar, hbar, hcovers⟩, fun _ => ⟨bar, hbar, hcovers, haddr.symm⟩⟩

/-- **The condition is enough.** -/
theorem RegionCond.sound (hregion : region ≠ 0) (h : RegionCond dev region size) :
    RegionSound dev region size := by
  obtain hlt | htop | hgt := Nat.lt_trichotomy (region.toNat + size.toNat) (2 ^ 32)
  · have hhit {bar : PciBarInfo} (hbar : bar ∈ dev.slots) : RangeHit region size bar ↔
        bar.Covers region size ∧ bar.busAddr.toNat + bar.size.toNat < 2 ^ 32 :=
      rangeHit_inside h.below hregion hlt hbar
    refine regionSound_of_first hregion h.below (fun hnone hcovered => ?_) fun first hfirst => ?_
    · obtain ⟨bar, hbar, hcovers⟩ := h.inside hlt hcovered
      exact find?_eq_none_iff.1 hnone bar hbar ((hhit hbar).2 hcovers)
    · obtain ⟨hmem, hpasses⟩ := of_find?_eq_some hfirst
      exact ⟨first, hmem, ((hhit hmem).1 hpasses).1, rfl⟩
  · have hsame : (dev.slots.find? fun bar => RangeHit region size bar)
        = dev.slots.find? fun bar => bar.Reaches region :=
      find?_congr fun bar _ => rangeHit_top htop
    refine regionSound_of_first hregion h.below (fun hnone => ?_) fun first hfirst => ?_
    · rintro ⟨bar, hbar, hmapped, htype, hstart, -⟩
      rw [hsame] at hnone
      exact find?_eq_none_iff.1 hnone bar hbar ⟨hmapped, htype, hstart⟩
    · rw [hsame] at hfirst
      exact h.top htop first hfirst
  · refine regionSound_of_first hregion h.below (fun _ => not_covers_beyond h.below hgt)
      fun first hfirst => ?_
    obtain ⟨hmem, hpasses⟩ := of_find?_eq_some hfirst
    obtain ⟨hreaches, hle⟩ := rangeHit_iff.1 hpasses
    have hend := h.beyond hgt first hmem hreaches
    have hrange := region.isLt
    have hsize := size.isLt
    omega

/-- What a right answer says of the first BAR that passes the test, where no BAR gives the range the
address 0. -/
theorem RegionSound.first (hregion : region ≠ 0) (h : RegionSound dev region size)
    (hnull : ∀ bar ∈ dev.slots, bar.address region ≠ 0) :
    ∀ first ∈ dev.slots.find? fun bar => RangeHit region size bar,
      ∃ bar ∈ dev.slots, bar.Covers region size ∧ bar.shift = first.shift := by
  intro first hfirst
  have haddr : libObtainPCIRegion dev region size = first.address region := by
    rw [libObtainPCIRegion_eq hregion, Option.mem_def.1 hfirst]
    rfl
  have hne := hnull first (of_find?_eq_some hfirst).1
  obtain ⟨bar, hbar, hcovers, heq⟩ := h.2 (haddr ▸ hne)
  exact ⟨bar, hbar, hcovers, PciBarInfo.address_eq_iff.1 (heq.symm.trans haddr)⟩

/-- **The condition is needed**, on BARs in the 32-bit space of which none gives the range the address
0. -/
theorem RegionSound.cond (hregion : region ≠ 0) (h : RegionSound dev region size)
    (hbelow : BarsBelow dev) (hnull : ∀ bar ∈ dev.slots, bar.address region ≠ 0) :
    RegionCond dev region size where
  below := hbelow
  inside hlt hcovered := by
    have hgranted := h.1.2 hcovered
    rw [libObtainPCIRegion_eq hregion] at hgranted
    cases hfind : dev.slots.find? fun bar => RangeHit region size bar with
    | none =>
      rw [hfind] at hgranted
      exact absurd rfl hgranted
    | some first =>
      obtain ⟨hmem, hpasses⟩ := of_find?_eq_some hfind
      exact ⟨first, hmem, (rangeHit_inside hbelow hregion hlt hmem).1 hpasses⟩
  top htop first hfirst := by
    refine h.first hregion hnull first ?_
    rw [find?_congr fun bar _ => rangeHit_top htop]
    exact hfirst
  beyond hgt bar hbar hreaches := by
    by_contra hle
    have hrange := region.isLt
    have hsize := size.isLt
    have hpasses : RangeHit region size bar := rangeHit_iff.2 ⟨hreaches, by omega⟩
    cases hfind : dev.slots.find? fun bar => RangeHit region size bar with
    | none => exact find?_eq_none_iff.1 hfind bar hbar hpasses
    | some first =>
      obtain ⟨bar', hbar', hcovers, -⟩ := h.first hregion hnull first hfind
      exact not_covers_beyond hbelow hgt ⟨bar', hbar', hcovers⟩

/-- **When a range of the bus is granted rightly**: under the condition; only then, on BARs in the 32-bit
space of which none gives the range the address 0; and so whenever no sum passes 4 GiB. -/
theorem regionSound_iff (hregion : region ≠ 0) :
    (RegionCond dev region size → RegionSound dev region size) ∧
      (BarsBelow dev → (∀ bar ∈ dev.slots, bar.address region ≠ 0) →
        (RegionSound dev region size ↔ RegionCond dev region size)) ∧
      (EndsBelow dev region size → RegionCond dev region size) := by
  refine ⟨fun h => h.sound hregion, fun hbelow hnull => ?_, fun ⟨hrange, hends⟩ => ?_⟩
  · exact ⟨fun h => h.cond hregion hbelow hnull, fun h => h.sound hregion⟩
  · refine ⟨fun bar hbar hmapped => ⟨(hends bar hbar hmapped).1.le, (hends bar hbar hmapped).2⟩,
      fun _ hcovered => ?_, fun htop => absurd htop hrange.ne, fun hgt => absurd hgt hrange.asymm⟩
    obtain ⟨bar, hbar, hcovers⟩ := hcovered
    exact ⟨bar, hbar, hcovers, (hends bar hbar hcovers.1).1⟩

end Obtain

/-- A function with one memory BAR, which the CPU sees at 1 GiB. -/
def mappedDevice (busAddr size : BitVec 32) : PciDevice where
  cfg := ⟨0, 0⟩
  tableMem := fun _ => 0
  barsNum := 1
  bars := fun _ =>
    { present := true, busAddr := busAddr, size := size, virtAddr := some 0x40000000#32 }

/-- A range inside a BAR that ends below 4 GiB. -/
theorem regionSound_mapped :
    (0xc0000100#32 : BitVec 32) ≠ 0 ∧
      RegionSound (mappedDevice 0xc0000000 0x1000) 0xc0000100 0x200 := by
  have hsound := @regionSound_iff (mappedDevice 0xc0000000 0x1000) 0xc0000100 0x200 (by decide)
  exact ⟨by decide, hsound.1 (hsound.2.2 (by decide))⟩

/-- The whole of the bus behind the start of a BAR is granted: the sum of start and size is 0. -/
theorem regionSound_fails : ¬ ∀ dev region size, region ≠ 0 → RegionSound dev region size := by
  intro hall
  have hsound := hall (mappedDevice 0xc0000000 0x1000) 0xc0000000 0x40000000 (by decide)
  have hgranted : libObtainPCIRegion (mappedDevice 0xc0000000 0x1000) 0xc0000000 0x40000000 ≠ 0 := by
    decide
  have hnone : ¬ ∃ bar ∈ (mappedDevice 0xc0000000 0x1000).slots,
      bar.Covers 0xc0000000 0x40000000 := by
    decide
  exact hnone (hsound.1.1 hgranted)

end BcmPcie
