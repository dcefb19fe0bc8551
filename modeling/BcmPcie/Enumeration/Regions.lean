import BcmPcie.Library.BumpAllocator
import BcmPcie.Pci.Types
import BcmPcie.Pci.Constants

/-! # Address regions

The allocator of `pci_auto.c`: a region hands out aligned bus addresses from `bus_lower` up, in 32-bit
arithmetic, and `pciauto_config_init` picks the regions to use and sets their pointers back. With it
go the address translations of `pci_bar.c`.

A pointer of `2 ^ 32`, behind the last byte of the bus, is stored as 0. Read as a number it is the
pointer of a bump allocator (`PciRegion.pointer`, `PciRegion.arena`), as long as the sum in the check
for room does not wrap (`RoomExact`).

* `pciautoRegionAllocate_eq`, `pointer_pciautoRegionAlign` — the allocator is the bump allocator.
* `pointer_pciautoRegionInit` — and `pciauto_region_init` rewinds it. -/

namespace BcmPcie

open Bump

/-! ## The allocator -/

/-- `pciauto_region_init`: no address below `0x1000` is handed out. -/
def pciautoRegionInit (res : PciRegion) : PciRegion :=
  { res with busLower := if res.busStart < 0x1000#32 then 0x1000#32 else res.busStart }

/-- `pciauto_region_align`. -/
def pciautoRegionAlign (res : PciRegion) (size : BitVec 32) : PciRegion :=
  { res with busLower := ((res.busLower - 1) ||| (size - 1)) + 1 }

/-- `u64_hi32`: the upper half of a 64-bit value. -/
def u64Hi32 (v : BitVec 64) : BitVec 32 := (v >>> 32).setWidth 32

/-- `pciauto_region_allocate`: the address of a block and the region without it, or nothing. The test
for an address above 4 GiB is for builds with 64-bit bus addresses. -/
def pciautoRegionAllocate (res : Option PciRegion) (size : BitVec 32) (supports64bit : Bool) :
    Option (BitVec 32 × PciRegion) :=
  match res with
  | none => none
  | some res =>
    let addr := ((res.busLower - 1) ||| (size - 1)) + 1
    if res.size < addr - res.busStart + size then none
    else if u64Hi32 (addr.setWidth 64) ≠ 0 ∧ supports64bit = false then none
    else some (addr, { res with busLower := addr + size })

/-! ## The regions of a controller -/

variable {σ τ : Type*}

/-- What a region is used for. -/
inductive RegionKind
  | io | mem | prefetch
  deriving DecidableEq, Repr

/-- The `PCI_REGION_*` flags of a region of a kind. -/
def RegionKind.flags : RegionKind → BitVec 32
  | .io => pciRegionIo
  | .mem => pciRegionMem
  | .prefetch => pciRegionMem ||| pciRegionPrefetch

namespace PciController

/-- The pointer to the region in use of a kind. -/
def ptr (pcie : PciController σ) : RegionKind → Option ℕ
  | .io => pcie.pciIo
  | .mem => pcie.pciMem
  | .prefetch => pcie.pciPrefetch

/-- The region a pointer into `regions` points at. -/
def region (pcie : PciController σ) (ptr : Option ℕ) : Option PciRegion :=
  ptr.bind (pcie.regions[·]?)

/-- The controller with the region a pointer points at changed. -/
def updateRegion (pcie : PciController σ) (ptr : Option ℕ) (f : PciRegion → PciRegion) :
    PciController σ :=
  match ptr with
  | none => pcie
  | some i => { pcie with regions := pcie.regions.modify i f }

/-- `pciauto_region_allocate` on a region of the controller. -/
def allocate (pcie : PciController σ) (ptr : Option ℕ) (size : BitVec 32) (supports64bit : Bool) :
    Option (BitVec 32 × PciController σ) :=
  (pciautoRegionAllocate (pcie.region ptr) size supports64bit).map fun r =>
    (r.1, pcie.updateRegion ptr fun _ => r.2)

end PciController

/-- The loop of `pciauto_config_init` for one kind of region: the largest with just these flags, the
first of equals. `best` is the choice among the regions before index `i`, with its size. -/
def selectRegion (flags : BitVec 32) : List PciRegion → (i : ℕ) → (best : Option (ℕ × BitVec 32)) →
    Option ℕ
  | [], _, best => best.map Prod.fst
  | res :: regions, i, best =>
    if res.flags = flags ∧ best.all (fun b => decide (b.2 < res.size)) then
      selectRegion flags regions (i + 1) (some (i, res.size))
    else selectRegion flags regions (i + 1) best

/-- The regions that BARs are taken from, picked anew. -/
def PciController.select (pcie : PciController σ) : PciController σ :=
  { pcie with
    pciIo := selectRegion RegionKind.io.flags pcie.regions 0 none
    pciMem := selectRegion RegionKind.mem.flags pcie.regions 0 none
    pciPrefetch := selectRegion RegionKind.prefetch.flags pcie.regions 0 none }

/-- `pciauto_config_init`: pick the regions and, as it logs them, set their pointers back to the
start. -/
def pciautoConfigInit (pcie : PciController σ) : PciController σ :=
  let pcie := pcie.select
  let pcie := pcie.updateRegion pcie.pciMem pciautoRegionInit
  let pcie := pcie.updateRegion pcie.pciPrefetch pciautoRegionInit
  pcie.updateRegion pcie.pciIo pciautoRegionInit

/-! ## Address translation -/

/-- `pci_bus_to_phys`: through the first region of the kind that holds the whole range. -/
def pciBusToPhys (pcie : PciController σ) (busAddr : BitVec 32) (len : BitVec 64)
    (mask flags : BitVec 32) : BitVec 64 :=
  if pcie.regions.length = 0 then busAddr.setWidth 64
  else
    let holds (res : PciRegion) : Bool :=
      res.flags &&& mask = flags ∧ ¬ busAddr < res.busStart ∧ ¬ res.size ≤ busAddr - res.busStart ∧
        ¬ (res.size - (busAddr - res.busStart)).setWidth 64 < len
    match pcie.regions.find? holds with
    | none => 0
    | some res => res.physStart + (busAddr - res.busStart).setWidth 64

/-- `pci_bus_to_virt`: through the aperture of the CPU onto PCI memory. -/
def pciBusToVirt (pcie : PciController σ) (busAddr : BitVec 32) (len : BitVec 64)
    (mask flags : BitVec 32) : Option (BitVec 32) :=
  let physAddr := pciBusToPhys pcie busAddr len mask flags
  if physAddr = 0 then none
  else if physAddr < pcie.mmioWindowPhys ∨ pcie.mmioWindowPhys + pcie.mmioWindowSize ≤ physAddr then
    none
  else if pcie.mmioWindowPhys + pcie.mmioWindowSize < physAddr + len then none
  else some (pcie.mmioWindowVirtual + (physAddr - pcie.mmioWindowPhys).setWidth 32)

/-! ## The bump allocator behind it -/

/-- One less than a word that is not 0. -/
theorem toNat_sub_one {x : BitVec 32} (h : 0 < x.toNat) : (x - 1).toNat = x.toNat - 1 := by
  have hone : (1 : BitVec 32).toNat = 1 := rfl
  have hlt := x.isLt
  rw [BitVec.toNat_sub, hone]
  omega

/-- A 32-bit address has no upper half. -/
theorem u64Hi32_setWidth (addr : BitVec 32) : u64Hi32 (addr.setWidth 64) = 0 := by
  apply BitVec.eq_of_getLsbD_eq
  intro i hi
  simp only [u64Hi32, BitVec.getLsbD_setWidth, BitVec.getLsbD_ushiftRight]
  rw [BitVec.getLsbD_of_ge addr (32 + i) (by omega)]
  simp

namespace PciRegion

/-- The allocation pointer as a number: 0 stands for `2 ^ 32`. -/
def pointer (res : PciRegion) : ℕ := (res.busLower - 1).toNat + 1

/-- The addresses a region hands out. -/
def arena (res : PciRegion) : Arena where
  start := (pciautoRegionInit res).busLower.toNat
  limit := res.busStart.toNat + res.size.toNat

/-- The last byte of the region has a 32-bit address. -/
def Fits (res : PciRegion) : Prop := res.busStart.toNat + res.size.toNat ≤ 2 ^ 32

/-- Two regions share no address. -/
def Disjoint (res res' : PciRegion) : Prop :=
  res.busStart.toNat + res.size.toNat ≤ res'.busStart.toNat ∨
    res'.busStart.toNat + res'.size.toNat ≤ res.busStart.toNat

/-- The check for room gives the answer of unbounded arithmetic: its sum does not wrap around, or is
too large even so. -/
def RoomExact (res : PciRegion) (p : ℕ) : Request τ → Prop
  | .take size _ =>
    alignUp p size + size < 2 ^ 32 + res.busStart.toNat ∨
      2 ^ 32 + res.busStart.toNat + res.size.toNat < alignUp p size + size
  | .round _ => True
  | .rewind => True

instance (res : PciRegion) : Decidable res.Fits := inferInstanceAs (Decidable (_ ≤ _))

instance (res res' : PciRegion) : Decidable (res.Disjoint res') :=
  inferInstanceAs (Decidable (_ ∨ _))

instance (res : PciRegion) (p : ℕ) (r : Request τ) : Decidable (res.RoomExact p r) :=
  match r with
  | .take _ _ => inferInstanceAs (Decidable (_ ∨ _))
  | .round _ => .isTrue trivial
  | .rewind => .isTrue trivial

/-- The arena starts in the region. -/
theorem busStart_le_arena_start (res : PciRegion) : res.busStart.toNat ≤ res.arena.start := by
  unfold arena pciautoRegionInit
  dsimp only
  split
  · rename_i h
    exact Nat.le_of_lt h
  · exact le_rfl

/-- No pointer is 0. -/
theorem pointer_pos (res : PciRegion) : 0 < res.pointer := Nat.succ_pos _

/-- A pointer is an address, or 4 GiB. -/
theorem pointer_le (res : PciRegion) : res.pointer ≤ 2 ^ 32 := (res.busLower - 1).isLt

/-- A pointer put to `q` is `q`. -/
theorem pointer_ofNat (res : PciRegion) {q : ℕ} (hpos : 0 < q) (hq : q ≤ 2 ^ 32) :
    ({ res with busLower := BitVec.ofNat 32 q } : PciRegion).pointer = q := by
  unfold pointer
  have hone : (1 : BitVec 32).toNat = 1 := rfl
  rw [BitVec.toNat_sub, BitVec.toNat_ofNat, hone]
  omega

end PciRegion

/-- The pointer is set back to the start of the arena. -/
theorem pointer_pciautoRegionInit (res : PciRegion) :
    (pciautoRegionInit res).pointer = res.arena.start := by
  have hge : 0 < (pciautoRegionInit res).busLower.toNat := by
    unfold pciautoRegionInit
    dsimp only
    split
    · decide
    · rename_i h
      rw [BitVec.not_lt, BitVec.le_def] at h
      exact Nat.lt_of_lt_of_le (by decide) h
  unfold PciRegion.pointer PciRegion.arena
  dsimp only
  rw [toNat_sub_one hge]
  omega

/-- Setting the low bits of the pointer's predecessor rounds the pointer up. -/
theorem toNat_or_sub_one (res : PciRegion) {size : BitVec 32} {k : ℕ} (hsize : size.toNat = 2 ^ k) :
    ((res.busLower - 1) ||| (size - 1)).toNat + 1 = alignUp res.pointer size.toNat := by
  have hlow : (size - 1).toNat = 2 ^ k - 1 := by
    rw [toNat_sub_one (by rw [hsize]; exact Nat.two_pow_pos k), hsize]
  rw [BitVec.toNat_or, hlow, hsize, or_two_pow_succ]
  rfl

/-- Aligning a region rounds its pointer up. -/
theorem pointer_pciautoRegionAlign (res : PciRegion) {size : BitVec 32} {k : ℕ}
    (hsize : size.toNat = 2 ^ k) :
    (pciautoRegionAlign res size).pointer = alignUp res.pointer size.toNat := by
  rw [← toNat_or_sub_one res hsize]
  unfold PciRegion.pointer pciautoRegionAlign
  rw [BitVec.add_sub_cancel]

/-- The address the allocator computes is the rounded pointer, modulo the width of the bus. -/
theorem toNat_allocate_addr (res : PciRegion) {size : BitVec 32} {k : ℕ}
    (hsize : size.toNat = 2 ^ k) :
    (((res.busLower - 1) ||| (size - 1)) + 1).toNat = alignUp res.pointer size.toNat % 2 ^ 32 := by
  have hone : (1 : BitVec 32).toNat = 1 := rfl
  rw [BitVec.toNat_add, hone, toNat_or_sub_one res hsize]

/-- Rounded up, a pointer is still an address, or 4 GiB. -/
theorem alignUp_pointer_le (res : PciRegion) {size : BitVec 32} {k : ℕ}
    (hsize : size.toNat = 2 ^ k) : alignUp res.pointer size.toNat ≤ 2 ^ 32 := by
  rw [← toNat_or_sub_one res hsize]
  exact ((res.busLower - 1) ||| (size - 1)).isLt

/-- The check for room, where its sum does not wrap, asks whether the block fits. -/
theorem room_check_iff (res : PciRegion) {size : BitVec 32} {k : ℕ} (hsize : size.toNat = 2 ^ k)
    {t : τ} (hfits : res.Fits) (hp : res.busStart.toNat ≤ res.pointer)
    (hexact : res.RoomExact res.pointer (.take size.toNat t)) :
    res.size < ((res.busLower - 1) ||| (size - 1)) + 1 - res.busStart + size ↔
      ¬ alignUp res.pointer size.toNat + size.toNat ≤ res.arena.limit := by
  have haddr := toNat_allocate_addr res hsize
  have hle := alignUp_pointer_le res hsize
  have hge : res.pointer ≤ alignUp res.pointer size.toNat :=
    le_alignUp (by rw [hsize]; exact Nat.two_pow_pos k) res.pointer
  have hlt := size.isLt
  have hstart := res.busStart.isLt
  have hlen := res.size.isLt
  unfold PciRegion.Fits at hfits
  simp only [PciRegion.RoomExact] at hexact
  rw [BitVec.lt_def, BitVec.toNat_add, BitVec.toNat_sub, haddr]
  unfold PciRegion.arena
  dsimp only
  generalize alignUp res.pointer size.toNat = a at *
  omega

/-- **The allocator is the bump allocator**, on a region that fits the bus, wherever the sum in its
check for room does not wrap. -/
theorem pciautoRegionAllocate_eq (res : PciRegion) {size : BitVec 32} {k : ℕ} {t : τ}
    (hsize : size.toNat = 2 ^ k) (supports64bit : Bool) (hfits : res.Fits)
    (hp : res.busStart.toNat ≤ res.pointer)
    (hexact : res.RoomExact res.pointer (.take size.toNat t)) :
    pciautoRegionAllocate (some res) size supports64bit =
      (res.arena.granted res.pointer (.take size.toNat t)).map fun b =>
        (BitVec.ofNat 32 b.addr, { res with busLower := BitVec.ofNat 32 (b.addr + b.size) }) := by
  have hroom := room_check_iff res hsize hfits hp hexact
  have haddr := toNat_allocate_addr res hsize
  have hofNat : ((res.busLower - 1) ||| (size - 1)) + 1
      = BitVec.ofNat 32 (alignUp res.pointer size.toNat) := by
    apply BitVec.eq_of_toNat_eq
    rw [haddr, BitVec.toNat_ofNat]
  unfold pciautoRegionAllocate Arena.granted
  dsimp only
  by_cases hfit : alignUp res.pointer size.toNat + size.toNat ≤ res.arena.limit
  · rw [if_neg (fun h => hroom.1 h hfit), if_neg (fun h => h.1 (u64Hi32_setWidth _)), if_pos hfit, hofNat]
    simp only [Option.map_some, BitVec.ofNat_add, BitVec.ofNat_toNat, BitVec.setWidth_eq]
  · rw [if_pos (hroom.2 hfit), if_neg hfit]
    rfl

end BcmPcie
