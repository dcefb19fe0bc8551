import BcmPcie.Brcmstb.Emu68Common
import BcmPcie.Enumeration.Regions

/-! # Regions from the device tree

What the back-end reads from the PCI node of the device tree: the records of `ranges` are the windows
onto the bus, the first record of `dma-ranges` is the inbound window, and the Fast RAM inside that is
registered along with the windows.

* `brcmPcieDmaWindow` — the inbound window, which shows memory at its own address.
* `pciGetDevtreeRegions` — the region table.
* `sysMemory_of_mem` — Fast RAM is registered at its own address, inside the inbound window. -/

namespace BcmPcie

/-! ## Records -/

/-- The PCI node, as `devicetree.resource` gives it: the cells of its two lists, and the numbers of
cells of an address on the bus, of one of the CPU, and of a size. -/
structure DtNode where
  ranges : Option (List (BitVec 32))
  dmaRanges : Option (List (BitVec 32))
  addressCells : ℕ := 0
  parentAddressCells : ℕ := 2
  sizeCells : ℕ := 1

/-- One record of `ranges` or `dma-ranges`. -/
structure DtPciRange where
  attr : BitVec 32
  bus : BitVec 64
  cpu : BitVec 64
  size : BitVec 64
  deriving DecidableEq, Repr

/-- A walk over the records of a list: the cells left, and how many belong to each number. -/
structure DtPciRanges where
  next : List (BitVec 32)
  pciAddrCells : ℕ
  cpuAddrCells : ℕ
  sizeCells : ℕ

/-- The cells of a record. -/
def DtPciRanges.recordCells (it : DtPciRanges) : ℕ :=
  it.pciAddrCells + it.cpuAddrCells + it.sizeCells

/-- `dt_pci_ranges_open`, on a node that has been found. -/
def dtPciRangesOpen (node : DtNode) (prop : Option (List (BitVec 32))) : Except Errno DtPciRanges :=
  match prop with
  | none => .error .einval
  | some cells =>
    if node.addressCells ≤ dtPciAttrCells then .error .einval
    else .ok ⟨cells, node.addressCells, node.parentAddressCells, node.sizeCells⟩

/-- `dt_pci_ranges_next`: the next record and the walk behind it. -/
def dtPciRangesNext (common : Emu68Common) (it : DtPciRanges) : Option (DtPciRange × DtPciRanges) :=
  if it.next.length < it.recordCells then none
  else
    some (
      { attr := it.next.headD 0
        bus := common.dtGetNumber ((it.next.drop dtPciAttrCells).take (it.pciAddrCells - dtPciAttrCells))
        cpu := common.dtGetNumber ((it.next.drop it.pciAddrCells).take it.cpuAddrCells)
        size := common.dtGetNumber
          ((it.next.drop (it.pciAddrCells + it.cpuAddrCells)).take it.sizeCells) },
      { it with next := it.next.drop it.recordCells })

/-- The records of a walk. Each takes two cells or more, so the cells left are fuel enough. -/
def dtPciRecords (common : Emu68Common) : (fuel : ℕ) → DtPciRanges → List DtPciRange
  | 0, _ => []
  | fuel + 1, it =>
    match dtPciRangesNext common it with
    | none => []
    | some (r, it) => r :: dtPciRecords common fuel it

/-! ## The inbound window -/

/-- `brcm_pcie_dma_window`: the first record of `dma-ranges`, up to 2 GiB, placed on the bus at the
CPU's addresses. -/
def brcmPcieDmaWindow (common : Emu68Common) (node : DtNode) : Except Errno PciRegion :=
  match dtPciRangesOpen node node.dmaRanges with
  | .error e => .error e
  | .ok it =>
    match dtPciRangesNext common it with
    | none => .error .einval
    | some (dt, _) =>
      if dt.size = 0 ∨ pcieDmaWinEnd ≤ dt.cpu then .error .einval
      else
        let size := if pcieDmaWinEnd - dt.cpu < dt.size then pcieDmaWinEnd - dt.cpu else dt.size
        .ok { physStart := dt.cpu
              busStart := (pcieDmaWinBase + dt.cpu).setWidth 32
              size := size.setWidth 32
              flags := 0 }

/-! ## The region table -/

/-- The type of the region for a record, nothing for one of configuration space. -/
def dtRegionType (attr : BitVec 32) : Option (BitVec 32) :=
  if attr &&& dtPciAttrSpace = dtPciSpaceIo then some pciRegionIo
  else if attr &&& dtPciAttrSpace = dtPciSpaceMem32 ∨ attr &&& dtPciAttrSpace = dtPciSpaceMem64 then
    some (if attr &&& dtPciAttrPrefetch ≠ 0 then pciRegionPrefetch else pciRegionMem)
  else none

/-- The region for a record of `ranges`, if its addresses and its size fit the library's types. -/
def rangeRegion (r : DtPciRange) : Option PciRegion :=
  match dtRegionType r.attr with
  | none => none
  | some type =>
    if u64Hi32 r.bus ≠ 0 ∨ u64Hi32 r.size ≠ 0 then none
    else if r.size = 0 ∨ pciAddrMax - r.bus < r.size - 1 ∨ physAddrMax - r.cpu < r.size - 1 then none
    else
      some { busStart := r.bus.setWidth 32
             physStart := r.cpu
             size := r.size.setWidth 32
             flags := type }

/-- A node of Exec's memory list: its attributes, and its addresses up to but not with `upper`. -/
structure MemHeader where
  attributes : BitVec 32
  lower : BitVec 32
  upper : BitVec 32
  deriving DecidableEq, Repr

/-- The region for a node of the memory list, if it is Fast RAM inside the inbound window. -/
def fastRamRegion (dmaWin : PciRegion) (mh : MemHeader) : Option PciRegion :=
  if mh.attributes &&& memfFast = 0 then none
  else if mh.upper ≤ mh.lower then none
  else if mh.lower.setWidth 64 < dmaWin.physStart ∨
      dmaWin.physStart + dmaWin.size.setWidth 64 < mh.upper.setWidth 64 then none
  else
    let dmaOffset : BitVec 32 := (dmaWin.busStart.setWidth 64 - dmaWin.physStart).setWidth 32
    some { busStart := mh.lower + dmaOffset
           physStart := mh.lower.setWidth 64
           size := mh.upper - mh.lower
           flags := pciRegionMem ||| pciRegionSysMemory }

/-- The loop over the memory list, with `added` regions registered by now. -/
def fastRamRegions (dmaWin : PciRegion) : (added : ℕ) → List MemHeader → List PciRegion
  | _, [] => []
  | added, mh :: memList =>
    if configNrDramBanks ≤ added then []
    else
      match fastRamRegion dmaWin mh with
      | none => fastRamRegions dmaWin added memList
      | some res => res :: fastRamRegions dmaWin (added + 1) memList

/-- `pci_get_devtree_regions`; `alloc` says whether there is memory for the table. -/
def pciGetDevtreeRegions (common : Emu68Common) (node : DtNode) (dmaWin : PciRegion)
    (memList : List MemHeader) (alloc : Bool) : Except Errno (List PciRegion) :=
  match dtPciRangesOpen node node.ranges with
  | .error e => .error e
  | .ok it =>
    if alloc = false then .error .enomem
    else
      .ok ((dtPciRecords common it.next.length it).filterMap rangeRegion
        ++ fastRamRegions dmaWin 0 memList)

/-- The region table of a controller, from its node and the memory list. -/
def devtreeRegions (common : Emu68Common) (node : DtNode) (memList : List MemHeader) (alloc : Bool) :
    Except Errno (List PciRegion) :=
  match brcmPcieDmaWindow common node with
  | .error e => .error e
  | .ok dmaWin => pciGetDevtreeRegions common node dmaWin memList alloc

/-! ## What is registered -/

/-- Fast RAM, as `pci_get_devtree_regions` registers it. -/
def PciRegion.IsSysMemory (res : PciRegion) : Prop := res.flags = pciRegionMem ||| pciRegionSysMemory

instance (res : PciRegion) : Decidable res.IsSysMemory := inferInstanceAs (Decidable (_ = _))

/-- The inbound window is not empty, lies below 2 GiB and shows memory at its own address. -/
theorem brcmPcieDmaWindow_ok {common : Emu68Common} {node : DtNode} {win : PciRegion}
    (h : brcmPcieDmaWindow common node = .ok win) :
    0 < win.size.toNat ∧ win.physStart.toNat + win.size.toNat ≤ 0x80000000 ∧
      win.busStart.toNat = win.physStart.toNat := by
  unfold brcmPcieDmaWindow at h
  split at h
  · cases h
  · split at h
    · cases h
    · rename_i dt it' hnext
      split at h
      · cases h
      · rename_i hrange
        rw [not_or] at hrange
        obtain ⟨hsize, hcpu⟩ := hrange
        cases h
        have hend : pcieDmaWinEnd.toNat = 0x80000000 := rfl
        have hlt : dt.cpu.toNat < 0x80000000 := by
          rw [BitVec.le_def, hend] at hcpu
          omega
        -- the size is cut down to what is left below 2 GiB
        have hroom : (pcieDmaWinEnd - dt.cpu).toNat = 0x80000000 - dt.cpu.toNat := by
          rw [BitVec.toNat_sub, hend]
          omega
        have hpos : dt.size.toNat ≠ 0 := fun hzero => hsize (BitVec.eq_of_toNat_eq hzero)
        have hbus : (pcieDmaWinBase + dt.cpu).toNat = dt.cpu.toNat := by
          rw [show pcieDmaWinBase + dt.cpu = dt.cpu from BitVec.zero_add dt.cpu]
        dsimp only
        rw [BitVec.toNat_setWidth, BitVec.toNat_setWidth, hbus]
        split
        · rw [hroom]
          omega
        · rename_i hle
          rw [BitVec.lt_def, hroom] at hle
          omega

/-- A region of a record is not Fast RAM. -/
theorem not_isSysMemory_of_rangeRegion {r : DtPciRange} {res : PciRegion}
    (h : rangeRegion r = some res) : ¬ res.IsSysMemory := by
  unfold rangeRegion dtRegionType at h
  intro hsys
  unfold PciRegion.IsSysMemory at hsys
  split at h
  · cases h
  · rename_i type htype
    split at h
    · cases h
    · split at h
      · cases h
      · cases h
        dsimp only at hsys
        subst hsys
        split at htype
        · exact absurd (Option.some.inj htype) (by decide)
        · split at htype
          · have hflags := Option.some.inj htype
            split at hflags
            · exact absurd hflags (by decide)
            · exact absurd hflags (by decide)
          · cases htype

/-- A registered node of the memory list. -/
theorem mem_fastRamRegions {dmaWin res : PciRegion} {added : ℕ} {memList : List MemHeader}
    (h : res ∈ fastRamRegions dmaWin added memList) :
    ∃ mh ∈ memList, fastRamRegion dmaWin mh = some res := by
  induction memList generalizing added with
  | nil => cases h
  | cons mh memList ih =>
    rw [fastRamRegions] at h
    split at h
    · cases h
    · split at h
      · obtain ⟨mh', hmem, heq⟩ := ih h
        exact ⟨mh', List.mem_cons_of_mem mh hmem, heq⟩
      · rename_i res' hres
        rcases List.mem_cons.1 h with rfl | h
        · exact ⟨mh, List.mem_cons_self, hres⟩
        · obtain ⟨mh', hmem, heq⟩ := ih h
          exact ⟨mh', List.mem_cons_of_mem mh hmem, heq⟩

/-- Fast RAM inside a window that shows memory at its own address is registered at its own address. -/
theorem fastRamRegion_some {dmaWin res : PciRegion} {mh : MemHeader}
    (hbus : dmaWin.busStart.toNat = dmaWin.physStart.toNat) (h : fastRamRegion dmaWin mh = some res) :
    res.IsSysMemory ∧ 0 < res.size.toNat ∧ res.physStart.toNat = res.busStart.toNat ∧
      dmaWin.physStart.toNat ≤ res.physStart.toNat ∧
      res.physStart.toNat + res.size.toNat ≤ dmaWin.physStart.toNat + dmaWin.size.toNat := by
  unfold fastRamRegion at h
  split at h
  · cases h
  · split at h
    · cases h
    · rename_i hempty
      split at h
      · cases h
      · rename_i hrange
        rw [not_or] at hrange
        obtain ⟨hlow, hhigh⟩ := hrange
        cases h
        -- the window shows memory at its own address, so nothing is added
        have hoffset : dmaWin.busStart.setWidth 64 - dmaWin.physStart = 0 := by
          apply BitVec.eq_of_toNat_eq
          have hstart := dmaWin.busStart.isLt
          rw [BitVec.toNat_sub, BitVec.toNat_setWidth]
          show _ = 0
          omega
        have hshift : mh.lower + (0 : BitVec 64).setWidth 32 = mh.lower := BitVec.add_zero mh.lower
        have hsize := dmaWin.size.isLt
        have hlower := mh.lower.isLt
        have hupper := mh.upper.isLt
        rw [BitVec.le_def] at hempty
        rw [BitVec.lt_def, BitVec.toNat_setWidth] at hlow
        rw [BitVec.lt_def, BitVec.toNat_add, BitVec.toNat_setWidth, BitVec.toNat_setWidth] at hhigh
        dsimp only
        rw [hoffset, hshift, BitVec.toNat_setWidth, BitVec.toNat_sub]
        refine ⟨rfl, ?_, ?_, ?_, ?_⟩ <;> omega

/-- **Fast RAM in the region table** is registered at its own address, inside the inbound window and
below 2 GiB. -/
theorem sysMemory_of_mem {common : Emu68Common} {node : DtNode} {memList : List MemHeader}
    {alloc : Bool} {regions : List PciRegion}
    (h : devtreeRegions common node memList alloc = .ok regions) :
    ∀ res ∈ regions, res.IsSysMemory → 0 < res.size.toNat ∧
      res.physStart.toNat = res.busStart.toNat ∧
      res.physStart.toNat + res.size.toNat ≤ 0x80000000 := by
  unfold devtreeRegions at h
  split at h
  · cases h
  · rename_i win hwin
    obtain ⟨-, hend, hbus⟩ := brcmPcieDmaWindow_ok hwin
    unfold pciGetDevtreeRegions at h
    split at h
    · cases h
    · split at h
      · cases h
      · cases h
        intro res hmem hsys
        rcases List.mem_append.1 hmem with hmem | hmem
        · obtain ⟨r, -, hr⟩ := List.mem_filterMap.1 hmem
          exact absurd hsys (not_isSysMemory_of_rangeRegion hr)
        · obtain ⟨mh, -, hmh⟩ := mem_fastRamRegions hmem
          obtain ⟨-, hpos, hidentity, -, hhigh⟩ := fastRamRegion_some hbus hmh
          exact ⟨hpos, hidentity, by omega⟩

end BcmPcie
