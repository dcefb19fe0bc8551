import BcmPcie.Brcmstb.DeviceTree
import BcmPcie.Library.Cells

/-! # The walk over a node's ranges, cell by cell

`pci_get_devtree_regions` once more, with the cells where they stand in the property and the entries
where they stand in the table: a read outside the one or a write outside the other is no outcome.

* `pciGetDevtreeRegionsAt` — the function on the property and on a table of its size.
* `rangeRegion_eq`, `fastRamRegion_eq` — which records and which memory are registered.
* `pciGetDevtreeRegionsAt_exact` — it stays inside both, and registers these and no others. -/

namespace BcmPcie

open Cells

/-! ## The function -/

/-- `struct dt_pci_ranges`. -/
structure DtPciRangesAt where
  cursor : Cursor
  pciAddrCells : ℕ
  cpuAddrCells : ℕ
  sizeCells : ℕ

/-- `record_cells`. -/
def DtPciRangesAt.recordCells (it : DtPciRangesAt) : ℕ :=
  it.pciAddrCells + it.cpuAddrCells + it.sizeCells

/-- The cells from the walk on, as a list. -/
def DtPciRangesAt.toList (it : DtPciRangesAt) (row : List (BitVec 32)) : DtPciRanges :=
  ⟨it.cursor.rest row, it.pciAddrCells, it.cpuAddrCells, it.sizeCells⟩

/-- `dt_pci_ranges_next`. -/
def dtPciRangesNextAt (common : Emu68Common) (row : List (BitVec 32)) (it : DtPciRangesAt) :
    Option (Option (DtPciRange × DtPciRangesAt)) :=
  if it.cursor.left < it.recordCells then some none
  else do
    let record := it.cursor.next
    let attr ← row[record + 0]?
    let bus ← slice row (record + dtPciAttrCells) (it.pciAddrCells - dtPciAttrCells)
    let cpu ← slice row (record + it.pciAddrCells) it.cpuAddrCells
    let size ← slice row (record + (it.pciAddrCells + it.cpuAddrCells)) it.sizeCells
    some (some (
      { attr := attr
        bus := common.dtGetNumber bus
        cpu := common.dtGetNumber cpu
        size := common.dtGetNumber size },
      { it with cursor := it.cursor.skip it.recordCells }))

/-- `regions[]`: the entries there is room for, and the first `region_count` of them. -/
structure RegionTable where
  allocated : ℕ
  regions : List PciRegion := []

/-- An entry is filled in, if there is room for it. -/
def RegionTable.add (table : RegionTable) (res : PciRegion) : Option RegionTable :=
  if table.regions.length < table.allocated then
    some { table with regions := table.regions ++ [res] }
  else none

/-- The loop over the records, for `fuel` calls of `dt_pci_ranges_next`. -/
def addRanges (common : Emu68Common) (row : List (BitVec 32)) :
    (fuel : ℕ) → DtPciRangesAt → RegionTable → Option RegionTable
  | 0, _, _ => none
  | fuel + 1, it, table => do
    match ← dtPciRangesNextAt common row it with
    | none => some table
    | some (r, it) =>
      let table ← (rangeRegion r).elim (some table) table.add
      addRanges common row fuel it table

/-- The loop over Exec's memory list. -/
def addFastRam (dmaWin : PciRegion) : (added : ℕ) → List MemHeader → RegionTable → Option RegionTable
  | _, [], table => some table
  | added, mh :: memList, table =>
    if configNrDramBanks ≤ added then some table
    else
      match fastRamRegion dmaWin mh with
      | none => addFastRam dmaWin added memList table
      | some res => do
        let table ← table.add res
        addFastRam dmaWin (added + 1) memList table

/-- `pci_get_devtree_regions`; `alloc` says whether there is memory for the table. -/
def pciGetDevtreeRegionsAt (common : Emu68Common) (node : DtNode) (dmaWin : PciRegion)
    (memList : List MemHeader) (alloc : Bool) (fuel : ℕ) : Option (Except Errno RegionTable) :=
  match dtPciRangesOpen node node.ranges with
  | .error e => some (.error e)
  | .ok it =>
    if alloc = false then some (.error .enomem)
    else do
      let row := it.next
      let walk : DtPciRangesAt :=
        { cursor := .start row
          pciAddrCells := it.pciAddrCells
          cpuAddrCells := it.cpuAddrCells
          sizeCells := it.sizeCells }
      let maxRegions := row.length / walk.recordCells + configNrDramBanks
      let table ← addRanges common row fuel walk { allocated := maxRegions }
      let table ← addFastRam dmaWin 0 memList table
      some (.ok table)

/-! ## The records -/

section Walk

variable {common : Emu68Common} {row : List (BitVec 32)} {it : DtPciRangesAt}

/-- **One step of the walk** reads cells of the property only, those of the next record. -/
theorem dtPciRangesNextAt_eq (hon : it.cursor.On row) (haddr : 2 ≤ it.pciAddrCells) :
    dtPciRangesNextAt common row it
      = some ((dtPciRangesNext common (it.toList row)).map fun r =>
          (r.1, { it with cursor := it.cursor.skip it.recordCells })) := by
  have hcells : (it.toList row).recordCells = it.recordCells := rfl
  unfold dtPciRangesNextAt dtPciRangesNext
  rw [hcells]
  have hlength : (it.toList row).next.length = it.cursor.left := hon.length_rest
  rw [hlength]
  by_cases hend : it.cursor.left < it.recordCells
  · rw [if_pos hend, if_pos hend]
    rfl
  · have hroom : it.pciAddrCells + it.cpuAddrCells + it.sizeCells ≤ it.cursor.left := Nat.not_lt.1 hend
    rw [if_neg hend, if_neg hend]
    dsimp only
    rw [hon.cell (by omega) 0, hon.slice (by dsimp only [dtPciAttrCells]; omega),
      hon.slice (by omega), hon.slice (by omega)]
    have hattr : (it.cursor.rest row).getD 0 0 = (it.toList row).next.headD 0 := by
      show (it.cursor.rest row).getD 0 0 = (it.cursor.rest row).headD 0
      cases it.cursor.rest row <;> rfl
    rw [hattr]
    rfl

end Walk

/-- Record `i` of the cells of a walk. -/
def DtPciRanges.record (common : Emu68Common) (it : DtPciRanges) (i : ℕ) : DtPciRange :=
  let cells := it.next.drop (i * it.recordCells)
  { attr := cells.headD 0
    bus := common.dtGetNumber ((cells.drop dtPciAttrCells).take (it.pciAddrCells - dtPciAttrCells))
    cpu := common.dtGetNumber ((cells.drop it.pciAddrCells).take it.cpuAddrCells)
    size := common.dtGetNumber ((cells.drop (it.pciAddrCells + it.cpuAddrCells)).take it.sizeCells) }

/-- The walk behind its next record. -/
def DtPciRanges.tail (it : DtPciRanges) : DtPciRanges :=
  { it with next := it.next.drop it.recordCells }

/-- The complete records of the cells of a walk. -/
def DtPciRanges.records (common : Emu68Common) (it : DtPciRanges) : List DtPciRange :=
  (List.range (it.next.length / it.recordCells)).map (it.record common)

section Records

variable {common : Emu68Common} {it : DtPciRanges}

/-- A row that is too short for a record has none. -/
theorem records_of_lt (h : it.next.length < it.recordCells) : it.records common = [] := by
  unfold DtPciRanges.records
  rw [Nat.div_eq_of_lt h]
  rfl

/-- Any other row has a first one, and those of the cells behind it. -/
theorem records_of_le (hpos : 0 < it.recordCells) (h : it.recordCells ≤ it.next.length) :
    it.records common = it.record common 0 :: it.tail.records common := by
  have hrecord : ∀ i, it.record common (i + 1) = it.tail.record common i := by
    intro i
    have hdrop : it.next.drop ((i + 1) * it.recordCells)
        = (it.next.drop it.recordCells).drop (i * it.recordCells) := by
      rw [List.drop_drop, Nat.succ_mul, Nat.add_comm]
    unfold DtPciRanges.record
    dsimp only
    rw [hdrop]
    rfl
  have hcount : it.next.length / it.recordCells = it.tail.next.length / it.recordCells + 1 := by
    unfold DtPciRanges.tail
    rw [List.length_drop]
    exact Nat.div_eq_sub_div hpos h
  unfold DtPciRanges.records
  rw [hcount, List.range_succ_eq_map, List.map_cons, List.map_map]
  congr 1
  exact List.map_congr_left fun i _ => hrecord i

/-- With less than a record left the walk ends. -/
theorem dtPciRangesNext_of_lt (h : it.next.length < it.recordCells) :
    dtPciRangesNext common it = none := if_pos h

/-- Otherwise it returns the record and goes on behind it. -/
theorem dtPciRangesNext_of_le (h : it.recordCells ≤ it.next.length) :
    dtPciRangesNext common it = some (it.record common 0, it.tail) := by
  unfold dtPciRangesNext DtPciRanges.record
  rw [if_neg (Nat.not_lt.2 h), Nat.zero_mul]
  rfl

/-- The walk goes over the complete records and stops before what is left. -/
theorem dtPciRecords_eq (hpos : 0 < it.recordCells) {fuel : ℕ} (hfuel : it.next.length ≤ fuel) :
    dtPciRecords common fuel it = it.records common := by
  induction fuel generalizing it with
  | zero =>
    rw [records_of_lt (by omega)]
    rfl
  | succ fuel ih =>
    rw [dtPciRecords]
    by_cases hend : it.next.length < it.recordCells
    · rw [dtPciRangesNext_of_lt hend, records_of_lt hend]
    · have hle := Nat.not_lt.1 hend
      rw [dtPciRangesNext_of_le hle, records_of_le hpos hle]
      have htail : it.tail.next.length ≤ fuel := by
        unfold DtPciRanges.tail
        rw [List.length_drop]
        omega
      exact congrArg (it.record common 0 :: ·) (@ih it.tail hpos htail)

end Records

section Loops

variable {common : Emu68Common} {row : List (BitVec 32)}

/-- There is room in the table, so the region is added. -/
theorem RegionTable.add_eq {table : RegionTable} (h : table.regions.length < table.allocated)
    (res : PciRegion) :
    table.add res = some { table with regions := table.regions ++ [res] } := if_pos h

/-- **The loop over the records** stays inside the property and, with room for all of them, inside the
table. -/
theorem addRanges_eq {it : DtPciRangesAt} {table : RegionTable} (hon : it.cursor.On row)
    (haddr : 2 ≤ it.pciAddrCells) {fuel : ℕ} (hfuel : it.cursor.left < fuel)
    (hroom : table.regions.length + it.cursor.left / it.recordCells ≤ table.allocated) :
    addRanges common row fuel it table = some { table with
      regions := table.regions ++ ((it.toList row).records common).filterMap rangeRegion } := by
  induction fuel generalizing it table with
  | zero => exact absurd hfuel (Nat.not_lt_zero _)
  | succ fuel ih =>
    have hpos : 0 < it.recordCells := by
      unfold DtPciRangesAt.recordCells
      omega
    have hlength : (it.toList row).next.length = it.cursor.left := hon.length_rest
    have hcells : (it.toList row).recordCells = it.recordCells := rfl
    rw [addRanges, dtPciRangesNextAt_eq hon haddr]
    by_cases hend : it.cursor.left < it.recordCells
    · rw [dtPciRangesNext_of_lt (by rwa [hlength, hcells]), records_of_lt (by rwa [hlength, hcells])]
      show some table = some { table with regions := table.regions ++ [] }
      rw [List.append_nil]
    · have hle := Nat.not_lt.1 hend
      have hle' : (it.toList row).recordCells ≤ (it.toList row).next.length := by
        rwa [hlength, hcells]
      rw [dtPciRangesNext_of_le hle', records_of_le (by rwa [hcells]) hle']
      rw [Nat.div_eq_sub_div hpos hle] at hroom
      generalize hleft : (it.cursor.left - it.recordCells) / it.recordCells = left at hroom
      -- the walk behind the record, as a list
      have htail : DtPciRangesAt.toList { it with cursor := it.cursor.skip it.recordCells } row
          = (it.toList row).tail := by
        unfold DtPciRangesAt.toList DtPciRanges.tail
        rw [Cursor.rest_skip]
        rfl
      have hnext : ∀ table' : RegionTable,
          table'.regions.length + left ≤ table'.allocated →
          addRanges common row fuel { it with cursor := it.cursor.skip it.recordCells } table'
            = some { table' with
              regions := table'.regions
                ++ ((it.toList row).tail.records common).filterMap rangeRegion } := by
        intro table' hroom'
        rw [← htail]
        refine ih (hon.skip hle) haddr (by rw [Cursor.left_skip]; omega) ?_
        show table'.regions.length + (it.cursor.left - it.recordCells) / it.recordCells ≤ _
        rwa [hleft]
      show ((rangeRegion ((it.toList row).record common 0)).elim (some table) table.add).bind
        (fun table => addRanges common row fuel
          { it with cursor := it.cursor.skip it.recordCells } table) = _
      cases hregion : rangeRegion ((it.toList row).record common 0) with
      | none =>
        rw [List.filterMap_cons_none hregion, Option.elim_none, Option.bind_some]
        exact hnext table (by omega)
      | some res =>
        have hroom' : (table.regions ++ [res]).length + left ≤ table.allocated := by
          rw [List.length_append, List.length_singleton]
          omega
        rw [List.filterMap_cons_some hregion, Option.elim_some, RegionTable.add_eq (by omega),
          Option.bind_some, hnext _ hroom']
        dsimp only
        rw [List.append_assoc, List.singleton_append]

/-- The Fast RAM that is registered: the first four nodes that are inside the window. -/
theorem fastRamRegions_eq (dmaWin : PciRegion) (added : ℕ) (memList : List MemHeader) :
    fastRamRegions dmaWin added memList
      = (memList.filterMap (fastRamRegion dmaWin)).take (configNrDramBanks - added) := by
  induction memList generalizing added with
  | nil => rw [fastRamRegions, List.filterMap_nil, List.take_nil]
  | cons mh memList ih =>
    rw [fastRamRegions]
    by_cases hfull : configNrDramBanks ≤ added
    · rw [if_pos hfull, Nat.sub_eq_zero_of_le hfull, List.take_zero]
    · rw [if_neg hfull]
      cases hregion : fastRamRegion dmaWin mh with
      | none =>
        rw [List.filterMap_cons_none hregion]
        exact ih added
      | some res =>
        have hroom : configNrDramBanks - added = configNrDramBanks - (added + 1) + 1 := by omega
        rw [List.filterMap_cons_some hregion, hroom, List.take_succ_cons]
        exact congrArg (res :: ·) (ih (added + 1))

/-- **The loop over the memory list** stays inside the table, with room for four entries. -/
theorem addFastRam_eq (dmaWin : PciRegion) {added : ℕ} {memList : List MemHeader} {table : RegionTable}
    (hroom : table.regions.length + (configNrDramBanks - added) ≤ table.allocated) :
    addFastRam dmaWin added memList table
      = some { table with regions := table.regions ++ fastRamRegions dmaWin added memList } := by
  induction memList generalizing added table with
  | nil =>
    rw [addFastRam, fastRamRegions, List.append_nil]
  | cons mh memList ih =>
    rw [addFastRam, fastRamRegions]
    by_cases hfull : configNrDramBanks ≤ added
    · rw [if_pos hfull, if_pos hfull, List.append_nil]
    · rw [if_neg hfull, if_neg hfull]
      cases hregion : fastRamRegion dmaWin mh with
      | none => exact ih hroom
      | some res =>
        dsimp only
        rw [RegionTable.add_eq (by omega)]
        show addFastRam dmaWin (added + 1) memList { table with regions := table.regions ++ [res] } = _
        rw [ih (by dsimp only; rw [List.length_append, List.length_singleton]; omega)]
        dsimp only
        rw [List.append_assoc, List.singleton_append]

end Loops

/-! ## What is registered -/

/-- The record is one of I/O or memory, its bus address and its size have 32 bits, it is not empty, and
its last byte is inside the address types of the bus and of the CPU. -/
def DtPciRange.Listed (r : DtPciRange) : Prop :=
  (r.attr &&& dtPciAttrSpace = dtPciSpaceIo ∨ r.attr &&& dtPciAttrSpace = dtPciSpaceMem32 ∨
    r.attr &&& dtPciAttrSpace = dtPciSpaceMem64) ∧
  r.bus.toNat < 2 ^ 32 ∧ r.size.toNat < 2 ^ 32 ∧ r.size ≠ 0 ∧
  r.bus.toNat + r.size.toNat ≤ 2 ^ 32 ∧ r.cpu.toNat + r.size.toNat ≤ 2 ^ 64

instance (r : DtPciRange) : Decidable r.Listed := inferInstanceAs (Decidable (_ ∧ _))

/-- The region of a record, by its attribute cell of I/O, prefetchable memory or memory. -/
def DtPciRange.region (r : DtPciRange) : PciRegion where
  busStart := r.bus.setWidth 32
  physStart := r.cpu
  size := r.size.setWidth 32
  flags :=
    if r.attr &&& dtPciAttrSpace = dtPciSpaceIo then pciRegionIo
    else if r.attr &&& dtPciAttrPrefetch ≠ 0 then pciRegionPrefetch
    else pciRegionMem

/-- The upper half is 0 below 4 GiB. -/
theorem u64Hi32_eq_zero_iff (v : BitVec 64) : u64Hi32 v = 0 ↔ v.toNat < 2 ^ 32 := by
  have hlt := v.isLt
  have hhigh : (u64Hi32 v).toNat = v.toNat / 2 ^ 32 % 2 ^ 32 := by
    unfold u64Hi32
    rw [BitVec.toNat_setWidth, BitVec.toNat_ushiftRight, Nat.shiftRight_eq_div_pow]
  rw [← BitVec.toNat_inj, hhigh]
  show _ = 0 ↔ _
  omega

/-- The check that the last byte of a range is inside an address type. -/
theorem last_le_iff {limit start size : BitVec 64} {bits : ℕ} (hlimit : limit.toNat = 2 ^ bits - 1)
    (hbits : bits ≤ 64) (hstart : start.toNat < 2 ^ bits) (hsize : size ≠ 0) :
    ¬ limit - start < size - 1 ↔ start.toNat + size.toNat ≤ 2 ^ bits := by
  have hpow : 2 ^ bits ≤ 2 ^ 64 := Nat.pow_le_pow_right (by decide) hbits
  have hpos : size.toNat ≠ 0 := fun h => hsize (BitVec.eq_of_toNat_eq h)
  have hlt := size.isLt
  have hroom : (limit - start).toNat = 2 ^ bits - 1 - start.toNat := by
    rw [BitVec.toNat_sub, hlimit]
    omega
  have hlast : (size - 1).toNat = size.toNat - 1 := by
    rw [BitVec.toNat_sub]
    show (2 ^ 64 - 1 + size.toNat) % 2 ^ 64 = _
    omega
  rw [BitVec.lt_def, hroom, hlast]
  omega

/-- The type of a region is that of its record's space. -/
theorem dtRegionType_eq (r : DtPciRange) : dtRegionType r.attr
    = if r.attr &&& dtPciAttrSpace = dtPciSpaceIo ∨ r.attr &&& dtPciAttrSpace = dtPciSpaceMem32 ∨
        r.attr &&& dtPciAttrSpace = dtPciSpaceMem64 then some r.region.flags else none := by
  unfold dtRegionType DtPciRange.region
  dsimp only
  by_cases hio : r.attr &&& dtPciAttrSpace = dtPciSpaceIo
  · rw [if_pos hio, if_pos (Or.inl hio), if_pos hio]
  · rw [if_neg hio, if_neg hio]
    by_cases hmem : r.attr &&& dtPciAttrSpace = dtPciSpaceMem32 ∨ r.attr &&& dtPciAttrSpace = dtPciSpaceMem64
    · rw [if_pos hmem, if_pos (Or.inr hmem)]
    · rw [if_neg hmem, if_neg (not_or.2 ⟨hio, hmem⟩)]

/-- The checks of a record's numbers. -/
theorem listed_iff {r : DtPciRange}
    (hspace : r.attr &&& dtPciAttrSpace = dtPciSpaceIo ∨ r.attr &&& dtPciAttrSpace = dtPciSpaceMem32 ∨
      r.attr &&& dtPciAttrSpace = dtPciSpaceMem64) :
    r.Listed ↔ ¬ (u64Hi32 r.bus ≠ 0 ∨ u64Hi32 r.size ≠ 0) ∧
      ¬ (r.size = 0 ∨ pciAddrMax - r.bus < r.size - 1 ∨ physAddrMax - r.cpu < r.size - 1) := by
  rw [not_or, not_or, not_or, not_not, not_not, u64Hi32_eq_zero_iff, u64Hi32_eq_zero_iff]
  unfold DtPciRange.Listed
  constructor
  · rintro ⟨-, hbus, hsize, hne, hbusEnd, hcpuEnd⟩
    exact ⟨⟨hbus, hsize⟩, hne, (last_le_iff rfl (by decide) hbus hne).2 hbusEnd,
      (last_le_iff rfl le_rfl r.cpu.isLt hne).2 hcpuEnd⟩
  · rintro ⟨⟨hbus, hsize⟩, hne, hbusEnd, hcpuEnd⟩
    exact ⟨hspace, hbus, hsize, hne, (last_le_iff rfl (by decide) hbus hne).1 hbusEnd,
      (last_le_iff rfl le_rfl r.cpu.isLt hne).1 hcpuEnd⟩

/-- **Which records are registered**, and as what. -/
theorem rangeRegion_eq (r : DtPciRange) : rangeRegion r = if r.Listed then some r.region else none := by
  unfold rangeRegion
  rw [dtRegionType_eq]
  by_cases hspace : r.attr &&& dtPciAttrSpace = dtPciSpaceIo ∨
      r.attr &&& dtPciAttrSpace = dtPciSpaceMem32 ∨ r.attr &&& dtPciAttrSpace = dtPciSpaceMem64
  · rw [if_pos hspace]
    dsimp only
    by_cases hhigh : u64Hi32 r.bus ≠ 0 ∨ u64Hi32 r.size ≠ 0
    · rw [if_pos hhigh, if_neg fun h => ((listed_iff hspace).1 h).1 hhigh]
    · rw [if_neg hhigh]
      by_cases hend : r.size = 0 ∨ pciAddrMax - r.bus < r.size - 1 ∨ physAddrMax - r.cpu < r.size - 1
      · rw [if_pos hend, if_neg fun h => ((listed_iff hspace).1 h).2 hend]
      · rw [if_neg hend, if_pos ((listed_iff hspace).2 ⟨hhigh, hend⟩)]
        rfl
  · rw [if_neg hspace, if_neg fun h => hspace h.1]

/-- The node of the memory list is Fast RAM that lies wholly inside the window. -/
def MemHeader.InWindow (dmaWin : PciRegion) (mh : MemHeader) : Prop :=
  mh.attributes &&& memfFast ≠ 0 ∧ mh.lower.toNat < mh.upper.toNat ∧
    dmaWin.physStart.toNat ≤ mh.lower.toNat ∧
    mh.upper.toNat ≤ dmaWin.physStart.toNat + dmaWin.size.toNat

instance (dmaWin : PciRegion) (mh : MemHeader) : Decidable (mh.InWindow dmaWin) :=
  inferInstanceAs (Decidable (_ ∧ _))

/-- The region of a node of the memory list, at the bus addresses where the window shows it. -/
def MemHeader.region (dmaWin : PciRegion) (mh : MemHeader) : PciRegion where
  busStart := mh.lower + (dmaWin.busStart.setWidth 64 - dmaWin.physStart).setWidth 32
  physStart := mh.lower.setWidth 64
  size := mh.upper - mh.lower
  flags := pciRegionMem ||| pciRegionSysMemory

/-- **Which memory is registered**, for a window below the end of the address space. -/
theorem fastRamRegion_eq {dmaWin : PciRegion}
    (hwin : dmaWin.physStart.toNat + dmaWin.size.toNat < 2 ^ 64) (mh : MemHeader) :
    fastRamRegion dmaWin mh = if mh.InWindow dmaWin then some (mh.region dmaWin) else none := by
  have hlower := mh.lower.isLt
  have hupper := mh.upper.isLt
  have hsize := dmaWin.size.isLt
  -- the comparisons of the code are of 64 bits, and nothing wraps below the end of the window
  have hlow : mh.lower.setWidth 64 < dmaWin.physStart ↔ mh.lower.toNat < dmaWin.physStart.toNat := by
    rw [BitVec.lt_def, BitVec.toNat_setWidth]
    omega
  have hhigh : dmaWin.physStart + dmaWin.size.setWidth 64 < mh.upper.setWidth 64 ↔
      dmaWin.physStart.toNat + dmaWin.size.toNat < mh.upper.toNat := by
    rw [BitVec.lt_def, BitVec.toNat_add, BitVec.toNat_setWidth, BitVec.toNat_setWidth]
    omega
  unfold fastRamRegion
  by_cases hfast : mh.attributes &&& memfFast = 0
  · rw [if_pos hfast, if_neg fun h => h.1 hfast]
  · rw [if_neg hfast]
    by_cases hempty : mh.upper ≤ mh.lower
    · rw [if_pos hempty, if_neg fun h => absurd h.2.1 (Nat.not_lt.2 hempty)]
    · rw [if_neg hempty]
      have hlt : mh.lower.toNat < mh.upper.toNat := Nat.lt_of_not_le hempty
      by_cases hout : mh.lower.setWidth 64 < dmaWin.physStart ∨
          dmaWin.physStart + dmaWin.size.setWidth 64 < mh.upper.setWidth 64
      · rw [if_pos hout, if_neg]
        rintro ⟨-, -, hin, hend⟩
        rw [hlow, hhigh] at hout
        omega
      · rw [if_neg hout, if_pos]
        · rfl
        · rw [hlow, hhigh] at hout
          exact ⟨hfast, hlt, by omega, by omega⟩

/-- A list of what passes a check, as a list of what is made of it. -/
theorem filterMap_ite {α β : Type} (p : α → Prop) [DecidablePred p] (f : α → β) (l : List α) :
    l.filterMap (fun a => if p a then some (f a) else none) = (l.filter p).map f := by
  induction l with
  | nil => rfl
  | cons a l ih =>
    by_cases h : p a
    · rw [List.filterMap_cons, if_pos h, ih, List.filter_cons, if_pos (decide_eq_true h), List.map_cons]
    · rw [List.filterMap_cons, if_neg h, ih, List.filter_cons, if_neg (by rwa [decide_eq_true_eq])]

section Node

variable (common : Emu68Common) {node : DtNode} {cells : List (BitVec 32)}
  (hranges : node.ranges = some cells) (haddr : 2 ≤ node.addressCells)

include hranges haddr

/-- The property is opened with the cells of the node. -/
theorem dtPciRangesOpen_eq : dtPciRangesOpen node node.ranges
    = .ok ⟨cells, node.addressCells, node.parentAddressCells, node.sizeCells⟩ := by
  unfold dtPciRangesOpen
  rw [hranges]
  exact if_neg (Nat.not_le.2 haddr)

/-- The function on lists, by the complete records. -/
theorem pciGetDevtreeRegions_eq (dmaWin : PciRegion) (memList : List MemHeader) :
    pciGetDevtreeRegions common node dmaWin memList true = .ok
      ((DtPciRanges.records common ⟨cells, node.addressCells, node.parentAddressCells,
          node.sizeCells⟩).filterMap rangeRegion
        ++ (memList.filterMap (fastRamRegion dmaWin)).take configNrDramBanks) := by
  have hpos : 0 < DtPciRanges.recordCells
      ⟨cells, node.addressCells, node.parentAddressCells, node.sizeCells⟩ := by
    unfold DtPciRanges.recordCells
    dsimp only
    omega
  unfold pciGetDevtreeRegions
  rw [dtPciRangesOpen_eq hranges haddr]
  dsimp only
  rw [if_neg (by decide), dtPciRecords_eq hpos le_rfl, fastRamRegions_eq, Nat.sub_zero]

/-- The function stays inside the property and inside the table, and fills it as the function on lists
does. -/
theorem pciGetDevtreeRegionsAt_eq (dmaWin : PciRegion) (memList : List MemHeader) {fuel : ℕ}
    (hfuel : cells.length < fuel) :
    ∃ table, pciGetDevtreeRegionsAt common node dmaWin memList true fuel = some (.ok table) ∧
      pciGetDevtreeRegions common node dmaWin memList true = .ok table.regions ∧
      table.regions.length ≤ table.allocated := by
  let it : DtPciRanges := ⟨cells, node.addressCells, node.parentAddressCells, node.sizeCells⟩
  let walk : DtPciRangesAt :=
    ⟨.start cells, node.addressCells, node.parentAddressCells, node.sizeCells⟩
  let empty : RegionTable := { allocated := cells.length / walk.recordCells + configNrDramBanks }
  let windows := (it.records common).filterMap rangeRegion
  -- the table is allocated for every record and for four banks, and takes no more of either
  have hroom : empty.regions.length + cells.length / walk.recordCells ≤ empty.allocated := by
    show 0 + _ ≤ _ + configNrDramBanks
    omega
  have hrecords : addRanges common cells fuel walk empty = some { empty with regions := windows } :=
    addRanges_eq (Cursor.on_start cells) haddr hfuel hroom
  have hcount : windows.length ≤ cells.length / walk.recordCells := by
    refine (List.length_filterMap_le _ _).trans (le_of_eq ?_)
    unfold DtPciRanges.records
    rw [List.length_map, List.length_range]
    rfl
  have hram : addFastRam dmaWin 0 memList { empty with regions := windows }
      = some { empty with regions := windows ++ fastRamRegions dmaWin 0 memList } :=
    addFastRam_eq dmaWin (Nat.add_le_add_right hcount _)
  refine ⟨{ empty with regions := windows ++ fastRamRegions dmaWin 0 memList }, ?_, ?_, ?_⟩
  · unfold pciGetDevtreeRegionsAt
    rw [dtPciRangesOpen_eq hranges haddr]
    show (addRanges common cells fuel walk empty).bind _ = _
    rw [hrecords, Option.bind_some, hram]
    rfl
  · rw [pciGetDevtreeRegions_eq common hranges haddr, fastRamRegions_eq]
    rfl
  · rw [List.length_append, fastRamRegions_eq]
    exact Nat.add_le_add hcount (List.length_take_le _ _)

end Node

/-- **The region table** of a PCI node: nothing outside the property is read and nothing outside the
table is written; there are the complete records that can be registered, in their order, and behind
them up to four ranges of Fast RAM inside the window. -/
theorem pciGetDevtreeRegionsAt_exact (common : Emu68Common) {node : DtNode}
    {cells : List (BitVec 32)} (hranges : node.ranges = some cells) (haddr : 2 ≤ node.addressCells)
    {dmaWin : PciRegion} (hwin : brcmPcieDmaWindow common node = .ok dmaWin)
    (memList : List MemHeader) {fuel : ℕ} (hfuel : cells.length < fuel) :
    ∃ table, pciGetDevtreeRegionsAt common node dmaWin memList true fuel = some (.ok table) ∧
      table.regions.length ≤ table.allocated ∧
      table.regions = ((DtPciRanges.records common ⟨cells, node.addressCells, node.parentAddressCells,
            node.sizeCells⟩).filter (·.Listed)).map (·.region)
        ++ ((memList.filter (·.InWindow dmaWin)).map (·.region dmaWin)).take configNrDramBanks := by
  obtain ⟨-, hend, -⟩ := brcmPcieDmaWindow_ok hwin
  obtain ⟨table, hrun, hlist, hroom⟩ :=
    pciGetDevtreeRegionsAt_eq common hranges haddr dmaWin memList hfuel
  refine ⟨table, hrun, hroom, ?_⟩
  rw [pciGetDevtreeRegions_eq common hranges haddr, Except.ok.injEq] at hlist
  have hwindows : rangeRegion = fun r : DtPciRange => if r.Listed then some r.region else none :=
    funext rangeRegion_eq
  have hram : fastRamRegion dmaWin
      = fun mh : MemHeader => if mh.InWindow dmaWin then some (mh.region dmaWin) else none :=
    funext (fastRamRegion_eq (by omega))
  rw [← hlist, hwindows, hram, filterMap_ite, filterMap_ite]

/-- A node with a window of memory, a record of configuration space, half a record, and an inbound
window of 1 GiB. -/
def rangesNode : DtNode where
  ranges := some [0x02000000, 0, 0xc0000000, 6, 0, 0, 0x40000000, 0, 0, 0, 0, 0, 0, 1, 0x02000000, 0]
  dmaRanges := some [0x02000000, 4, 0, 0, 0, 0, 0x40000000]
  addressCells := 3
  sizeCells := 2

/-- One window and one range of Fast RAM. -/
theorem rangesNode_exact : ∃ dmaWin table,
    brcmPcieDmaWindow .plain rangesNode = .ok dmaWin ∧
    pciGetDevtreeRegionsAt .plain rangesNode dmaWin
        [⟨memfFast, 0x08000000, 0x40000000⟩, ⟨memfFast, 0x60000000, 0x70000000⟩] true 20
      = some (.ok table) ∧ table.regions.length = 2 := by
  have hwin : brcmPcieDmaWindow .plain rangesNode
      = .ok { physStart := 0, busStart := 0, size := 0x40000000, flags := 0 } := by decide
  obtain ⟨table, hrun, -, hregions⟩ := pciGetDevtreeRegionsAt_exact .plain
    (rfl : rangesNode.ranges = some _) (by decide) hwin
    [⟨memfFast, 0x08000000, 0x40000000⟩, ⟨memfFast, 0x60000000, 0x70000000⟩] (by decide : 16 < 20)
  refine ⟨_, table, hwin, hrun, ?_⟩
  rw [hregions]
  decide

end BcmPcie
