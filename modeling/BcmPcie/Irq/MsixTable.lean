import BcmPcie.Enumeration.Scan
import BcmPcie.Irq.Msix

/-! # Where the MSI-X table is

`pci_msix_init` takes the place of the MSI-X table from two registers of the device, a BAR and an
offset into it, and checks once that the table fits the BAR; every later write of an entry relies on
that check. The end of the table is a 32-bit sum.

* `MsixTable.Sound` — when a table that passed the check is one the operations may rely on.
* `msixTableInside_iff` — when the table lies in a BAR. -/

namespace BcmPcie

variable {σ : Type}

/-! ## The table of a device -/

/-- A table that passed the check: the start of its BAR as the CPU sees it, its offset, its entries. -/
structure MsixTable where
  base : BitVec 32
  offset : BitVec 32
  entries : ℕ

/-- The check of `pci_msix_init`: the table that the registers of a device describe, if it passes. -/
def msixTable (dev : PciDevice) : Option MsixTable :=
  let capOffset := pciFindCapability dev pciCapIdMsix
  if capOffset = 0 then none
  else
    let off := pciMsixSetCtrl { dev with msix := { dev.msix with capOffset := capOffset } }
      pciMsixFlagsEnable 0
    let entries := (pciReadConfig16 off (capOffset + pciMsixFlags) &&& pciMsixFlagsQsize).toNat + 1
    let table := pciReadConfig32 off (capOffset + pciMsixTable)
    let bar := dev.bars (table &&& pciMsixTableBir).toNat
    let offset := table &&& pciMsixTableOffset
    if dev.barsNum ≤ (table &&& pciMsixTableBir).toNat ∨ bar.present = false ∨ bar.type ≠ .mem ∨
        bar.pointer = 0 then none
    else if bar.size < offset + BitVec.ofNat 32 entries * BitVec.ofNat 32 pciMsixEntrySize then none
    else some ⟨bar.pointer, offset, entries⟩

/-- Slot `slot` of the device has a memory BAR that is present and mapped. -/
def MappedMemory (dev : PciDevice) (slot : ℕ) : Prop :=
  slot < dev.barsNum ∧ (dev.bars slot).type = .mem ∧ (dev.bars slot).Mapped

/-- The CPU addresses from `start` on lie in a memory BAR of the device that is present and mapped. -/
def InMappedBar (dev : PciDevice) (start len : ℕ) : Prop :=
  ∃ slot, MappedMemory dev slot ∧ (dev.bars slot).pointer.toNat ≤ start ∧
    start + len ≤ (dev.bars slot).pointer.toNat + (dev.bars slot).size.toNat

namespace MsixTable

variable (table : MsixTable)

/-- The bytes of the table. -/
def bytes : ℕ := table.entries * pciMsixEntrySize

/-- Neither the end of the table in its BAR nor its start as the CPU sees it passes 4 GiB. -/
def Fits : Prop :=
  table.offset.toNat + table.bytes < 2 ^ 32 ∧ table.base.toNat + table.offset.toNat < 2 ^ 32

instance : Decidable table.Fits := inferInstanceAs (Decidable (_ ∧ _))

/-- No sum wraps; or the start of the table comes out as `NULL`, and there is no table; or the table ends
at 4 GiB exactly, and the bytes in front of its BAR that it is taken for are in a BAR as well. -/
def Sound (dev : PciDevice) : Prop :=
  table.Fits ∨ table.base.toNat + table.offset.toNat = 2 ^ 32 ∨
    (table.offset.toNat + table.bytes = 2 ^ 32 ∧
      ∃ slot, MappedMemory dev slot ∧
        (dev.bars slot).pointer.toNat + table.bytes ≤ table.base.toNat ∧
        table.base.toNat ≤ (dev.bars slot).pointer.toNat + (dev.bars slot).size.toNat)

/-- The start of the table as the CPU sees it. -/
def start : BitVec 32 := table.base + table.offset

/-- The pointer to the table that is kept. -/
def virt : Option (BitVec 32) := if table.start = 0 then none else some table.start

end MsixTable

/-- The mapped memory BARs of a device share no address of the CPU, and none goes beyond 4 GiB. -/
structure MappedApart (dev : PciDevice) : Prop where
  below : ∀ slot, MappedMemory dev slot →
    (dev.bars slot).pointer.toNat + (dev.bars slot).size.toNat ≤ 2 ^ 32
  apart : ∀ i j, MappedMemory dev i → MappedMemory dev j → i ≠ j →
    (dev.bars i).pointer.toNat + (dev.bars i).size.toNat ≤ (dev.bars j).pointer.toNat ∨
      (dev.bars j).pointer.toNat + (dev.bars j).size.toNat ≤ (dev.bars i).pointer.toNat

/-- The MSI-X operations write words of the table that lie in a mapped BAR: an allocation its entries,
masking and unmasking an entry that was allocated. -/
def MsixWritesInside (dev : PciDevice) (start : ℕ) : Prop :=
  (∀ (σ : Type) (pcie : PciController σ) (min max offset : ℕ),
    (pciMsixAlloc pcie dev min max).2.1.tableMem offset ≠ dev.tableMem offset →
      InMappedBar dev (start + offset) 4) ∧
    ∀ vec < dev.msix.tableSize, ∀ offset,
      (pciMsixEntryMask dev vec).tableMem offset ≠ dev.tableMem offset ∨
          (pciMsixEntryUnmask dev vec).tableMem offset ≠ dev.tableMem offset →
        InMappedBar dev (start + offset) 4

/-- The whole table lies in a mapped BAR, and so does what is written of it. -/
def MsixTableInside (dev : PciDevice) : Prop :=
  ∀ tableVirt ∈ dev.msix.tableVirt,
    InMappedBar dev tableVirt.toNat (dev.msix.tableSize * pciMsixEntrySize) ∧
      MsixWritesInside dev tableVirt.toNat

/-! ## What the writes reach -/

/-- Part of a range in a BAR. -/
theorem InMappedBar.sub {dev : PciDevice} {start len start' len' : ℕ}
    (h : InMappedBar dev start len) (hlow : start ≤ start') (hhigh : start' + len' ≤ start + len) :
    InMappedBar dev start' len' := by
  obtain ⟨slot, hslot, hle, hend⟩ := h
  exact ⟨slot, hslot, hle.trans hlow, hhigh.trans hend⟩

/-- A write to entry `vec` reaches a word of that entry. -/
theorem msixTableWrite_reach {dev : PciDevice} {vec field offset : ℕ} {value : BitVec 32}
    (hfield : field + 4 ≤ pciMsixEntrySize)
    (h : (msixTableWrite dev (msixEntry vec + field) value).tableMem offset ≠ dev.tableMem offset) :
    offset + 4 ≤ (vec + 1) * pciMsixEntrySize := by
  have hoff : offset = msixEntry vec + field := by
    by_contra hne
    exact h (Function.update_of_ne hne _ _)
  simp only [msixEntry, pciMsixEntrySize] at hoff hfield ⊢
  omega

/-- Programming `nvec` entries reaches words of these entries. -/
theorem msixProgramLoop_reach (pcie : PciController σ) (dev : PciDevice) {nvec offset : ℕ}
    (h : (msixProgramLoop pcie dev nvec).tableMem offset ≠ dev.tableMem offset) :
    offset + 4 ≤ nvec * pciMsixEntrySize := by
  induction nvec with
  | zero => exact absurd rfl h
  | succ n ih =>
    have hstep : msixProgramLoop pcie dev (n + 1)
        = msixProgramEntry pcie (msixProgramLoop pcie dev n) n := by
      simp only [msixProgramLoop, List.range_succ, List.foldl_append, List.foldl_cons,
        List.foldl_nil]
    rw [hstep] at h
    by_contra hout
    -- none of the four words of entry `n` is at `offset`, and the earlier rounds do not reach it
    have hbefore : (msixProgramLoop pcie dev n).tableMem offset = dev.tableMem offset := by
      by_contra hne
      have hlow := ih hne
      simp only [pciMsixEntrySize] at hlow hout
      omega
    have hword : ∀ field, field + 4 ≤ 16 → offset ≠ msixEntry n + field := by
      intro field hfield heq
      simp only [msixEntry, pciMsixEntrySize] at heq hout
      omega
    apply h
    rw [← hbefore]
    simp only [msixProgramEntry, msixTableWrite, pciMsixEntryLowerAddr, pciMsixEntryUpperAddr,
      pciMsixEntryData, pciMsixEntryVectorCtrl]
    rw [Function.update_of_ne (hword 12 (by decide)), Function.update_of_ne (hword 8 (by decide)),
      Function.update_of_ne (hword 4 (by decide)), Function.update_of_ne (hword 0 (by decide))]

/-- What is written of a table that lies in a BAR lies there too. -/
theorem msixWritesInside {dev : PciDevice} {start : ℕ}
    (h : InMappedBar dev start (dev.msix.tableSize * pciMsixEntrySize)) :
    MsixWritesInside dev start := by
  have hreach {n offset : ℕ} (hn : n ≤ dev.msix.tableSize)
      (hoff : offset + 4 ≤ n * pciMsixEntrySize) : InMappedBar dev (start + offset) 4 := by
    have hle : n * pciMsixEntrySize ≤ dev.msix.tableSize * pciMsixEntrySize :=
      Nat.mul_le_mul_right _ hn
    exact h.sub (Nat.le_add_right _ _) (by omega)
  constructor
  · intro σ pcie min max offset hwritten
    obtain ⟨e, slots, heq⟩ | ⟨n, slots, used, heq, -, -, -, hn, -⟩ :=
      pciMsixAlloc_cases pcie dev min max
    · rw [heq] at hwritten
      exact absurd rfl hwritten
    · rw [heq] at hwritten
      refine hreach hn (msixProgramLoop_reach (pcie.setUsed used)
        (pciMsixSetCtrl (dev.setSlots slots) 0 (pciMsixFlagsEnable ||| pciMsixFlagsMaskall)) ?_)
      simpa only [pciMsixProgram, pciMsixSetCtrl_tableMem, pciIntx_tableMem, setSlots_tableMem]
        using hwritten
  · rintro vec hvec offset (hmask | hunmask)
    · exact hreach hvec (msixTableWrite_reach (by decide) hmask)
    · exact hreach hvec (msixTableWrite_reach (by decide) hunmask)

/-! ## The check -/

/-- What `pci_msix_init` leaves behind: the BARs, and a table if one passed the check. -/
theorem pciMsixInit_table (dev : PciDevice) (hfresh : dev.msix.tableVirt = none) :
    (pciMsixInit dev).barsNum = dev.barsNum ∧ (pciMsixInit dev).bars = dev.bars ∧
      (pciMsixInit dev).msix.tableVirt = (msixTable dev).bind MsixTable.virt ∧
      ∀ table ∈ msixTable dev, (pciMsixInit dev).msix.tableSize = table.entries := by
  unfold pciMsixInit msixTable
  dsimp only
  by_cases hcap : pciFindCapability dev pciCapIdMsix = 0
  · rw [if_pos hcap, if_pos hcap]
    exact ⟨rfl, rfl, hfresh, fun t ht => by cases ht⟩
  · rw [if_neg hcap, if_neg hcap]
    generalize hoff : pciMsixSetCtrl
      { dev with msix := { dev.msix with capOffset := pciFindCapability dev pciCapIdMsix } }
      pciMsixFlagsEnable 0 = off
    generalize (pciReadConfig16 off (pciFindCapability dev pciCapIdMsix + pciMsixFlags) &&&
      pciMsixFlagsQsize).toNat + 1 = n
    -- the table size is noted before the table register is read, which does not depend on it
    have hread : ∀ x, pciReadConfig32
        { off with msix := { off.msix with tableSize := n } } x = pciReadConfig32 off x :=
      fun _ => rfl
    obtain ⟨hnum, hbars, htable⟩ : off.barsNum = dev.barsNum ∧ off.bars = dev.bars ∧
        off.msix.tableVirt = none := by
      rw [← hoff]
      exact ⟨rfl, rfl, hfresh⟩
    simp only [hread]
    simp only [hnum, hbars]
    generalize pciReadConfig32 off (pciFindCapability dev pciCapIdMsix + pciMsixTable) = table
    by_cases hbar : dev.barsNum ≤ (table &&& pciMsixTableBir).toNat ∨
        (dev.bars (table &&& pciMsixTableBir).toNat).present = false ∨
        (dev.bars (table &&& pciMsixTableBir).toNat).type ≠ .mem ∨
        (dev.bars (table &&& pciMsixTableBir).toNat).pointer = 0
    · rw [if_pos hbar, if_pos hbar]
      exact ⟨rfl, rfl, htable, fun t ht => by cases ht⟩
    · rw [if_neg hbar, if_neg hbar]
      split
      · exact ⟨rfl, rfl, htable, fun t ht => by cases ht⟩
      · refine ⟨rfl, rfl, rfl, fun t ht => ?_⟩
        obtain rfl := Option.some.inj ht
        rfl

/-- A table that passed the check: its BAR, and the sum that was compared. -/
theorem msixTable_spec {dev : PciDevice} {table : MsixTable} (h : table ∈ msixTable dev) :
    1 ≤ table.entries ∧ table.entries ≤ 2048 ∧ ∃ slot, MappedMemory dev slot ∧
      table.base = (dev.bars slot).pointer ∧
      (table.offset.toNat + table.bytes) % 2 ^ 32 ≤ (dev.bars slot).size.toNat := by
  unfold msixTable at h
  dsimp only at h
  -- no capability, then no mapped memory BAR and no room: each is a refusal
  split at h
  · cases h
  · generalize hoff : pciMsixSetCtrl
      { dev with msix := { dev.msix with capOffset := pciFindCapability dev pciCapIdMsix } }
      pciMsixFlagsEnable 0 = off at h
    generalize hn : (pciReadConfig16 off (pciFindCapability dev pciCapIdMsix + pciMsixFlags) &&&
      pciMsixFlagsQsize).toNat + 1 = n at h
    have hentries : n ≤ 2048 := by
      have hand : (pciReadConfig16 off (pciFindCapability dev pciCapIdMsix + pciMsixFlags) &&&
          pciMsixFlagsQsize).toNat ≤ pciMsixFlagsQsize.toNat := by
        rw [BitVec.toNat_and]
        exact Nat.and_le_right
      have hmax : pciMsixFlagsQsize.toNat = 2047 := rfl
      omega
    generalize pciReadConfig32 off (pciFindCapability dev pciCapIdMsix + pciMsixTable) = reg at h
    split at h
    · cases h
    · rename_i hbar
      rw [not_or, not_or, not_or, Nat.not_le, Bool.not_eq_false, not_not] at hbar
      split at h
      · cases h
      · rename_i hcheck
        obtain rfl := Option.some.inj h
        refine ⟨hn ▸ Nat.le_add_left 1 _, hentries, (reg &&& pciMsixTableBir).toNat,
          ⟨hbar.1, hbar.2.2.1, hbar.2.1, hbar.2.2.2⟩, rfl, ?_⟩
        have hsize : (BitVec.ofNat 32 pciMsixEntrySize).toNat = pciMsixEntrySize := rfl
        rw [BitVec.lt_def, Nat.not_lt, BitVec.toNat_add, BitVec.toNat_mul, BitVec.toNat_ofNat,
          hsize] at hcheck
        simp only [MsixTable.bytes, pciMsixEntrySize] at hcheck ⊢
        omega

namespace MsixTable

variable {dev : PciDevice} {table : MsixTable}

/-- A pointer to a table is kept unless the start comes out as 0. -/
theorem mem_virt {addr : BitVec 32} : addr ∈ table.virt ↔ table.start ≠ 0 ∧ addr = table.start := by
  unfold virt
  by_cases hzero : table.start = 0
  · rw [if_pos hzero]
    exact iff_of_false (fun h => by cases h) fun h => h.1 hzero
  · rw [if_neg hzero, and_iff_right hzero, Option.mem_some]
    exact eq_comm

/-- The start of the table is a sum of two addresses below 4 GiB. -/
theorem toNat_start :
    table.start.toNat = (table.base.toNat + table.offset.toNat) % 2 ^ 32 := BitVec.toNat_add _ _

/-- A sound table lies in a BAR. -/
theorem Sound.inMappedBar (hsound : table.Sound dev) (h : table ∈ msixTable dev)
    (hne : table.start ≠ 0) : InMappedBar dev table.start.toNat table.bytes := by
  have hstart := @toNat_start table
  rcases hsound with ⟨hsum, hvirt⟩ | hnull | ⟨hend, slot, hslot, hlow, hhigh⟩
  · obtain ⟨-, -, slot, hslot, hbase, hcheck⟩ := msixTable_spec h
    rw [Nat.mod_eq_of_lt hsum] at hcheck
    rw [Nat.mod_eq_of_lt hvirt, hbase] at hstart
    exact ⟨slot, hslot, by omega, by omega⟩
  · have hzero : table.start.toNat = 0 := by rw [hstart, hnull, Nat.mod_self]
    exact absurd (BitVec.eq_of_toNat_eq hzero) hne
  · have hbase := table.base.isLt
    have hback : table.start.toNat = table.base.toNat - table.bytes := by
      rw [hstart]
      omega
    exact ⟨slot, hslot, by omega, by omega⟩

/-- A table that lies in a BAR is sound, where the BARs share no address. -/
theorem sound_of_inMappedBar (hapart : MappedApart dev) (h : table ∈ msixTable dev)
    (hin : table.start ≠ 0 → InMappedBar dev table.start.toNat table.bytes) : table.Sound dev := by
  obtain ⟨hpos, hmax, slot, hslot, hbase, hcheck⟩ := msixTable_spec h
  have hstart := @toNat_start table
  have hend := hapart.below slot hslot
  have hmapped : table.base.toNat ≠ 0 := fun hzero =>
    hslot.2.2.2 (hbase ▸ BitVec.eq_of_toNat_eq hzero)
  have hoffset := table.offset.isLt
  have hbytes : 0 < table.bytes ∧ table.bytes ≤ 2048 * 16 :=
    ⟨Nat.mul_pos hpos (by decide), Nat.mul_le_mul_right _ hmax⟩
  have hbaseNat : table.base.toNat = (dev.bars slot).pointer.toNat := congrArg BitVec.toNat hbase
  by_cases hsum : table.offset.toNat + table.bytes < 2 ^ 32
  · rw [Nat.mod_eq_of_lt hsum] at hcheck
    exact Or.inl ⟨hsum, by omega⟩
  by_cases hnull : table.base.toNat + table.offset.toNat = 2 ^ 32
  · exact Or.inr (Or.inl hnull)
  -- the sum wraps, so the table is taken to start in front of its BAR
  have hne : table.start ≠ 0 := by
    intro hzero
    have hzero' : table.start.toNat = 0 := by rw [hzero]; rfl
    omega
  obtain ⟨other, hother, hlow, hhigh⟩ := hin hne
  have hbelow := hapart.below other hother
  have hfront : table.start.toNat = table.base.toNat + table.offset.toNat - 2 ^ 32 ∧
      2 ^ 32 < table.base.toNat + table.offset.toNat := by
    omega
  by_cases htop : table.offset.toNat + table.bytes = 2 ^ 32
  · exact Or.inr (Or.inr ⟨htop, other, hother, by omega, by omega⟩)
  · -- it reaches into its own BAR, which shares no address with another
    exfalso
    by_cases hsame : other = slot
    · rw [hsame] at hlow
      omega
    · rcases hapart.apart other slot hother hslot hsame with hleft | hright
      · omega
      · omega

end MsixTable

/-- **When the table lies in a BAR**: if every table that passes the check is sound; and only then, where
the BARs share no address and none goes beyond 4 GiB. -/
theorem msixTableInside_iff (dev : PciDevice) (hfresh : dev.msix.tableVirt = none) :
    ((∀ table ∈ msixTable dev, table.Sound dev) → MsixTableInside (pciMsixInit dev)) ∧
      (MappedApart dev →
        (MsixTableInside (pciMsixInit dev) ↔ ∀ table ∈ msixTable dev, table.Sound dev)) := by
  obtain ⟨hnum, hbars, hvirt, hsize⟩ := pciMsixInit_table dev hfresh
  have hinside {start len : ℕ} :
      InMappedBar (pciMsixInit dev) start len ↔ InMappedBar dev start len := by
    unfold InMappedBar MappedMemory
    rw [hnum, hbars]
  have henough : (∀ table ∈ msixTable dev, table.Sound dev) → MsixTableInside (pciMsixInit dev) := by
    intro hsound tableVirt hmem
    rw [hvirt] at hmem
    obtain ⟨table, htable, hkept⟩ := Option.mem_bind_iff.1 hmem
    obtain ⟨hne, rfl⟩ := MsixTable.mem_virt.1 hkept
    have hrange : InMappedBar (pciMsixInit dev) table.start.toNat
        ((pciMsixInit dev).msix.tableSize * pciMsixEntrySize) := by
      rw [hsize table htable]
      exact hinside.2 ((hsound table htable).inMappedBar htable hne)
    exact ⟨hrange, msixWritesInside hrange⟩
  refine ⟨henough, fun hapart => ⟨fun htable table hmem => ?_, henough⟩⟩
  refine MsixTable.sound_of_inMappedBar hapart hmem fun hne => ?_
  have hstart : table.start ∈ (pciMsixInit dev).msix.tableVirt := by
    rw [hvirt]
    exact Option.mem_bind_iff.2 ⟨table, hmem, MsixTable.mem_virt.2 ⟨hne, rfl⟩⟩
  have hrange := (htable table.start hstart).1
  rw [hsize table hmem] at hrange
  exact hinside.1 hrange

/-! ## Two devices -/

/-- A function whose MSI-X capability is at 0x40: two entries, at an offset of BAR 0, which is 4 KiB
that the CPU sees at 1 GiB. -/
@[irreducible] def msixDevice (offset : ℕ) : PciDevice where
  cfg :=
    { regs := packRegisters [(pciStatus, 0x10), (pciCapabilityList, 0x40), (0x40, 0x00010011),
        (0x44, offset)]
      rw := 0 }
  tableMem := fun _ => 0
  barsNum := 6
  bars := fun _ =>
    { present := true, busAddr := 0xc0000000, size := 0x1000, virtAddr := some 0x40000000#32 }

/-- The sample record knows no table yet. -/
theorem msixDevice_fresh (offset : ℕ) : (msixDevice offset).msix.tableVirt = none := by
  rw [msixDevice]

/-- A table at offset 0x100. -/
theorem msixTableInside_sample :
    (msixDevice 0x100).msix.tableVirt = none ∧ MsixTableInside (pciMsixInit (msixDevice 0x100)) := by
  refine ⟨msixDevice_fresh _, (msixTableInside_iff _ (msixDevice_fresh _)).1 fun table hmem => ?_⟩
  have hfits : ((msixTable (msixDevice 0x100)).all fun table => decide table.Fits) = true := by
    decide +kernel
  rw [Option.mem_def.1 hmem] at hfits
  exact Or.inl (of_decide_eq_true hfits)

/-- A table 16 bytes below the end of a BAR of 4 GiB passes the check, and is taken to be 16 bytes in
front of the BAR. -/
theorem msixTableInside_fails : ¬ ∀ dev : PciDevice, dev.msix.tableVirt = none →
    MsixTableInside (pciMsixInit dev) := by
  intro hall
  have htable : (pciMsixInit (msixDevice 0xfffffff0)).msix.tableVirt = some 0x3ffffff0#32 := by
    decide +kernel
  obtain ⟨slot, -, hle, -⟩ := (hall _ (msixDevice_fresh _) _ (Option.mem_def.2 htable)).1
  have hpointer : ((msixDevice 0xfffffff0).bars slot).pointer = 0x40000000#32 := by
    rw [msixDevice]
    rfl
  rw [(pciMsixInit_table _ (msixDevice_fresh _)).2.1, hpointer] at hle
  revert hle
  decide

end BcmPcie
