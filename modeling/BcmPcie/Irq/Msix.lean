import BcmPcie.Irq.Intx
import BcmPcie.Irq.SlotPool
import BcmPcie.Pci.Capability

/-! # MSI-X

`pcie_msix.c`: the per-vector messages live in a table in device memory, the enable and function
mask bits in configuration space. Masking and unmasking an entry is a write to the table.

* `tableMem_pciMsixProgram` — programming writes every entry its slot's message, masked.
* `pciMsixAlloc_cases` — what an allocation can do. -/

namespace BcmPcie

variable {σ : Type*}

/-- Byte offset of table entry `vec` (`msix_entry`). -/
def msixEntry (vec : ℕ) : ℕ := vec * pciMsixEntrySize

/-- A 32-bit write to the table. -/
def msixTableWrite (dev : PciDevice) (offset : ℕ) (value : BitVec 32) : PciDevice :=
  { dev with tableMem := Function.update dev.tableMem offset value }

/-- `pci_msix_set_ctrl`. -/
def pciMsixSetCtrl (dev : PciDevice) (clear set : BitVec 16) : PciDevice :=
  let control := pciReadConfig16 dev (dev.msix.capOffset + pciMsixFlags)
  pciWriteConfig16 dev (dev.msix.capOffset + pciMsixFlags) (control &&& ~~~clear ||| set)

/-- `pci_msix_entry_mask`. -/
def pciMsixEntryMask (dev : PciDevice) (vec : ℕ) : PciDevice :=
  msixTableWrite dev (msixEntry vec + pciMsixEntryVectorCtrl) pciMsixEntryCtrlMaskbit

/-- `pci_msix_entry_unmask`. -/
def pciMsixEntryUnmask (dev : PciDevice) (vec : ℕ) : PciDevice :=
  msixTableWrite dev (msixEntry vec + pciMsixEntryVectorCtrl) 0

/-- One round of the loop of `pci_msix_program`: the message of entry `i`, which starts masked. -/
def msixProgramEntry (pcie : PciController σ) (dev : PciDevice) (i : ℕ) : PciDevice :=
  let msg := brcmMsiComposeMsg pcie (dev.active.slots i)
  let e := msixEntry i
  let dev := msixTableWrite dev (e + pciMsixEntryLowerAddr) msg.addressLo
  let dev := msixTableWrite dev (e + pciMsixEntryUpperAddr) msg.addressHi
  let dev := msixTableWrite dev (e + pciMsixEntryData) (msg.data.setWidth 32)
  msixTableWrite dev (e + pciMsixEntryVectorCtrl) pciMsixEntryCtrlMaskbit

/-- The loop of `pci_msix_program` over the first `nvec` entries. -/
def msixProgramLoop (pcie : PciController σ) (dev : PciDevice) (nvec : ℕ) : PciDevice :=
  (List.range nvec).foldl (msixProgramEntry pcie) dev

/-- `pci_msix_program`: enable MSI-X with the function masked, write the entries, drop INTx, lift the
function mask. -/
def pciMsixProgram (pcie : PciController σ) (dev : PciDevice) (nvec : ℕ) : PciDevice :=
  let dev := pciMsixSetCtrl dev 0 (pciMsixFlagsEnable ||| pciMsixFlagsMaskall)
  let dev := msixProgramLoop pcie dev nvec
  let dev := pciIntx dev false
  pciMsixSetCtrl dev pciMsixFlagsMaskall 0

/-- The device with another scratch array of slots. -/
def PciDevice.setSlots (dev : PciDevice) (slots : ℕ → ℕ) : PciDevice :=
  { dev with active := { dev.active with slots := slots } }

/-- `pci_msix_alloc`: reserve as many free slots as the range and the table allow, and program one
entry for each. -/
def pciMsixAlloc (pcie : PciController σ) (dev : PciDevice) (min max : ℕ) :
    PciController σ × PciDevice × Except Errno ℕ :=
  if dev.msix.tableVirt = none then (pcie, dev, .error .enodev)
  else
    let n := if dev.msix.tableSize < max then dev.msix.tableSize else max
    let (pcie', slots, n) := pciIrqSlotsAllocAny pcie n dev.active.slots
    let dev := dev.setSlots slots
    if n < min then (pciIrqSlotsFree pcie' slots n, dev, .error .enospc)
    else (pcie', pciMsixProgram pcie' dev n, .ok n)

/-- `pci_msix_shutdown`: mask the function and disable MSI-X. -/
def pciMsixShutdown (dev : PciDevice) : PciDevice :=
  pciMsixSetCtrl dev pciMsixFlagsEnable pciMsixFlagsMaskall

/-- `pci_msix_init`: locate the capability, make sure MSI-X is off and resolve the table. -/
def pciMsixInit (dev : PciDevice) : PciDevice :=
  let capOffset := pciFindCapability dev pciCapIdMsix
  let dev := { dev with msix := { dev.msix with capOffset := capOffset } }
  if capOffset = 0 then dev
  else
    let dev := pciMsixSetCtrl dev pciMsixFlagsEnable 0
    let control := pciReadConfig16 dev (capOffset + pciMsixFlags)
    let tableSize := (control &&& pciMsixFlagsQsize).toNat + 1
    let dev := { dev with msix := { dev.msix with tableSize := tableSize } }
    let table := pciReadConfig32 dev (capOffset + pciMsixTable)
    let bir := (table &&& pciMsixTableBir).toNat
    let offset := table &&& pciMsixTableOffset
    let bar := dev.bars bir
    if dev.barsNum ≤ bir ∨ bar.present = false ∨ bar.type ≠ .mem ∨ bar.pointer = 0 then dev
    else if bar.size < offset + BitVec.ofNat 32 tableSize * BitVec.ofNat 32 pciMsixEntrySize then dev
    else
      let start := bar.pointer + offset
      -- the sum of the two may be `NULL` again
      { dev with msix := { dev.msix with tableVirt := if start = 0 then none else some start } }

/-! ## What each operation leaves alone -/

section Frame

variable (dev : PciDevice) (clear set : BitVec 16)

@[simp] theorem setSlots_cfg (slots : ℕ → ℕ) : (dev.setSlots slots).cfg = dev.cfg := rfl

@[simp] theorem setSlots_tableMem (slots : ℕ → ℕ) :
    (dev.setSlots slots).tableMem = dev.tableMem := rfl

@[simp] theorem setSlots_msi (slots : ℕ → ℕ) : (dev.setSlots slots).msi = dev.msi := rfl

@[simp] theorem setSlots_msix (slots : ℕ → ℕ) : (dev.setSlots slots).msix = dev.msix := rfl

@[simp] theorem setSlots_intx (slots : ℕ → ℕ) : (dev.setSlots slots).intx = dev.intx := rfl

@[simp] theorem setSlots_active (slots : ℕ → ℕ) :
    (dev.setSlots slots).active = { dev.active with slots := slots } := rfl

@[simp] theorem setSlots_setSlots (slots slots' : ℕ → ℕ) :
    (dev.setSlots slots).setSlots slots' = dev.setSlots slots' := rfl

/-- Changing the MSI-X control word keeps the record. -/
theorem pciMsixSetCtrl_sameRecord : SameRecord dev (pciMsixSetCtrl dev clear set) := rfl

@[simp] theorem pciMsixSetCtrl_msi : (pciMsixSetCtrl dev clear set).msi = dev.msi := rfl

@[simp] theorem pciMsixSetCtrl_msix : (pciMsixSetCtrl dev clear set).msix = dev.msix := rfl

@[simp] theorem pciMsixSetCtrl_active : (pciMsixSetCtrl dev clear set).active = dev.active := rfl

@[simp] theorem pciMsixSetCtrl_tableMem :
    (pciMsixSetCtrl dev clear set).tableMem = dev.tableMem := rfl

/-- `pci_msix_set_ctrl` writes the MSI-X control word alone. -/
theorem pciMsixSetCtrl_sameOutside {ranges : List (ℕ × ℕ)}
    (hmem : (dev.msix.capOffset + pciMsixFlags, 2) ∈ ranges) :
    dev.cfg.SameOutside ranges (pciMsixSetCtrl dev clear set).cfg :=
  pciWriteConfig_sameOutside dev 2 _ _ hmem

/-- Programming the entries changes the table alone. -/
theorem msixProgramLoop_eq (pcie : PciController σ) (nvec : ℕ) :
    msixProgramLoop pcie dev nvec
      = { dev with tableMem := (msixProgramLoop pcie dev nvec).tableMem } := by
  unfold msixProgramLoop
  induction nvec with
  | zero => rfl
  | succ n ih =>
    rw [List.range_succ, List.foldl_append, List.foldl_cons, List.foldl_nil]
    rw [ih]
    rfl

@[simp] theorem msixProgramLoop_cfg (pcie : PciController σ) (nvec : ℕ) :
    (msixProgramLoop pcie dev nvec).cfg = dev.cfg := by rw [msixProgramLoop_eq]

@[simp] theorem msixProgramLoop_msi (pcie : PciController σ) (nvec : ℕ) :
    (msixProgramLoop pcie dev nvec).msi = dev.msi := by rw [msixProgramLoop_eq]

@[simp] theorem msixProgramLoop_msix (pcie : PciController σ) (nvec : ℕ) :
    (msixProgramLoop pcie dev nvec).msix = dev.msix := by rw [msixProgramLoop_eq]

@[simp] theorem msixProgramLoop_active (pcie : PciController σ) (nvec : ℕ) :
    (msixProgramLoop pcie dev nvec).active = dev.active := by rw [msixProgramLoop_eq]

/-- Programming MSI-X changes the configuration space and the table alone. -/
theorem pciMsixProgram_sameRecord (pcie : PciController σ) (nvec : ℕ) :
    SameRecord dev (pciMsixProgram pcie dev nvec) := by
  have hloop : ∀ d : PciDevice, SameRecord d (msixProgramLoop pcie d nvec) := fun d => by
    unfold SameRecord
    rw [msixProgramLoop_eq]
  exact (((pciMsixSetCtrl_sameRecord dev _ _).trans (hloop _)).trans (pciIntx_sameRecord _ _)).trans
    (pciMsixSetCtrl_sameRecord _ _ _)

@[simp] theorem pciMsixProgram_msi (pcie : PciController σ) (nvec : ℕ) :
    (pciMsixProgram pcie dev nvec).msi = dev.msi := by
  simp only [pciMsixProgram, pciMsixSetCtrl_msi, pciIntx_msi, msixProgramLoop_msi]

/-- The bytes of configuration space that MSI-X operations write. -/
def msixRanges (dev : PciDevice) : List (ℕ × ℕ) :=
  [(pciCommand, 2), (dev.msix.capOffset + pciMsixFlags, 2)]

/-- Programming MSI-X writes its control word only. -/
theorem pciMsixProgram_sameOutside (pcie : PciController σ) (nvec : ℕ) :
    dev.cfg.SameOutside (msixRanges dev) (pciMsixProgram pcie dev nvec).cfg := by
  have hctrl : (dev.msix.capOffset + pciMsixFlags, 2) ∈ msixRanges dev := by simp [msixRanges]
  have hcommand : (pciCommand, 2) ∈ msixRanges dev := by simp [msixRanges]
  have henable := pciMsixSetCtrl_sameOutside dev 0 (pciMsixFlagsEnable ||| pciMsixFlagsMaskall) hctrl
  refine henable.trans ?_
  rw [← msixProgramLoop_cfg _ pcie nvec]
  refine (pciIntx_sameOutside _ false hcommand).trans (pciMsixSetCtrl_sameOutside _ _ _ ?_)
  simp only [pciIntx_msix, msixProgramLoop_msix, pciMsixSetCtrl_msix]
  exact hctrl

/-- Shutting MSI-X down writes its control word only. -/
theorem pciMsixShutdown_sameOutside :
    dev.cfg.SameOutside (msixRanges dev) (pciMsixShutdown dev).cfg :=
  pciMsixSetCtrl_sameOutside dev _ _ (by simp [msixRanges])

end Frame

/-! ## The table after programming -/

/-- The fields of different entries are different words of the table. -/
theorem msixEntry_add_ne {i j a b : ℕ} (hij : i ≠ j) (ha : a < 16) (hb : b < 16) :
    msixEntry i + a ≠ msixEntry j + b := by
  simp only [msixEntry, pciMsixEntrySize]
  omega

/-- What one round writes, and what it leaves alone. -/
theorem tableMem_msixProgramEntry (pcie : PciController σ) (dev : PciDevice) (i j : ℕ) :
    let msg := brcmMsiComposeMsg pcie (dev.active.slots i)
    let mem := (msixProgramEntry pcie dev i).tableMem
    (i = j → mem (msixEntry j) = msg.addressLo ∧ mem (msixEntry j + 4) = msg.addressHi ∧
      mem (msixEntry j + 8) = msg.data.setWidth 32 ∧ mem (msixEntry j + 12) = 1#32) ∧
    (i ≠ j → ∀ a < 16, mem (msixEntry j + a) = dev.tableMem (msixEntry j + a)) := by
  refine ⟨?_, fun hij a ha => ?_⟩
  · rintro rfl
    simp [msixProgramEntry, msixTableWrite]
  · simp only [msixProgramEntry, msixTableWrite, pciMsixEntryLowerAddr, pciMsixEntryUpperAddr,
      pciMsixEntryData, pciMsixEntryVectorCtrl]
    rw [Function.update_of_ne (msixEntry_add_ne hij.symm ha (by decide)),
      Function.update_of_ne (msixEntry_add_ne hij.symm ha (by decide)),
      Function.update_of_ne (msixEntry_add_ne hij.symm ha (by decide)),
      Function.update_of_ne (msixEntry_add_ne hij.symm ha (by decide))]

/-- The programming loop writes every entry below `nvec` its slot's message, masked. -/
theorem tableMem_msixProgramLoop (pcie : PciController σ) (dev : PciDevice) (nvec j : ℕ)
    (hj : j < nvec) :
    let msg := brcmMsiComposeMsg pcie (dev.active.slots j)
    let mem := (msixProgramLoop pcie dev nvec).tableMem
    mem (msixEntry j) = msg.addressLo ∧ mem (msixEntry j + 4) = msg.addressHi ∧
      mem (msixEntry j + 8) = msg.data.setWidth 32 ∧ mem (msixEntry j + 12) = 1#32 := by
  induction nvec with
  | zero => exact absurd hj (Nat.not_lt_zero j)
  | succ n ih =>
    have hstep : msixProgramLoop pcie dev (n + 1)
        = msixProgramEntry pcie (msixProgramLoop pcie dev n) n := by
      simp only [msixProgramLoop, List.range_succ, List.foldl_append, List.foldl_cons,
        List.foldl_nil]
    have hround := tableMem_msixProgramEntry pcie (msixProgramLoop pcie dev n) n j
    rw [hstep]
    by_cases hnj : n = j
    · subst hnj
      have := hround.1 rfl
      rw [msixProgramLoop_active] at this
      exact this
    · obtain ⟨h0, h4, h8, h12⟩ := ih (by omega)
      have hsame := hround.2 hnj
      have hsame0 := hsame 0 (by decide)
      rw [Nat.add_zero] at hsame0
      exact ⟨hsame0.trans h0, (hsame 4 (by decide)).trans h4, (hsame 8 (by decide)).trans h8,
        (hsame 12 (by decide)).trans h12⟩

/-- **Programming.** Every entry below `nvec` carries the message of its slot and is masked. -/
theorem tableMem_pciMsixProgram (pcie : PciController σ) (dev : PciDevice) (nvec j : ℕ)
    (hj : j < nvec) :
    let msg := brcmMsiComposeMsg pcie (dev.active.slots j)
    let mem := (pciMsixProgram pcie dev nvec).tableMem
    mem (msixEntry j) = msg.addressLo ∧ mem (msixEntry j + 4) = msg.addressHi ∧
      mem (msixEntry j + 8) = msg.data.setWidth 32 ∧ mem (msixEntry j + 12) = 1#32 := by
  have hloop := tableMem_msixProgramLoop pcie
    (pciMsixSetCtrl dev 0 (pciMsixFlagsEnable ||| pciMsixFlagsMaskall)) nvec j hj
  simp only [pciMsixProgram, pciMsixSetCtrl_tableMem, pciIntx_tableMem]
  exact hloop

/-! ## Allocation -/

/-- **What an MSI-X allocation can do.** It fails and leaves the controller and all of the device
but the scratch slots as they were, or it reserves `n` slots and programs the device for them. -/
theorem pciMsixAlloc_cases (pcie : PciController σ) (dev : PciDevice) (min max : ℕ) :
    (∃ e slots, pciMsixAlloc pcie dev min max = (pcie, dev.setSlots slots, .error e)) ∨
    ∃ n slots used, pciMsixAlloc pcie dev min max
        = (pcie.setUsed used, pciMsixProgram (pcie.setUsed used) (dev.setSlots slots) n, .ok n) ∧
      dev.msix.tableVirt ≠ none ∧ min ≤ n ∧ n ≤ max ∧ n ≤ dev.msix.tableSize ∧
      Reserves pcie.msi.used used slots n := by
  unfold pciMsixAlloc
  by_cases htable : dev.msix.tableVirt = none
  · rw [if_pos htable]
    exact Or.inl ⟨.enodev, dev.active.slots, rfl⟩
  · rw [if_neg htable]
    dsimp only
    generalize hn : (if dev.msix.tableSize < max then dev.msix.tableSize else max) = n
    have hle : n ≤ max ∧ n ≤ dev.msix.tableSize := by split at hn <;> omega
    have hfree := pciIrqSlotsFree_allocAny pcie n dev.active.slots
    have hres := pciIrqSlotsAllocAny_reserves pcie n dev.active.slots
    rw [pciIrqSlotsAllocAny_eq] at hfree hres ⊢
    dsimp only at hfree hres ⊢
    split
    · rw [hfree]
      exact Or.inl ⟨.enospc, _, rfl⟩
    · exact Or.inr ⟨_, _, _, rfl, htable, by omega, by omega, by omega, hres.1⟩

/-- With a free slot, a mapped table and a lower bound of one vector, MSI-X does not fail. -/
theorem pciMsixAlloc_one_iff (pcie : PciController σ) (dev : PciDevice) (max : ℕ) (hmax : 1 ≤ max)
    (hsize : dev.msix.tableVirt ≠ none → 1 ≤ dev.msix.tableSize) :
    (∃ e, (pciMsixAlloc pcie dev 1 max).2.2 = .error e) ↔
      dev.msix.tableVirt = none ∨ freeSlots pcie.msi.used = [] := by
  unfold pciMsixAlloc
  by_cases htable : dev.msix.tableVirt = none
  · simp [htable]
  · rw [if_neg htable]
    dsimp only
    generalize hn : (if dev.msix.tableSize < max then dev.msix.tableSize else max) = n
    have hpos : 1 ≤ n := by
      have := hsize htable
      split at hn <;> omega
    rw [pciIrqSlotsAllocAny_eq]
    dsimp only
    simp only [htable, false_or]
    cases hfree : freeSlots pcie.msi.used with
    | nil => simp
    | cons i is =>
      have hlen : ¬ ((i :: is).take n).length < 1 := by
        rw [List.length_take, List.length_cons]
        omega
      rw [if_neg hlen]
      simp

end BcmPcie
