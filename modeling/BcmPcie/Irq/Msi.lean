import BcmPcie.Irq.Intx
import BcmPcie.Irq.SlotPool
import BcmPcie.Irq.Msix

/-! # MSI

`pcie_msi.c`: the message of a device's whole block of vectors lives in the configuration-space
capability, with the number of vectors given to it (Multiple Message Enable) and, on some devices, a
register of per-vector mask bits that the code shadows in `msi.mask`.

* `pciMsiAlloc_cases` — what an allocation can do.
* `pciMsiUpdateMask_readMask` — the shadow and the register move together. -/

namespace BcmPcie

open BitSet

variable {σ : Type*}

/-- `rounddown_pow2`: the largest power of two up to `v`. -/
def rounddownPow2 (v : ℕ) : ℕ := 2 ^ Nat.log2 v

/-- `msi_multi_mask`: the mask bits of every vector the device is capable of. -/
def msiMultiMask (dev : PciDevice) : BitVec 32 :=
  if 5 ≤ dev.msi.log2MaxVecs then 0xffffffff#32
  else (1#32 <<< (1 <<< dev.msi.log2MaxVecs)) - 1#32

/-- `pci_msi_update_mask`: clear and set bits of the mask register through its shadow. -/
def pciMsiUpdateMask (dev : PciDevice) (clear set : BitVec 32) : PciDevice :=
  if dev.msi.maskable = false then dev
  else
    let mask := dev.msi.mask &&& ~~~clear ||| set
    pciWriteConfig32 { dev with msi := { dev.msi with mask := mask } } dev.msi.maskOffset mask

/-- `pci_msi_set_enable`. -/
def pciMsiSetEnable (dev : PciDevice) (enable : Bool) : PciDevice :=
  let control := pciReadConfig16 dev (dev.msi.capOffset + pciMsiFlags)
  let control := control &&& ~~~pciMsiFlagsEnable
  let control := if enable then control ||| pciMsiFlagsEnable else control
  pciWriteConfig16 dev (dev.msi.capOffset + pciMsiFlags) control

/-- `mask_insert(mme, PCI_MSI_FLAGS_QSIZE)`: the value shifted into the field. -/
def qsizeInsert (mme : ℕ) : BitVec 16 := (BitVec.ofNat 16 mme <<< 4) &&& pciMsiFlagsQsize

/-- `mask_extract(control, PCI_MSI_FLAGS_QMASK)`. -/
def qmaskExtract (control : BitVec 16) : ℕ := ((control &&& pciMsiFlagsQmask) >>> 1).toNat

/-- Offset of the message data register. -/
def msiDataOffset (dev : PciDevice) : ℕ :=
  dev.msi.capOffset + (if dev.msi.addr64 then pciMsiData64 else pciMsiData32)

/-- `pci_msi_write_msg`: Multiple Message Enable, then the message of the block's first slot. -/
def pciMsiWriteMsg (pcie : PciController σ) (dev : PciDevice) (nvec : ℕ) : PciDevice :=
  let pos := dev.msi.capOffset
  let msg := brcmMsiComposeMsg pcie (dev.active.slots 0)
  let mme := (BitVec.ofNat 32 nvec).ctz.toNat
  let msgctl := pciReadConfig16 dev (pos + pciMsiFlags)
  let msgctl := msgctl &&& ~~~pciMsiFlagsQsize
  let msgctl := msgctl ||| qsizeInsert mme
  let dev := pciWriteConfig16 dev (pos + pciMsiFlags) msgctl
  let dev := pciWriteConfig32 dev (pos + pciMsiAddressLo) msg.addressLo
  if dev.msi.addr64 then
    let dev := pciWriteConfig32 dev (pos + pciMsiAddressHi) msg.addressHi
    pciWriteConfig16 dev (pos + pciMsiData64) msg.data
  else
    pciWriteConfig16 dev (pos + pciMsiData32) msg.data

/-- `pci_msi_program`: disable MSI, mask every vector, write the message, drop INTx, enable MSI. -/
def pciMsiProgram (pcie : PciController σ) (dev : PciDevice) (nvec : ℕ) : PciDevice :=
  let dev := pciMsiSetEnable dev false
  let dev := pciMsiUpdateMask dev 0 (msiMultiMask dev)
  let dev := pciMsiWriteMsg pcie dev nvec
  let dev := pciIntx dev false
  pciMsiSetEnable dev true

/-- The array of slots with the block from `base` on in its first `n` entries. -/
def blockSlots (slots : ℕ → ℕ) (base n : ℕ) : ℕ → ℕ :=
  fun i => if i < n then base + i else slots i

/-- The loop of `pci_msi_alloc`: halve the block until one is free or it gets below `min`. -/
def msiBlockLoop (min : ℕ) :
    (fuel n : ℕ) → PciController σ → PciDevice → PciController σ × PciDevice × Except Errno ℕ
  | 0, _, pcie, dev => (pcie, dev, .error .enospc)
  | fuel + 1, n, pcie, dev =>
    if n < min then (pcie, dev, .error .enospc)
    else
      match pciIrqSlotsAllocAligned pcie n with
      | (pcie, some base) =>
        let dev := dev.setSlots (blockSlots dev.active.slots base n)
        (pcie, pciMsiProgram pcie dev n, .ok n)
      | (pcie, none) => msiBlockLoop min fuel (n / 2) pcie dev

/-- `pci_msi_alloc`: the largest free aligned block within the range and the device's count. A block
of `n` slots is halved at most `log2 n` times before it is below a `min` of at least 1. -/
def pciMsiAlloc (pcie : PciController σ) (dev : PciDevice) (min max : ℕ) :
    PciController σ × PciDevice × Except Errno ℕ :=
  if dev.msi.capOffset = 0 then (pcie, dev, .error .enodev)
  else
    let n :=
      if dev.msi.log2MaxVecs < 5 ∧ 1 <<< dev.msi.log2MaxVecs < max then 1 <<< dev.msi.log2MaxVecs
      else max
    msiBlockLoop min (Nat.log2 n + 1) (rounddownPow2 n) pcie dev

/-- `pci_msi_shutdown`: disable MSI and restore the unmasked reset state. -/
def pciMsiShutdown (dev : PciDevice) : PciDevice :=
  let dev := pciMsiSetEnable dev false
  pciMsiUpdateMask dev (msiMultiMask dev) 0

/-- `pci_msi_init`: locate and decode the capability, MSI off. -/
def pciMsiInit (dev : PciDevice) : PciDevice :=
  let capOffset := pciFindCapability dev pciCapIdMsi
  let dev := { dev with msi := { dev.msi with capOffset := capOffset } }
  if capOffset = 0 then dev
  else
    let dev := pciMsiSetEnable dev false
    let control := pciReadConfig16 dev (capOffset + pciMsiFlags)
    let addr64 := decide (control &&& pciMsiFlags64bit ≠ 0)
    let maskable := decide (control &&& pciMsiFlagsMaskbit ≠ 0)
    let maskOffset := capOffset + (if addr64 then pciMsiMask64 else pciMsiMask32)
    { dev with msi := { dev.msi with
        addr64 := addr64
        maskable := maskable
        log2MaxVecs := qmaskExtract control
        maskOffset := maskOffset
        mask := if maskable then pciReadConfig32 dev maskOffset else dev.msi.mask } }

/-! ## What each operation leaves alone -/

section Frame

variable (dev : PciDevice)

/-- Updating the MSI mask keeps the record, but for the shadow. -/
theorem pciMsiUpdateMask_sameRecord (clear set : BitVec 32) :
    SameRecord dev (pciMsiUpdateMask dev clear set) := by
  unfold pciMsiUpdateMask
  split <;> rfl

/-- Setting the MSI enable bit keeps the record. -/
theorem pciMsiSetEnable_sameRecord (enable : Bool) :
    SameRecord dev (pciMsiSetEnable dev enable) := rfl

@[simp] theorem pciMsiSetEnable_msi (enable : Bool) : (pciMsiSetEnable dev enable).msi = dev.msi :=
  rfl

/-- Writing the MSI message keeps the record. -/
theorem pciMsiWriteMsg_sameRecord (pcie : PciController σ) (nvec : ℕ) :
    SameRecord dev (pciMsiWriteMsg pcie dev nvec) := by
  unfold pciMsiWriteMsg
  dsimp only
  split <;> rfl

@[simp] theorem pciMsiWriteMsg_msi (pcie : PciController σ) (nvec : ℕ) :
    (pciMsiWriteMsg pcie dev nvec).msi = dev.msi := by
  unfold pciMsiWriteMsg
  dsimp only
  split <;> rfl

/-- Programming MSI keeps the record. -/
theorem pciMsiProgram_sameRecord (pcie : PciController σ) (nvec : ℕ) :
    SameRecord dev (pciMsiProgram pcie dev nvec) :=
  ((((pciMsiSetEnable_sameRecord dev false).trans (pciMsiUpdateMask_sameRecord _ _ _)).trans
    (pciMsiWriteMsg_sameRecord _ _ _)).trans (pciIntx_sameRecord _ _)).trans
      (pciMsiSetEnable_sameRecord _ true)

/-- Shutting MSI down keeps the record. -/
theorem pciMsiShutdown_sameRecord : SameRecord dev (pciMsiShutdown dev) :=
  (pciMsiSetEnable_sameRecord dev false).trans (pciMsiUpdateMask_sameRecord _ _ _)

@[simp] theorem pciMsiUpdateMask_tableMem (clear set : BitVec 32) :
    (pciMsiUpdateMask dev clear set).tableMem = dev.tableMem := by
  unfold pciMsiUpdateMask
  split <;> rfl

end Frame

/-! ## The layout of the capability -/

/-- What probe decodes of the capability: it is absent, or starts behind the header with the mask
register where the address width puts it. -/
def MsiDecoded (dev : PciDevice) : Prop :=
  dev.msi.capOffset = 0 ∧ dev.msi.maskable = false ∨
    IsCapOffset dev.msi.capOffset ∧
      dev.msi.maskOffset
        = dev.msi.capOffset + (if dev.msi.addr64 then pciMsiMask64 else pciMsiMask32)

/-- The record fields that probe decodes are not changed by anything that only moves registers. -/
theorem SameRecord.msiDecoded {dev dev' : PciDevice} (h : SameRecord dev dev') :
    MsiDecoded dev' ↔ MsiDecoded dev := by
  unfold MsiDecoded
  rw [h.msi]

/-- The bytes that programming the message writes. -/
def msiMsgRanges (dev : PciDevice) : List (ℕ × ℕ) :=
  [(pciCommand, 2), (dev.msi.capOffset + pciMsiFlags, 2),
    (dev.msi.capOffset + pciMsiAddressLo, 4)] ++
    if dev.msi.addr64 then
      [(dev.msi.capOffset + pciMsiAddressHi, 4), (dev.msi.capOffset + pciMsiData64, 2)]
    else [(dev.msi.capOffset + pciMsiData32, 2)]

/-- Setting the MSI enable bit writes the control word only. -/
theorem pciMsiSetEnable_sameOutside (dev : PciDevice) (enable : Bool) {ranges : List (ℕ × ℕ)}
    (hmem : (dev.msi.capOffset + pciMsiFlags, 2) ∈ ranges) :
    dev.cfg.SameOutside ranges (pciMsiSetEnable dev enable).cfg :=
  pciWriteConfig_sameOutside dev 2 _ _ hmem

/-- Writing the MSI message writes the message registers only. -/
theorem pciMsiWriteMsg_sameOutside (pcie : PciController σ) (dev : PciDevice) (nvec : ℕ) :
    dev.cfg.SameOutside (msiMsgRanges dev) (pciMsiWriteMsg pcie dev nvec).cfg := by
  unfold pciMsiWriteMsg
  dsimp only
  cases h64 : dev.msi.addr64 <;>
    simp only [pciWriteConfig_msi, h64, if_true, if_false, Bool.false_eq_true]
  · refine ((pciWriteConfig_sameOutside dev 2 _ _ ?_).trans
      (pciWriteConfig_sameOutside _ 4 _ _ ?_)).trans (pciWriteConfig_sameOutside _ 2 _ _ ?_) <;>
      simp [msiMsgRanges, h64]
  · refine (((pciWriteConfig_sameOutside dev 2 _ _ ?_).trans
      (pciWriteConfig_sameOutside _ 4 _ _ ?_)).trans (pciWriteConfig_sameOutside _ 4 _ _ ?_)).trans
        (pciWriteConfig_sameOutside _ 2 _ _ ?_) <;>
      simp [msiMsgRanges, h64]

/-- Programming the message stays clear of the mask register. -/
theorem msiMsgRanges_apart_mask {dev : PciDevice} (hdec : MsiDecoded dev)
    (hmaskable : dev.msi.maskable = true) :
    ∀ r ∈ msiMsgRanges dev, RegisterFile.Apart (8 * r.2) r.1 32 dev.msi.maskOffset := by
  obtain ⟨-, hnot⟩ | ⟨hcap, hoff⟩ := hdec
  · rw [hnot] at hmaskable
    exact absurd hmaskable (by decide)
  · intro r hr
    obtain ⟨hge, -, -⟩ := hcap
    unfold RegisterFile.Apart
    rw [hoff]
    cases h64 : dev.msi.addr64 <;> simp [msiMsgRanges, h64] at hr ⊢
    · rcases hr with rfl | rfl | rfl | rfl <;> dsimp only <;> omega
    · rcases hr with rfl | rfl | rfl | rfl | rfl <;> dsimp only <;> omega

/-! ## The mask register and its shadow -/

/-- The device's mask register. -/
def readMask (dev : PciDevice) : BitVec 32 := pciReadConfig32 dev dev.msi.maskOffset

/-- The shadow `msi.mask` holds what the mask register holds, on a device that has one. -/
def MaskSynced (dev : PciDevice) : Prop := dev.msi.maskable = true → dev.msi.mask = readMask dev

/-- The mask bits of every vector the device is capable of are implemented. -/
def MaskWritable (dev : PciDevice) : Prop :=
  dev.msi.maskable = true → dev.cfg.Writable 32 dev.msi.maskOffset (msiMultiMask dev)

/-- The mask bits are those of the vectors the function may have. -/
theorem getLsbD_msiMultiMask (dev : PciDevice) {j : ℕ} (hj : j < 32) :
    (msiMultiMask dev).getLsbD j = decide (j < 2 ^ dev.msi.log2MaxVecs) := by
  unfold msiMultiMask
  split
  · rename_i h5
    have hle : 2 ^ 5 ≤ 2 ^ dev.msi.log2MaxVecs := Nat.pow_le_pow_right (by decide) h5
    rw [show (0xffffffff#32) = BitVec.allOnes 32 by decide, BitVec.getLsbD_allOnes,
      decide_eq_decide]
    omega
  · rename_i h5
    have hle : 2 ^ dev.msi.log2MaxVecs ≤ 2 ^ 4 := Nat.pow_le_pow_right (by decide) (by omega)
    have hblock := @getLsbD_block 32 0 (2 ^ dev.msi.log2MaxVecs) (by omega) j
    rw [block, if_neg (by omega), BitVec.shiftLeft_zero] at hblock
    rw [Nat.one_shiftLeft, hblock]
    simp

/-- **Shadow and register.** A change of bits the device implements reaches both alike. -/
theorem pciMsiUpdateMask_readMask {dev : PciDevice} {clear set : BitVec 32}
    (hdec : MsiDecoded dev) (hmaskable : dev.msi.maskable = true) (hsync : MaskSynced dev)
    (hw : MaskWritable dev) (hclear : clear &&& ~~~msiMultiMask dev = 0#32)
    (hset : set &&& ~~~msiMultiMask dev = 0#32) :
    (pciMsiUpdateMask dev clear set).msi.mask = (readMask dev &&& ~~~clear ||| set) ∧
      readMask (pciMsiUpdateMask dev clear set) = (readMask dev &&& ~~~clear ||| set) := by
  have hoff : dev.msi.maskOffset < 4096 := by
    obtain ⟨-, hnot⟩ | ⟨⟨-, hlt, -⟩, hoff⟩ := hdec
    · rw [hnot] at hmaskable
      exact absurd hmaskable (by decide)
    · rw [hoff]
      split <;> simp only [pciMsiMask64, pciMsiMask32] <;> omega
  have hshadow : dev.msi.mask = readMask dev := hsync hmaskable
  -- the new value differs from the register in implemented bits only
  have hagree : (readMask dev &&& ~~~clear ||| set) &&& ~~~msiMultiMask dev
      = readMask dev &&& ~~~msiMultiMask dev := by
    apply BitVec.eq_of_getLsbD_eq
    intro j hj
    have hc := and_eq_zero_iff.1 hclear j
    have hs := and_eq_zero_iff.1 hset j
    simp only [BitVec.getLsbD_and, BitVec.getLsbD_or, BitVec.getLsbD_not, hj, decide_true,
      Bool.true_and, Bool.not_eq_true'] at hc hs ⊢
    cases hmm : (msiMultiMask dev).getLsbD j
    · rw [hc hmm, hs hmm]
      simp only [Bool.not_false, Bool.and_true, Bool.or_false]
    · simp only [Bool.not_true, Bool.and_false]
  unfold pciMsiUpdateMask
  rw [if_neg (by simp [hmaskable])]
  dsimp only
  refine ⟨by rw [pciWriteConfig_msi, hshadow], ?_⟩
  rw [readMask, pciWriteConfig_msi, hshadow]
  exact pciReadConfig_write_of_masked { dev with msi := _ } _ (msiMultiMask dev) hoff
    (hw hmaskable) hagree

/-! ## Allocation -/

/-- An MSI allocation that reserved the block of `n` slots from `base` on. -/
structure MsiGrant (pcie : PciController σ) (dev : PciDevice) (n base : ℕ) (used : BitVec 32)
    (r : PciController σ × PciDevice × Except Errno ℕ) : Prop where
  result : r = (pcie.setUsed used,
    pciMsiProgram (pcie.setUsed used) (dev.setSlots (blockSlots dev.active.slots base n)) n, .ok n)
  aligned : n ∣ base
  fits : base + n ≤ 32
  reserves : Reserves pcie.msi.used used (blockSlots dev.active.slots base n) n

/-- One round of the allocation loop: it gives up, takes a block, or halves the block. -/
theorem msiBlockLoop_step (min fuel n : ℕ) (pcie : PciController σ) (dev : PciDevice) :
    (n < min ∧ msiBlockLoop min (fuel + 1) n pcie dev = (pcie, dev, .error .enospc)) ∨
    (min ≤ n ∧ ∃ base used, MsiGrant pcie dev n base used
      (msiBlockLoop min (fuel + 1) n pcie dev)) ∨
    ((pciIrqSlotsAllocAligned pcie n).2 = none ∧
      msiBlockLoop min (fuel + 1) n pcie dev = msiBlockLoop min fuel (n / 2) pcie dev) := by
  rw [msiBlockLoop]
  split
  · rename_i hlt
    exact Or.inl ⟨hlt, rfl⟩
  · rename_i hge
    right
    split
    · rename_i pcie' base hal
      have hbase : (pciIrqSlotsAllocAligned pcie n).2 = some base := by rw [hal]
      obtain ⟨hdvd, hfits, -, hpool⟩ := pciIrqSlotsAllocAligned_some hbase
      have hres := @pciIrqSlotsAllocAligned_reserves
        _ _ _ _ (blockSlots dev.active.slots base n) hbase (fun v hv => if_pos hv)
      rw [hal] at hpool hres
      dsimp only at hpool hres
      subst hpool
      exact Or.inl ⟨Nat.not_lt.1 hge, base, _, rfl, hdvd, hfits, hres⟩
    · rename_i pcie' hal
      have hnone := @pciIrqSlotsAllocAligned_none _ pcie n (by rw [hal])
      rw [hal] at hnone
      dsimp only at hnone
      exact Or.inr ⟨by rw [hal], by rw [hnone.1]⟩

/-- The allocation loop from `2 ^ k` slots down takes a block of some smaller power of two, or gives
up with the controller and the device as they were. -/
theorem msiBlockLoop_cases (min k : ℕ) (pcie : PciController σ) (dev : PciDevice) :
    (msiBlockLoop min (k + 1) (2 ^ k) pcie dev = (pcie, dev, .error .enospc)) ∨
    ∃ j ≤ k, min ≤ 2 ^ j ∧ ∃ base used, MsiGrant pcie dev (2 ^ j) base used
      (msiBlockLoop min (k + 1) (2 ^ k) pcie dev) := by
  induction k with
  | zero =>
    obtain ⟨-, h⟩ | ⟨hle, h⟩ | ⟨-, h⟩ := msiBlockLoop_step min 0 (2 ^ 0) pcie dev
    · exact Or.inl h
    · exact Or.inr ⟨0, le_rfl, hle, h⟩
    · exact Or.inl h
  | succ k ih =>
    obtain ⟨-, h⟩ | ⟨hle, h⟩ | ⟨-, h⟩ := msiBlockLoop_step min (k + 1) (2 ^ (k + 1)) pcie dev
    · exact Or.inl h
    · exact Or.inr ⟨k + 1, le_rfl, hle, h⟩
    · have hhalf : 2 ^ (k + 1) / 2 = 2 ^ k := by omega
      rw [h, hhalf]
      obtain hfail | ⟨j, hj, hgrant⟩ := ih
      · exact Or.inl hfail
      · exact Or.inr ⟨j, by omega, hgrant⟩

/-- **What an MSI allocation can do.** It fails and changes nothing, or it reserves an aligned block
of a power of two that the range and the device allow, and programs the device for it. -/
theorem pciMsiAlloc_cases (pcie : PciController σ) (dev : PciDevice) {min max : ℕ} (hmin : 1 ≤ min)
    (hmax : min ≤ max) (h32 : max ≤ 32) :
    (∃ e, pciMsiAlloc pcie dev min max = (pcie, dev, .error e)) ∨
    ∃ k base used, MsiGrant pcie dev (2 ^ k) base used (pciMsiAlloc pcie dev min max) ∧
      dev.msi.capOffset ≠ 0 ∧ min ≤ 2 ^ k ∧ 2 ^ k ≤ max ∧ k ≤ dev.msi.log2MaxVecs := by
  unfold pciMsiAlloc
  split
  · exact Or.inl ⟨.enodev, rfl⟩
  · rename_i hcap
    dsimp only
    rw [Nat.one_shiftLeft]
    generalize hn : (if dev.msi.log2MaxVecs < 5 ∧ 2 ^ dev.msi.log2MaxVecs < max
      then 2 ^ dev.msi.log2MaxVecs else max) = n
    have hpos : n ≠ 0 := by
      have := Nat.two_pow_pos dev.msi.log2MaxVecs
      split at hn <;> omega
    have hlemax : n ≤ max := by split at hn <;> omega
    have hself : 2 ^ Nat.log2 n ≤ n := Nat.log2_self_le hpos
    have hlog : Nat.log2 n ≤ dev.msi.log2MaxVecs := by
      by_cases h5 : dev.msi.log2MaxVecs < 5
      · have hle : n ≤ 2 ^ dev.msi.log2MaxVecs := by split at hn <;> omega
        exact (Nat.pow_le_pow_iff_right (by decide)).1 (hself.trans hle)
      · have hle : 2 ^ Nat.log2 n ≤ 2 ^ 5 := by omega
        exact ((Nat.pow_le_pow_iff_right (by decide)).1 hle).trans (Nat.not_lt.1 h5)
    obtain hfail | ⟨j, hj, hle, base, used, hgrant⟩ :=
      msiBlockLoop_cases min (Nat.log2 n) pcie dev
    · exact Or.inl ⟨.enospc, hfail⟩
    · have hpow : 2 ^ j ≤ 2 ^ Nat.log2 n := Nat.pow_le_pow_right (by decide) hj
      exact Or.inr ⟨j, base, used, hgrant, hcap, hle, by omega, by omega⟩

/-- With a lower bound of one vector the loop fails only on a full pool. -/
theorem msiBlockLoop_one_iff (k : ℕ) (pcie : PciController σ) (dev : PciDevice) :
    msiBlockLoop 1 (k + 1) (2 ^ k) pcie dev = (pcie, dev, .error .enospc) ↔
      freeSlots pcie.msi.used = [] := by
  constructor
  -- on the exponent of the block: a block of one vector fails on a full pool only
  · induction k with
    | zero =>
      intro hfail
      obtain ⟨hlt, -⟩ | ⟨-, base, used, h⟩ | ⟨hnone, -⟩ := msiBlockLoop_step 1 0 (2 ^ 0) pcie dev
      · exact absurd hlt (by decide)
      · rw [h.result] at hfail
        exact absurd (congrArg (·.2.2) hfail) (by simp)
      · refine List.eq_nil_iff_forall_not_mem.2 fun i hi => ?_
        obtain ⟨hlt, hfree⟩ := mem_freeSlots.1 hi
        obtain ⟨j, hge, hle, hset⟩ := (pciIrqSlotsAllocAligned_none hnone).2 i (by omega)
        have hij : j = i := by omega
        rw [← hij, hset] at hfree
        exact absurd hfree (by decide)
    | succ k ih =>
      intro hfail
      obtain ⟨hlt, -⟩ | ⟨-, base, used, h⟩ | ⟨-, h⟩ :=
        msiBlockLoop_step 1 (k + 1) (2 ^ (k + 1)) pcie dev
      · have := Nat.two_pow_pos (k + 1)
        omega
      · rw [h.result] at hfail
        exact absurd (congrArg (·.2.2) hfail) (by simp)
      · have hhalf : 2 ^ (k + 1) / 2 = 2 ^ k := by omega
        rw [h, hhalf] at hfail
        exact ih hfail
  · intro hfull
    obtain h | ⟨j, -, -, base, used, h⟩ := msiBlockLoop_cases 1 k pcie dev
    · exact h
    · have hpos := Nat.two_pow_pos j
      have hmem : blockSlots dev.active.slots base (2 ^ j) 0 ∈ freeSlots pcie.msi.used :=
        mem_freeSlots.2 ⟨h.reserves.lt 0 hpos, h.reserves.free 0 hpos⟩
      rw [hfull] at hmem
      exact absurd hmem List.not_mem_nil

/-- With a lower bound of one vector, MSI fails only without the capability or on a full pool. -/
theorem pciMsiAlloc_one_iff (pcie : PciController σ) (dev : PciDevice) (max : ℕ) :
    (∃ e, (pciMsiAlloc pcie dev 1 max).2.2 = .error e) ↔
      dev.msi.capOffset = 0 ∨ freeSlots pcie.msi.used = [] := by
  unfold pciMsiAlloc
  by_cases hcap : dev.msi.capOffset = 0
  · simp [hcap]
  · rw [if_neg hcap]
    dsimp only
    simp only [hcap, false_or]
    rw [rounddownPow2, ← msiBlockLoop_one_iff _ pcie dev]
    constructor
    · rintro ⟨e, he⟩
      obtain h | ⟨j, -, -, base, used, h⟩ := msiBlockLoop_cases 1 _ pcie dev
      · exact h
      · rw [h.result] at he
        exact absurd he (by simp)
    · intro h
      exact ⟨.enospc, by rw [h]⟩

end BcmPcie
