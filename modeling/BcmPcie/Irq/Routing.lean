import BcmPcie.Irq.DeviceGate

/-! # Vector routing

From a device's vector to its server: the memory write the device makes for the vector, the doorbell of
the root complex that latches a slot for it, the demux that calls the server of the slot. An MSI
device has one message for all its vectors and substitutes the vector into the low bits of the data;
an MSI-X device has a message for each.

* `DeviceRoute` — every vector's write is the message of the vector's slot.
* `vectorRouting_run` — in every state reached from probe, each vector reaches its own server, and no
  other vector reaches it. -/

namespace BcmPcie

open BitSet Runs

variable {ι σ : Type*}

/-! ## Messages on the bus -/

/-- A 32-bit memory write of a device. -/
structure MsiWrite where
  addressLo : BitVec 32
  addressHi : BitVec 32
  data : BitVec 32
  deriving DecidableEq, Repr

/-- The write that a message stands for; the upper half of the data is 0. -/
def MsiMessage.toWrite (msg : MsiMessage) : MsiWrite :=
  ⟨msg.addressLo, msg.addressHi, msg.data.setWidth 32⟩

/-- The doorbell of the root complex: a write to the target address whose data passes the filter in
`PCIE_MISC_MSI_DATA_CONFIG` selects the slot in the bits that the filter leaves out. -/
def doorbellSlot (pcie : PciController σ) (w : MsiWrite) : Option ℕ :=
  let mask := pcieMiscMsiDataConfigVal32 >>> 16
  let value := pcieMiscMsiDataConfigVal32 &&& 0xffff#32
  if w.addressLo = pcie.msi.targetAddr ∧ w.addressHi = 0 ∧ w.data &&& mask = value &&& mask then
    some (w.data &&& (0xffff#32 &&& ~~~mask)).toNat
  else none

/-- Multiple Message Enable, as the device reads it: log2 of the vectors it may signal. -/
def readMme (dev : PciDevice) : ℕ :=
  ((pciReadConfig16 dev (dev.msi.capOffset + pciMsiFlags) &&& pciMsiFlagsQsize) >>> 4).toNat

/-- The write an MSI function makes for vector `v`: to the dword its address registers name, with `v`
in the data bits that Multiple Message Enable gives it. -/
def msiWrite (dev : PciDevice) (v : ℕ) : MsiWrite where
  addressLo := pciReadConfig32 dev (dev.msi.capOffset + pciMsiAddressLo) &&& 0xfffffffc#32
  addressHi :=
    if dev.msi.addr64 then pciReadConfig32 dev (dev.msi.capOffset + pciMsiAddressHi) else 0
  data :=
    let low := block 16 0 (readMme dev)
    (pciReadConfig16 dev (msiDataOffset dev) &&& ~~~low ||| (BitVec.ofNat 16 v &&& low)).setWidth 32

/-- The write an MSI-X function makes for vector `v`, from its table entry. -/
def msixWrite (dev : PciDevice) (v : ℕ) : MsiWrite where
  addressLo := dev.tableMem (msixEntry v + pciMsixEntryLowerAddr)
  addressHi := dev.tableMem (msixEntry v + pciMsixEntryUpperAddr)
  data := dev.tableMem (msixEntry v + pciMsixEntryData)

/-- The write a device makes for a vector, in the mode it is in. -/
def deviceWrite (dev : PciDevice) (v : ℕ) : MsiWrite :=
  if dev.active.mode = .msix then msixWrite dev v else msiWrite dev v

/-- The registers of the MSI message are implemented: Multiple Message Enable, the address above its
two zero bits, the data. -/
structure MsiMsgWritable (dev : PciDevice) : Prop where
  mme : dev.cfg.Writable 16 (dev.msi.capOffset + pciMsiFlags) pciMsiFlagsQsize
  addressLo : dev.cfg.Writable 32 (dev.msi.capOffset + pciMsiAddressLo) 0xfffffffc#32
  addressHi : dev.msi.addr64 = true →
    dev.cfg.Writable 32 (dev.msi.capOffset + pciMsiAddressHi) (BitVec.allOnes 32)
  data : dev.cfg.Writable 16 (msiDataOffset dev) (BitVec.allOnes 16)

/-- Whether the message can be written is a property of the hardware. -/
theorem SameFunction.msiMsgWritable {dev dev' : PciDevice} (h : SameFunction dev dev')
    (hw : MsiMsgWritable dev) : MsiMsgWritable dev' := by
  obtain ⟨hmme, hlo, hhi, hdata⟩ := hw
  unfold RegisterFile.Writable at hmme hlo hhi hdata
  unfold msiDataOffset at hdata
  constructor <;> unfold RegisterFile.Writable <;> rw [h.rw]
  · rwa [h.msi]
  · rwa [h.msi]
  · rwa [h.msi]
  · rw [msiDataOffset, h.msi]
    exact hdata

/-! ## The message of a slot -/

/-- The data word of a message, bit by bit: the doorbell's value above, the slot below. -/
theorem getLsbD_composeData (pcie : PciController σ) (slot : ℕ) {j : ℕ} (hj : j < 16) :
    (brcmMsiComposeMsg pcie slot).data.getLsbD j
      = ((0x6540#16).getLsbD j || slot.testBit j) := by
  have hvalue : ∀ j < 16, (pcieMiscMsiDataConfigVal32 &&& 0xffff#32).getLsbD j
      = (0x6540#16).getLsbD j := by decide
  have hbit : (BitVec.ofNat 32 slot).getLsbD j = slot.testBit j := by
    rw [BitVec.getLsbD_ofNat, decide_eq_true (p := j < 32) (by omega), Bool.true_and]
  unfold brcmMsiComposeMsg
  rw [BitVec.getLsbD_setWidth, decide_eq_true hj, Bool.true_and, BitVec.getLsbD_or, hvalue j hj,
    hbit]

/-- **The doorbell selects the slot of the message.** -/
theorem doorbellSlot_composeMsg (pcie : PciController σ) {slot : ℕ} (hslot : slot < 32) :
    doorbellSlot pcie (brcmMsiComposeMsg pcie slot).toWrite = some slot := by
  have hdata : ∀ s < 32,
      ((pcieMiscMsiDataConfigVal32 &&& 0xffff#32 ||| BitVec.ofNat 32 s).setWidth 16).setWidth 32
          &&& 0xffe0#32 = 0x6540#32 ∧
        ((((pcieMiscMsiDataConfigVal32 &&& 0xffff#32 ||| BitVec.ofNat 32 s).setWidth 16).setWidth 32)
          &&& 0x1f#32).toNat = s := by
    decide
  obtain ⟨hfilter, hselect⟩ := hdata slot hslot
  have hmatch : (brcmMsiComposeMsg pcie slot).toWrite.addressLo = pcie.msi.targetAddr ∧
      (brcmMsiComposeMsg pcie slot).toWrite.addressHi = 0 ∧
      (brcmMsiComposeMsg pcie slot).toWrite.data &&& pcieMiscMsiDataConfigVal32 >>> 16
        = (pcieMiscMsiDataConfigVal32 &&& 0xffff#32) &&& pcieMiscMsiDataConfigVal32 >>> 16 :=
    ⟨rfl, rfl, hfilter⟩
  rw [doorbellSlot, if_pos hmatch]
  exact congrArg some hselect

/-- **Multi-message MSI.** In an aligned block, substituting the vector into the low bits of the first
slot's data gives the data of the vector's slot. -/
theorem substitute_composeData (pcie : PciController σ) {k base v : ℕ} (hk : k ≤ 5)
    (hdvd : 2 ^ k ∣ base) (hv : v < 2 ^ k) :
    ((brcmMsiComposeMsg pcie base).data &&& ~~~block 16 0 k ||| (BitVec.ofNat 16 v &&& block 16 0 k))
      = (brcmMsiComposeMsg pcie (base + v)).data := by
  obtain ⟨q, rfl⟩ := hdvd
  apply BitVec.eq_of_getLsbD_eq
  intro j hj
  have hlow : (block 16 0 k).getLsbD j = decide (j < k) := by
    rw [getLsbD_block (by omega), decide_eq_true (Nat.zero_le j), Bool.true_and, Nat.zero_add]
  rw [BitVec.getLsbD_or, BitVec.getLsbD_and, BitVec.getLsbD_and, BitVec.getLsbD_not, hlow,
    getLsbD_composeData pcie _ hj, getLsbD_composeData pcie _ hj,
    BitVec.getLsbD_ofNat (n := 16) (x := v), Nat.testBit_two_pow_mul_add q hv,
    Nat.testBit_two_pow_mul, decide_eq_true hj, Bool.true_and, Bool.true_and]
  by_cases hjk : j < k
  · -- a bit of the vector: the doorbell's value and the block's base are 0 there
    have hvalue : ∀ j < 5, (0x6540#16).getLsbD j = false := by decide
    rw [if_pos hjk, hvalue j (by omega), decide_eq_true hjk, decide_eq_false (p := j ≥ k) (by omega),
      Bool.false_and, Bool.false_or, Bool.false_and, Bool.false_or, Bool.false_or, Bool.and_true]
  · rw [if_neg hjk, decide_eq_false hjk, decide_eq_true (p := j ≥ k) (by omega), Bool.true_and,
      Bool.not_false, Bool.and_true, Bool.and_false, Bool.or_false]

/-! ## What programming leaves in the message registers -/

section Program

variable (pcie : PciController σ) (dev : PciDevice)

/-- A register clear of the control word and of the command register survives dropping INTx and
moving the enable bit. -/
theorem pciReadConfig_enabled {w offset : ℕ} (enable enable' : Bool)
    (hcap : RegisterFile.Apart 16 (dev.msi.capOffset + pciMsiFlags) w offset)
    (hcmd : RegisterFile.Apart 16 pciCommand w offset) :
    pciReadConfig w (pciMsiSetEnable (pciIntx dev enable) enable') offset
      = pciReadConfig w dev offset := by
  have hcfg : dev.cfg.SameOutside [(pciCommand, 2), (dev.msi.capOffset + pciMsiFlags, 2)]
      (pciMsiSetEnable (pciIntx dev enable) enable').cfg := by
    refine (pciIntx_sameOutside dev enable (by simp)).trans (pciMsiSetEnable_sameOutside _ _ ?_)
    rw [pciIntx_msi]
    simp
  refine pciReadConfig_of_sameOutside hcfg fun r hr => ?_
  simp only [List.mem_cons, List.not_mem_nil, or_false] at hr
  obtain rfl | rfl := hr
  · exact hcmd
  · exact hcap

variable {dev}

/-- Moving the enable bit leaves the rest of the control word. -/
theorem getLsbD_control_pciMsiSetEnable (hcap : IsCapOffset dev.msi.capOffset) (enable : Bool)
    {j : ℕ} (hj : j < 16) (h0 : j ≠ 0) :
    (pciReadConfig16 (pciMsiSetEnable dev enable) (dev.msi.capOffset + pciMsiFlags)).getLsbD j
      = (pciReadConfig16 dev (dev.msi.capOffset + pciMsiFlags)).getLsbD j := by
  have hlt := hcap.2.1
  have hone : (pciMsiFlagsEnable).getLsbD j = false := by
    rw [pciMsiFlagsEnable, show (1#16) = BitVec.twoPow 16 0 from rfl, BitVec.getLsbD_twoPow]
    simp [Ne.symm h0]
  unfold pciMsiSetEnable
  refine (getLsbD_pciReadConfig_write dev _ (by simp only [pciMsiFlags]; omega) hj).trans ?_
  split
  · cases enable <;>
      simp only [if_true, if_false, Bool.false_eq_true, BitVec.getLsbD_or, BitVec.getLsbD_and,
        BitVec.getLsbD_not, hone, Bool.or_false, Bool.not_false, Bool.and_true, hj, decide_true]
  · rfl

/-- Dropping INTx and moving the enable bit leave Multiple Message Enable alone. -/
theorem qsize_enabled (hcap : IsCapOffset dev.msi.capOffset) (enable enable' : Bool) :
    pciReadConfig16 (pciMsiSetEnable (pciIntx dev enable) enable')
        (dev.msi.capOffset + pciMsiFlags) &&& pciMsiFlagsQsize
      = pciReadConfig16 dev (dev.msi.capOffset + pciMsiFlags) &&& pciMsiFlagsQsize := by
  have hge := hcap.1
  have hcap' : IsCapOffset (pciIntx dev enable).msi.capOffset := by
    rw [pciIntx_msi]
    exact hcap
  have hintx : pciReadConfig16 (pciIntx dev enable) (dev.msi.capOffset + pciMsiFlags)
      = pciReadConfig16 dev (dev.msi.capOffset + pciMsiFlags) := by
    refine pciReadConfig_of_sameOutside
      (pciIntx_sameOutside dev enable (List.mem_singleton.2 rfl)) fun r hr => ?_
    rw [List.mem_singleton] at hr
    subst hr
    exact Or.inl (by simp only [pciCommand, pciMsiFlags]; omega)
  apply BitVec.eq_of_getLsbD_eq
  intro j hj
  rw [BitVec.getLsbD_and, BitVec.getLsbD_and]
  by_cases h0 : j = 0
  · subst h0
    simp
  · have hctl := getLsbD_control_pciMsiSetEnable hcap' enable' hj h0
    rw [pciIntx_msi] at hctl
    rw [hctl, hintx]

variable (dev) in
/-- What `pci_msi_write_msg` leaves in the message registers: the message of the first slot, and the
number of vectors. -/
structure MsgProgrammed (msg : MsiMessage) (n : ℕ) : Prop where
  addressLo : pciReadConfig32 dev (dev.msi.capOffset + pciMsiAddressLo) &&& 0xfffffffc#32
    = msg.addressLo &&& 0xfffffffc#32
  addressHi : dev.msi.addr64 = true →
    pciReadConfig32 dev (dev.msi.capOffset + pciMsiAddressHi) = msg.addressHi
  data : pciReadConfig16 dev (msiDataOffset dev) = msg.data
  mme : pciReadConfig16 dev (dev.msi.capOffset + pciMsiFlags) &&& pciMsiFlagsQsize
    = qsizeInsert (BitVec.ofNat 32 n).ctz.toNat

/-- The value shifted into the field stays in the field. -/
theorem qsizeInsert_and (mme : ℕ) : qsizeInsert mme &&& pciMsiFlagsQsize = qsizeInsert mme := by
  rw [qsizeInsert, BitVec.and_assoc, BitVec.and_self]

/-- The four writes of `pci_msi_write_msg`, the upper address only where there is one. -/
theorem pciMsiWriteMsg_eq (dev : PciDevice) (n : ℕ) :
    let pos := dev.msi.capOffset
    let msg := brcmMsiComposeMsg pcie (dev.active.slots 0)
    let control := pciReadConfig 16 dev (pos + pciMsiFlags) &&& ~~~pciMsiFlagsQsize |||
      qsizeInsert (BitVec.ofNat 32 n).ctz.toNat
    let d := pciWriteConfig 32 (pciWriteConfig 16 dev (pos + pciMsiFlags) control)
      (pos + pciMsiAddressLo) msg.addressLo
    pciMsiWriteMsg pcie dev n = pciWriteConfig 16
      (if dev.msi.addr64 then pciWriteConfig 32 d (pos + pciMsiAddressHi) msg.addressHi else d)
      (msiDataOffset dev) msg.data := by
  unfold pciMsiWriteMsg msiDataOffset
  cases h64 : dev.msi.addr64 <;>
    simp only [pciWriteConfig_msi, h64, if_true, if_false, Bool.false_eq_true]

/-- The message written is that of the first slot, for so many vectors. -/
theorem pciMsiWriteMsg_programmed (hcap : IsCapOffset dev.msi.capOffset) (hw : MsiMsgWritable dev)
    (n : ℕ) : MsgProgrammed (pciMsiWriteMsg pcie dev n)
      (brcmMsiComposeMsg pcie (dev.active.slots 0)) n := by
  obtain ⟨hge, hlt, -⟩ := hcap
  have hmsi : (pciMsiWriteMsg pcie dev n).msi = dev.msi := pciMsiWriteMsg_msi dev pcie n
  have hoff : msiDataOffset dev = dev.msi.capOffset + (if dev.msi.addr64 then 0x0c else 0x08) := rfl
  have hoff' : msiDataOffset (pciMsiWriteMsg pcie dev n) = msiDataOffset dev := by
    rw [msiDataOffset, hmsi, msiDataOffset]
  have heq := pciMsiWriteMsg_eq pcie dev n
  dsimp only at heq
  generalize pciMsiWriteMsg pcie dev n = d' at hmsi hoff' heq ⊢
  generalize hctl : pciReadConfig 16 dev (dev.msi.capOffset + pciMsiFlags) &&& ~~~pciMsiFlagsQsize
    ||| qsizeInsert (BitVec.ofNat 32 n).ctz.toNat = control at heq
  generalize brcmMsiComposeMsg pcie (dev.active.slots 0) = msg at heq ⊢
  -- what each of the last two writes leaves alone
  generalize hd₁ : pciWriteConfig 16 dev (dev.msi.capOffset + pciMsiFlags) control = d₁ at heq
  generalize hd₂ : pciWriteConfig 32 d₁ (dev.msi.capOffset + pciMsiAddressLo) msg.addressLo = d₂
    at heq
  generalize hd₃ : (if dev.msi.addr64 = true then
      pciWriteConfig 32 d₂ (dev.msi.capOffset + pciMsiAddressHi) msg.addressHi else d₂) = d₃ at heq
  have hhi : ∀ {w offset}, RegisterFile.Apart 32 (dev.msi.capOffset + pciMsiAddressHi) w offset →
      pciReadConfig w d₃ offset = pciReadConfig w d₂ offset := by
    intro w offset hap
    rw [← hd₃]
    split
    · exact pciReadConfig_write_of_apart d₂ _ hap
    · rfl
  have hdata : ∀ {w offset}, RegisterFile.Apart 16 (msiDataOffset dev) w offset →
      pciReadConfig w d' offset = pciReadConfig w d₃ offset := by
    intro w offset hap
    rw [heq]
    exact pciReadConfig_write_of_apart d₃ _ hap
  have hrw₁ : d₁.cfg.rw = dev.cfg.rw := by rw [← hd₁, pciWriteConfig_rw]
  have hrw₂ : d₂.cfg.rw = dev.cfg.rw := by rw [← hd₂, pciWriteConfig_rw, hrw₁]
  have hrw₃ : d₃.cfg.rw = dev.cfg.rw := by
    rw [← hd₃]
    split
    · rw [pciWriteConfig_rw, hrw₂]
    · exact hrw₂
  have hbounds : dev.msi.capOffset + 8 ≤ msiDataOffset dev ∧ msiDataOffset dev < 4096 := by
    rw [hoff]
    split <;> omega
  constructor
  · -- the address: the upper address and the data are behind it
    rw [hmsi]
    refine (congrArg (· &&& _) ((hdata ?_).trans (hhi ?_))).trans ?_
    · exact Or.inr (by simp only [pciMsiAddressLo]; omega)
    · exact Or.inr (by simp only [pciMsiAddressLo, pciMsiAddressHi]; omega)
    · rw [← hd₂]
      refine pciReadConfig_write_and d₁ _ _ (by simp only [pciMsiAddressLo]; omega) ?_
      unfold RegisterFile.Writable
      rw [hrw₁]
      exact hw.addressLo
  · intro h64
    rw [hmsi] at h64 ⊢
    have hoff64 : msiDataOffset dev = dev.msi.capOffset + 0x0c := by rw [hoff, if_pos h64]
    refine (hdata (Or.inr (by simp only [pciMsiAddressHi]; omega))).trans ?_
    rw [← hd₃, if_pos h64]
    have hread := @pciReadConfig_write_and d₂ 32 (dev.msi.capOffset + pciMsiAddressHi)
      msg.addressHi (BitVec.allOnes 32) (by simp only [pciMsiAddressHi]; omega) (by
        unfold RegisterFile.Writable
        rw [hrw₂]
        exact hw.addressHi h64)
    rwa [BitVec.and_allOnes, BitVec.and_allOnes] at hread
  · rw [hoff', heq]
    have hread := @pciReadConfig_write_and d₃ 16 (msiDataOffset dev)
      msg.data (BitVec.allOnes 16) hbounds.2 (by
        unfold RegisterFile.Writable
        rw [hrw₃]
        exact hw.data)
    rwa [BitVec.and_allOnes, BitVec.and_allOnes] at hread
  · -- the control word: all other writes are behind it
    rw [hmsi]
    refine (congrArg (· &&& _) ((hdata ?_).trans ((hhi ?_).trans ?_))).trans
      ((pciReadConfig_write_and dev control _ ?_ hw.mme).trans ?_)
    · exact Or.inr (by simp only [pciMsiFlags]; omega)
    · exact Or.inr (by simp only [pciMsiFlags, pciMsiAddressHi]; omega)
    · rw [← hd₂, ← hd₁]
      exact pciReadConfig_write_of_apart _ _
        (Or.inr (by simp only [pciMsiFlags, pciMsiAddressLo]; omega))
    · simp only [pciMsiFlags]
      omega
    · rw [← hctl, BitVec.and_or_distrib_right, qsizeInsert_and, BitVec.and_assoc]
      simp

/-- The message registers survive dropping INTx and moving the enable bit. -/
theorem MsgProgrammed.enabled (hcap : IsCapOffset dev.msi.capOffset) {msg : MsiMessage} {n : ℕ}
    (h : MsgProgrammed dev msg n) (enable enable' : Bool) :
    MsgProgrammed (pciMsiSetEnable (pciIntx dev enable) enable') msg n := by
  have hge := hcap.1
  have hmsi : (pciMsiSetEnable (pciIntx dev enable) enable').msi = dev.msi := by
    rw [pciMsiSetEnable_msi, pciIntx_msi]
  -- the message starts behind the control word
  have hsame : ∀ w offset, dev.msi.capOffset + 4 ≤ offset →
      pciReadConfig w (pciMsiSetEnable (pciIntx dev enable) enable') offset
        = pciReadConfig w dev offset := fun w offset hle =>
    pciReadConfig_enabled dev enable enable' (Or.inl (by simp only [pciMsiFlags]; omega))
      (Or.inl (by simp only [pciCommand]; omega))
  have hoff : dev.msi.capOffset + 4 ≤ msiDataOffset dev := by
    unfold msiDataOffset
    split <;> simp only [pciMsiData64, pciMsiData32] <;> omega
  constructor
  · rw [hmsi]
    exact (congrArg (· &&& _) (hsame 32 _ le_rfl)).trans h.addressLo
  · rw [hmsi]
    exact fun h64 => (hsame 32 _ (by simp only [pciMsiAddressHi]; omega)).trans (h.addressHi h64)
  · rw [msiDataOffset, hmsi]
    exact (hsame 16 _ hoff).trans h.data
  · rw [hmsi, qsize_enabled hcap]
    exact h.mme

/-- **Programming.** The registers of a programmed device carry the message of its first slot. -/
theorem pciMsiProgram_programmed (hcap : IsCapOffset dev.msi.capOffset) (hw : MsiMsgWritable dev)
    (n : ℕ) : MsgProgrammed (pciMsiProgram pcie dev n)
      (brcmMsiComposeMsg pcie (dev.active.slots 0)) n := by
  have hsame : SameFunction dev (pciMsiUpdateMask (pciMsiSetEnable dev false) 0
      (msiMultiMask (pciMsiSetEnable dev false))) :=
    SameFunction.of_sameRecord ((pciMsiSetEnable_sameRecord dev false).trans
      (pciMsiUpdateMask_sameRecord _ _ _)) (by rw [pciMsiUpdateMask_rw, pciMsiSetEnable_rw])
  have hrec := (pciMsiSetEnable_sameRecord dev false).trans (pciMsiUpdateMask_sameRecord
    (pciMsiSetEnable dev false) 0 (msiMultiMask (pciMsiSetEnable dev false)))
  unfold pciMsiProgram
  dsimp only
  generalize pciMsiUpdateMask (pciMsiSetEnable dev false) 0
    (msiMultiMask (pciMsiSetEnable dev false)) = d at hsame hrec ⊢
  have hcap' : IsCapOffset d.msi.capOffset := by
    rw [hsame.msi]
    exact hcap
  have hprog := pciMsiWriteMsg_programmed pcie hcap' (hsame.msiMsgWritable hw) n
  rw [hrec.active] at hprog
  refine hprog.enabled ?_ false true
  rwa [pciMsiWriteMsg_msi]

/-- A device whose registers carry the message of an aligned block sends each vector to its slot. -/
theorem MsgProgrammed.msiWrite {base k v : ℕ} (hk : k ≤ 5) (hdvd : 2 ^ k ∣ base) (hv : v < 2 ^ k)
    (htarget : pcie.msi.targetAddr = brcmMsiTargetAddrLt4gb)
    (h : MsgProgrammed dev (brcmMsiComposeMsg pcie base) (2 ^ k)) :
    msiWrite dev v = (brcmMsiComposeMsg pcie (base + v)).toWrite := by
  have hmme : readMme dev = k := by
    have hlog : ∀ k ≤ 5, ((qsizeInsert (BitVec.ofNat 32 (2 ^ k)).ctz.toNat) >>> 4).toNat = k := by
      decide +kernel
    rw [readMme, h.mme]
    exact hlog k hk
  have hlo : (brcmMsiComposeMsg pcie base).addressLo &&& 0xfffffffc#32 = pcie.msi.targetAddr := by
    show pcie.msi.targetAddr &&& 0xfffffffc#32 = pcie.msi.targetAddr
    rw [htarget]
    rfl
  rw [BcmPcie.msiWrite, h.addressLo, hlo, h.data, hmme]
  dsimp only
  rw [substitute_composeData pcie hk hdvd hv]
  have hhi : (if dev.msi.addr64 = true then
      pciReadConfig32 dev (dev.msi.capOffset + pciMsiAddressHi) else 0) = 0#32 := by
    split
    · rename_i h64
      exact h.addressHi h64
    · rfl
  rw [hhi]
  rfl

end Program

/-! ## The route of a device -/

/-- Every vector of the device sends the message of its slot. -/
structure DeviceRoute (pcie : PciController σ) (dev : PciDevice) : Prop where
  present : dev.active.mode = .msi → dev.msi.capOffset ≠ 0
  write : UsesSlots dev.active.mode → ∀ v < dev.active.nvec,
    deviceWrite dev v = (brcmMsiComposeMsg pcie (dev.active.slots v)).toWrite

section Device

variable {pcie pcie' : PciController σ} {dev dev' : PciDevice}

/-- The message of a slot depends on the doorbell's address only. -/
theorem brcmMsiComposeMsg_congr (h : pcie'.msi.targetAddr = pcie.msi.targetAddr) (slot : ℕ) :
    brcmMsiComposeMsg pcie' slot = brcmMsiComposeMsg pcie slot := by
  unfold brcmMsiComposeMsg
  rw [h]

/-- A device that is not on slots has no route to keep. -/
theorem DeviceRoute.of_not_usesSlots (hnot : ¬ UsesSlots dev.active.mode) : DeviceRoute pcie dev :=
  ⟨fun h => absurd (Or.inl h) hnot, fun h => absurd h hnot⟩

/-- What changes neither the allocation nor the writes of a device keeps its route. -/
theorem DeviceRoute.congr (h : DeviceRoute pcie dev) (hactive : dev'.active = dev.active)
    (hcap : dev'.msi.capOffset = dev.msi.capOffset)
    (htarget : pcie'.msi.targetAddr = pcie.msi.targetAddr)
    (hwrite : UsesSlots dev.active.mode → ∀ v < dev.active.nvec,
      deviceWrite dev' v = deviceWrite dev v) : DeviceRoute pcie' dev' := by
  refine ⟨fun hmode => ?_, fun huses v hv => ?_⟩
  · rw [hactive] at hmode
    rw [hcap]
    exact h.present hmode
  · rw [hactive] at huses hv ⊢
    rw [hwrite huses v hv, brcmMsiComposeMsg_congr htarget]
    exact h.write huses v hv

/-- The command register and the mask register are clear of the message. -/
theorem msiWrite_of_sameOutside (hdec : MsiDecoded dev) (hcap : dev.msi.capOffset ≠ 0)
    (hmsi : dev'.msi = { dev.msi with mask := dev'.msi.mask })
    (hcfg : dev.cfg.SameOutside [(pciCommand, 2), (dev.msi.maskOffset, 4)] dev'.cfg) (v : ℕ) :
    msiWrite dev' v = msiWrite dev v := by
  obtain ⟨h0, -⟩ | ⟨hoffset, hmask⟩ := hdec
  · exact absurd h0 hcap
  -- every register of the message lies between the command register and the mask register
  have hge := hoffset.1
  have hsame : ∀ w offset, 64 ≤ offset → 8 * offset + w ≤ 8 * dev.msi.maskOffset →
      pciReadConfig w dev' offset = pciReadConfig w dev offset := by
    intro w offset hle hlt
    refine pciReadConfig_of_sameOutside hcfg fun r hr => ?_
    simp only [List.mem_cons, List.not_mem_nil, or_false] at hr
    obtain rfl | rfl := hr
    · exact Or.inl (by simp only [pciCommand]; omega)
    · exact Or.inr hlt
  have hdata : msiDataOffset dev' = msiDataOffset dev := by
    unfold msiDataOffset
    rw [hmsi]
  have hbounds : 64 ≤ msiDataOffset dev ∧ 8 * msiDataOffset dev + 16 ≤ 8 * dev.msi.maskOffset := by
    rw [hmask]
    unfold msiDataOffset
    split <;> simp only [pciMsiData64, pciMsiData32, pciMsiMask64, pciMsiMask32] <;> omega
  have hmask12 : dev.msi.capOffset + 12 ≤ dev.msi.maskOffset := by
    rw [hmask]
    split <;> simp only [pciMsiMask64, pciMsiMask32] <;> omega
  have hcap' : dev'.msi.capOffset = dev.msi.capOffset := by rw [hmsi]
  have h64 : dev'.msi.addr64 = dev.msi.addr64 := by rw [hmsi]
  unfold msiWrite readMme
  rw [hdata, hcap', h64]
  unfold pciReadConfig32 pciReadConfig16
  rw [hsame 32 (dev.msi.capOffset + pciMsiAddressLo) (by omega)
      (by simp only [pciMsiAddressLo]; omega),
    hsame 32 (dev.msi.capOffset + pciMsiAddressHi) (by omega)
      (by simp only [pciMsiAddressHi]; omega),
    hsame 16 (dev.msi.capOffset + pciMsiFlags) (by omega) (by simp only [pciMsiFlags]; omega),
    hsame 16 (msiDataOffset dev) hbounds.1 hbounds.2]

/-- `pci_intx` reroutes nothing. -/
theorem DeviceRoute.pciIntx (h : DeviceRoute pcie dev) (hdec : MsiDecoded dev) (enable : Bool) :
    DeviceRoute pcie (pciIntx dev enable) := by
  refine h.congr (pciIntx_active dev enable) (by rw [pciIntx_msi]) rfl fun huses v _ => ?_
  unfold deviceWrite msixWrite
  rw [pciIntx_active, pciIntx_tableMem]
  split
  · rfl
  · rename_i hmode
    refine msiWrite_of_sameOutside hdec (h.present (huses.resolve_right hmode))
      (pciIntx_sameRecord dev enable).msi ?_ v
    exact pciIntx_sameOutside dev enable (by simp)

/-- Moving a gate reroutes nothing. -/
theorem DeviceRoute.vecGate (h : DeviceRoute pcie dev) (hdec : MsiDecoded dev)
    (htarget : pcie'.msi.targetAddr = pcie.msi.targetAddr) (vec : ℕ) (open' : Bool) :
    DeviceRoute pcie' (vecGate dev vec open') := by
  have hrec := vecGate_sameRecord dev vec open'
  refine h.congr hrec.active (by rw [hrec.msi]) htarget fun huses v _ => ?_
  unfold deviceWrite
  rw [hrec.active]
  split
  · -- the control word of an entry is none of its message
    rename_i hmode
    have hne : ∀ a < 12, msixEntry v + a ≠ msixEntry vec + pciMsixEntryVectorCtrl := by
      intro a ha
      simp only [msixEntry, pciMsixEntrySize, pciMsixEntryVectorCtrl]
      omega
    rw [vecGate_msix hmode]
    unfold msixWrite msixTableWrite
    dsimp only
    rw [Function.update_of_ne (hne pciMsixEntryLowerAddr (by decide)),
      Function.update_of_ne (hne pciMsixEntryUpperAddr (by decide)),
      Function.update_of_ne (hne pciMsixEntryData (by decide))]
  · rename_i hmode
    have hmsi := huses.resolve_right hmode
    refine msiWrite_of_sameOutside hdec (h.present hmsi) hrec.msi ?_ v
    rw [vecGate_msi hmsi]
    unfold pciMsiUpdateMask
    split
    · exact RegisterFile.SameOutside.refl _ _
    · exact pciWriteConfig_sameOutside _ 4 _ _ (by simp)

end Device

/-! ## The calls, one by one -/

section Calls

variable {pcie : PciController σ} {dev : PciDevice}

/-- An allocation routes each vector it grants to its slot. -/
theorem AllocOutcome.deviceRoute (h : DeviceRoute pcie dev) (hdec : MsiDecoded dev)
    (hw : dev.msi.capOffset ≠ 0 → MsiMsgWritable dev)
    (htarget : pcie.msi.targetAddr = brcmMsiTargetAddrLt4gb) {min max : ℕ} {flags : BitVec 32}
    {r : PciController σ × PciDevice × Except Errno ℕ}
    (hout : AllocOutcome pcie dev min max flags r) : DeviceRoute r.1 r.2.1 := by
  cases hout with
  -- what a refusal leaves in the slots is in force only if the device had an allocation
  | refused e slots hslots =>
    by_cases hidle : dev.active.mode = .idle
    · refine DeviceRoute.of_not_usesSlots ?_
      rw [setSlots_active, hidle]
      decide
    · rw [hslots hidle]
      exact h
  | msix n slots used =>
    have hslots : (pciMsixProgram (pcie.setUsed used) (dev.setSlots slots) n).active.slots
        = slots := by
      rw [(pciMsixProgram_sameRecord _ _ n).active]
      rfl
    refine ⟨fun hmode => absurd hmode (by simp), fun _ v hv => ?_⟩
    obtain ⟨hlo, hhi, hdata, -⟩ :=
      tableMem_pciMsixProgram (pcie.setUsed used) (dev.setSlots slots) n v hv
    simp only [deviceWrite, setActive_active, if_true, msixWrite, setActive_tableMem,
      pciMsixEntryLowerAddr, pciMsixEntryUpperAddr, pciMsixEntryData, Nat.add_zero]
    rw [hlo, hhi, hdata, hslots]
    rfl
  -- one message for the block: a vector adds its number to the data, which the alignment allows
  | msi k base slots used _ _ hcap _ _ hlog hdvd hfits =>
    have hcapOffset : IsCapOffset dev.msi.capOffset := by
      obtain ⟨h0, -⟩ | ⟨hoffset, -⟩ := hdec
      · exact absurd h0 hcap
      · exact hoffset
    have hk : k ≤ 5 := by
      have hle : 2 ^ k ≤ 2 ^ 5 := by omega
      exact (Nat.pow_le_pow_iff_right (by decide)).1 hle
    have hrec := pciMsiProgram_sameRecord (dev.setSlots (blockSlots slots base (2 ^ k)))
      (pcie.setUsed used) (2 ^ k)
    have hprog := @pciMsiProgram_programmed _ (pcie.setUsed used)
      (dev.setSlots (blockSlots slots base (2 ^ k))) hcapOffset
      ⟨(hw hcap).mme, (hw hcap).addressLo, (hw hcap).addressHi, (hw hcap).data⟩ (2 ^ k)
    have hfirst : (dev.setSlots (blockSlots slots base (2 ^ k))).active.slots 0 = base :=
      if_pos (Nat.two_pow_pos k)
    rw [hfirst] at hprog
    generalize pciMsiProgram (pcie.setUsed used) (dev.setSlots (blockSlots slots base (2 ^ k)))
      (2 ^ k) = d at hrec hprog ⊢
    refine ⟨fun _ => ?_, fun _ v hv => ?_⟩
    · rw [setActive_msi, hrec.msi]
      exact hcap
    · have hslot : d.active.slots v = base + v := by
        rw [hrec.active]
        exact if_pos hv
      rw [setActive_active]
      dsimp only
      rw [hslot, deviceWrite, if_neg (by simp)]
      have hprog' : MsgProgrammed (d.setActive .msi (2 ^ k))
          (brcmMsiComposeMsg (pcie.setUsed used) base) (2 ^ k) :=
        ⟨hprog.addressLo, hprog.addressHi, hprog.data, hprog.mme⟩
      exact hprog'.msiWrite (pcie.setUsed used) hk hdvd hv htarget
  | intx =>
    refine DeviceRoute.of_not_usesSlots ?_
    show ¬ UsesSlots .intx
    decide

variable [Gic400 σ]

/-- What a call makes of the route of its device. -/
theorem deviceRoute_apply (h : DeviceRoute pcie dev) (hdec : MsiDecoded dev)
    (hw : dev.msi.capOffset ≠ 0 → MsiMsgWritable dev) (hshape : AllocShape dev.active)
    (htarget : pcie.msi.targetAddr = brcmMsiTargetAddrLt4gb) (c : IrqCall ι) :
    DeviceRoute (c.apply pcie dev).1 (c.apply pcie dev).2 := by
  -- by the outcome of each call: an INTx device has no route to keep, the others move a gate only
  cases c with
  | vectorsAlloc i min max flags =>
    exact (pciIrqVectorsAlloc_outcome pcie dev min max flags).deviceRoute h hdec hw htarget
  | vectorsFree i =>
    have hidle := (pciIrqVectorsFree_ledger pcie dev hshape).1
    refine DeviceRoute.of_not_usesSlots ?_
    rw [IrqCall.apply, hidle]
    decide
  | addServer i vec isr =>
    have hout := pciIrqAddServer_outcome pcie dev vec isr
    simp only [IrqCall.apply]
    generalize pciIrqAddServer pcie dev vec isr = r at hout ⊢
    cases hout with
    | badVec => exact h
    | busy => exact h
    | gicRefused => exact h.congr rfl rfl rfl fun _ _ _ => rfl
    | intx _ hmode =>
      refine DeviceRoute.of_not_usesSlots ?_
      rw [pciIntx_active, setIntxServer_active, hmode]
      decide
    | slot =>
      exact @DeviceRoute.vecGate _ _ (brcmMsiSlotBind pcie (dev.active.slots vec) isr) _ h hdec rfl vec
        true
  | remServer i vec isr =>
    have hout := pciIrqRemServer_outcome pcie dev vec isr
    simp only [IrqCall.apply]
    generalize pciIrqRemServer pcie dev vec isr = r at hout ⊢
    cases hout with
    | ignored => exact h
    | intx _ hmode =>
      refine DeviceRoute.of_not_usesSlots ?_
      rw [setIntxServer_active, pciIntx_active, hmode]
      decide
    | slot =>
      exact @DeviceRoute.vecGate _ _ (brcmMsiSlotUnbind pcie (dev.active.slots vec)) _ h hdec rfl vec
        false
  | vecMask i vec =>
    have hout := pciIrqVecMask_outcome pcie dev vec
    simp only [IrqCall.apply]
    generalize pciIrqVecMask pcie dev vec = r at hout ⊢
    cases hout with
    | badVec => exact h
    | intx => exact h.pciIntx hdec false
    | slot => exact h.congr rfl rfl rfl fun _ _ _ => rfl
  | vecUnmask i vec =>
    have hout := pciIrqVecUnmask_outcome pcie dev vec
    simp only [IrqCall.apply]
    generalize pciIrqVecUnmask pcie dev vec = r at hout ⊢
    cases hout with
    | badVec => exact h
    | intx => exact h.pciIntx hdec true
    | slot => exact h.congr rfl rfl rfl fun _ _ _ => rfl

/-- No call moves the doorbell. -/
theorem IrqCall.apply_targetAddr (pcie : PciController σ) (dev : PciDevice) (c : IrqCall ι) :
    (c.apply pcie dev).1.msi.targetAddr = pcie.msi.targetAddr := by
  cases c with
  | vectorsAlloc i min max flags =>
    have hout := pciIrqVectorsAlloc_outcome pcie dev min max flags
    simp only [IrqCall.apply]
    generalize pciIrqVectorsAlloc pcie dev min max flags = r at hout ⊢
    cases hout <;> rfl
  | vectorsFree i =>
    obtain ⟨used, heq⟩ := pciIrqVectorsFree_eq pcie dev
    rw [IrqCall.apply, heq]
    exact (detachServers_quieted pcie dev dev.active.nvec).targetAddr
  | addServer i vec isr =>
    have hout := pciIrqAddServer_outcome pcie dev vec isr
    simp only [IrqCall.apply]
    generalize pciIrqAddServer pcie dev vec isr = r at hout ⊢
    cases hout <;> rfl
  | remServer i vec isr => exact (pciIrqRemServer_quieted pcie dev vec isr).targetAddr
  | vecMask i vec => rw [IrqCall.apply, (pciIrqVecMask_outcome pcie dev vec).same.1]
  | vecUnmask i vec => rw [IrqCall.apply, (pciIrqVecUnmask_outcome pcie dev vec).same.1]

end Calls

/-! ## Runs -/

/-- The routes of a state and what they rest on. -/
structure Routed (s : IrqState ι σ) : Prop where
  ledger : s.SlotsOwned
  targetAddr : s.pcie.msi.targetAddr = brcmMsiTargetAddrLt4gb
  decoded : ∀ i, MsiDecoded (s.devs i)
  writable : ∀ i, (s.devs i).msi.capOffset ≠ 0 → MsiMsgWritable (s.devs i)
  route : ∀ i, DeviceRoute s.pcie (s.devs i)

section Runs

variable [DecidableEq ι] [Gic400 σ] {s : IrqState ι σ}

omit [Gic400 σ] in
/-- A change of one device that leaves it the same function, with its route, keeps all routes. -/
theorem Routed.put (h : Routed s) (i : ι) {pcie : PciController σ} {dev : PciDevice}
    (hledger : (s.put i pcie dev).SlotsOwned) (htarget : pcie.msi.targetAddr = s.pcie.msi.targetAddr)
    (hsame : SameFunction (s.devs i) dev) (hroute : DeviceRoute pcie dev) :
    Routed (s.put i pcie dev) := by
  have hcap : dev.msi.capOffset = (s.devs i).msi.capOffset := by rw [hsame.msi]
  refine ⟨hledger, htarget.trans h.targetAddr, ?_, ?_, ?_⟩
  · exact forall_devs_put s i _ _ h.decoded (hsame.msiDecoded (h.decoded i))
  · refine forall_devs_put (P := fun d => d.msi.capOffset ≠ 0 → MsiMsgWritable d) s i _ _
      h.writable fun hne => hsame.msiMsgWritable (h.writable i ?_)
    rwa [hcap] at hne
  · refine forall_devs_put (P := DeviceRoute pcie) s i _ _ (fun j => ?_) hroute
    exact (h.route j).congr rfl rfl htarget fun _ _ _ => rfl

/-- **One core call keeps the routes.** -/
theorem routed_irqStep (h : Routed s) (c : IrqCall ι) : Routed (irqStep s c) := by
  have hsame := irqStep_sameFunction s c c.target
  rw [irqStep, put_devs_self] at hsame
  exact h.put c.target (slotsOwned_irqStep h.ledger c) (IrqCall.apply_targetAddr _ _ c) hsame
    (deviceRoute_apply (h.route _) (h.decoded _) (h.writable _) (h.ledger.shape _) h.targetAddr c)

/-- **One library call keeps the routes.** -/
theorem routed_libStep (s : IrqState ι σ) (c : LibCall ι) (h : Routed s) : Routed (libStep s c) := by
  refine libStep_invariant (P := Routed) (fun s c _ hs => routed_irqStep hs c)
    (fun s i b hs => ?_) (fun s i b hs => ?_) s c h
  · exact hs.put i (slotsOwned_put_same hs.ledger i rfl) rfl ⟨rfl, rfl, rfl, rfl⟩
      ((hs.route i).congr rfl rfl rfl fun _ _ _ => rfl)
  · exact hs.put i (slotsOwned_put_same hs.ledger i (pciIntx_active _ b)) rfl
      (SameFunction.of_sameRecord (pciIntx_sameRecord _ b) (pciIntx_rw _ b))
      ((hs.route i).pciIntx (hs.decoded i) b)

/-- **Vector routing.** From probe, on functions that implement the registers of their MSI message, a
vector's write rings the doorbell for its slot, no other vector of any device rings it for that slot,
and the demux, run on that slot, calls the server the vector has at that moment, or nothing. -/
theorem vectorRouting_run (h : Probed s)
    (hw : ∀ i, (s.devs i).msi.capOffset ≠ 0 → MsiMsgWritable (s.devs i)) (cs : List (LibCall ι)) :
    let t := run libStep s cs
    ∀ i v, UsesSlots (t.devs i).active.mode → v < (t.devs i).active.nvec →
      let slot := (t.devs i).active.slots v
      doorbellSlot t.pcie (deviceWrite (t.devs i) v) = some slot ∧
      (∀ i' v', UsesSlots (t.devs i').active.mode → v' < (t.devs i').active.nvec →
        doorbellSlot t.pcie (deviceWrite (t.devs i') v') = some slot → i' = i ∧ v' = v) ∧
      ∀ r : Intr2, r.status = bit 32 slot →
        (brcmMsiDemuxIsr { t.pcie with intr2 := r }).1
          = ((pciIrqVecServer t.pcie (t.devs i) v).map (·, slot)).toList := by
  have hrouted : Routed s := by
    refine ⟨h.slotsOwned, h.targetAddr, fun i => (h.devs i).decoded.2.1, hw, fun i => ?_⟩
    refine DeviceRoute.of_not_usesSlots ?_
    rw [(h.devs i).decoded.1]
    decide
  have ht := run_invariant (P := Routed) routed_libStep s cs hrouted
  generalize run libStep s cs = t at ht ⊢
  have hbell : ∀ i v, UsesSlots (t.devs i).active.mode → v < (t.devs i).active.nvec →
      doorbellSlot t.pcie (deviceWrite (t.devs i) v) = some ((t.devs i).active.slots v) := by
    intro i v huses hv
    rw [(ht.route i).write huses v hv]
    exact doorbellSlot_composeMsg t.pcie (ht.ledger.lt i v _ ⟨huses, hv, rfl⟩)
  intro t' i v huses hv
  refine ⟨hbell i v huses hv, fun i' v' huses' hv' hsame => ?_, fun r hr => ?_⟩
  · rw [hbell i' v' huses' hv', Option.some.injEq] at hsame
    exact ht.ledger.unique i' v' i v _ ⟨huses', hv', hsame⟩ ⟨huses, hv, rfl⟩
  · have hlt : (t.devs i).active.slots v < 32 := ht.ledger.lt i v _ ⟨huses, hv, rfl⟩
    rw [brcmMsiDemuxIsr_single { t.pcie with intr2 := r } hlt hr, pciIrqVecServer_of_usesSlots huses]

/-- The message of the sample device can be written. -/
theorem sampleDevice_msiMsgWritable : MsiMsgWritable sampleDevice :=
  ⟨sampleDevice_writable _ (by decide +kernel), sampleDevice_writable _ (by decide +kernel),
    fun _ => sampleDevice_writable _ (by decide +kernel),
    sampleDevice_writable _ (by decide +kernel)⟩

/-- Vector 2 of a block of four behind three MSI-X vectors of another device: its write has the data
`0x6546`, for slot 6, and the demux calls its server. -/
theorem vectorRouting_run_sample :
    let t := run libStep sampleState
      [.vector (.allocIntVectors (some false) 3 3 pciIrqMsix),
        .vector (.allocIntVectors (some true) 4 4 pciIrqMsi),
        .vector (.addIntVectorServer (some true) 2 (some ⟨0x1000⟩))]
    deviceWrite (t.devs true) 2 = ⟨0xfffffffc, 0, 0x6546⟩ ∧
      doorbellSlot t.pcie (deviceWrite (t.devs true) 2) = some ((t.devs true).active.slots 2) :=
  ⟨by decide +kernel, (vectorRouting_run sampleState_probed (fun _ _ => sampleDevice_msiMsgWritable)
    _ true 2 (by decide +kernel) (by decide +kernel)).1⟩

end Runs

end BcmPcie
