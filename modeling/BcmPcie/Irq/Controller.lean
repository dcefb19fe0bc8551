import BcmPcie.Library.BitSet
import BcmPcie.Pci.Types

/-! # The controller back-end of the interrupt layer

`pcie_brcmstb_msi.c`: the message that steers a device onto a demux slot, the server table of the
slots with their mask in the root complex, the registration of INTx servers with `gic400.library`
and the demux server. `gic400.library` is not part of the repository; it appears as the two calls
the code makes on it (`Gic400`).

* `brcmMsiDemuxIsr_calls` — the demux calls the server of every latched slot, lowest slot first.
* `brcmMsiSlotBind_mask`, `brcmMsiSlotUnbind_mask`, … — the slot mask after each operation, bit by
  bit. -/

namespace BcmPcie

open BitSet

/-! ## gic400.library -/

/-- What `AddIntServerEx` answers. -/
inductive GicResult
  | ok
  | alreadyRegistered
  | failed
  deriving DecidableEq, Repr

/-- `gic400.library`, as far as it is called here: registration and removal of a server. -/
class Gic400 (σ : Type*) where
  addIntServerEx : σ → (irq : BitVec 32) → (priority : ℕ) → (edge : Bool) → Option Interrupt →
    GicResult × σ
  remIntServerEx : σ → (irq : BitVec 32) → Option Interrupt → σ

/-- A refused registration leaves `gic400.library` as it was. -/
def Gic400.RefusalIsSilent (σ : Type*) [Gic400 σ] : Prop :=
  ∀ (g : σ) (irq : BitVec 32) (priority : ℕ) (edge : Bool) (isr : Option Interrupt),
    (addIntServerEx g irq priority edge isr).1 ≠ .ok →
      (addIntServerEx g irq priority edge isr).2 = g

/-- The servers of a `gic400.library` that takes one server an interrupt, as it does today. -/
abbrev GicTable := List (BitVec 32 × Option Interrupt)

instance : Gic400 GicTable where
  addIntServerEx g irq _ _ isr :=
    if g.any (·.1 == irq) then (.alreadyRegistered, g) else (.ok, (irq, isr) :: g)
  remIntServerEx g irq isr := g.filter (· != (irq, isr))

/-- A table that refuses a server does not change. -/
theorem gicTable_refusalIsSilent : Gic400.RefusalIsSilent GicTable := by
  intro g irq _ _ isr h
  simp only [Gic400.addIntServerEx] at h ⊢
  split
  · rfl
  · rename_i hnew
    rw [if_neg hnew] at h
    exact absurd rfl h

variable {σ : Type*}

/-! ## Messages -/

/-- An MSI or MSI-X message: a memory write of `data` to the address. -/
structure MsiMessage where
  addressLo : BitVec 32
  addressHi : BitVec 32
  data : BitVec 16
  deriving DecidableEq, Repr

/-- `brcm_msi_compose_msg`: the message that raises `slot`. The target address is 32 bits wide, so
its upper word is 0. -/
def brcmMsiComposeMsg (pcie : PciController σ) (slot : ℕ) : MsiMessage where
  addressLo := pcie.msi.targetAddr
  addressHi := 0
  data := (pcieMiscMsiDataConfigVal32 &&& 0xffff#32 ||| BitVec.ofNat 32 slot).setWidth 16

/-! ## Demux slots -/

/-- `brcm_msi_slot_server`. -/
def brcmMsiSlotServer (pcie : PciController σ) (slot : ℕ) : Option Interrupt :=
  pcie.msi.servers slot

/-- `brcm_msi_slot_bind`: record the server, drop what the slot has latched, unmask it. -/
def brcmMsiSlotBind (pcie : PciController σ) (slot : ℕ) (isr : Option Interrupt) :
    PciController σ :=
  { pcie with
    msi := { pcie.msi with servers := Function.update pcie.msi.servers slot isr }
    intr2 := (pcie.intr2.writeClr (bit 32 slot)).writeMaskClr (bit 32 slot) }

/-- `brcm_msi_slot_unbind`: mask the slot, then take its server away. -/
def brcmMsiSlotUnbind (pcie : PciController σ) (slot : ℕ) : PciController σ :=
  { pcie with
    intr2 := pcie.intr2.writeMaskSet (bit 32 slot)
    msi := { pcie.msi with servers := Function.update pcie.msi.servers slot none } }

/-- `brcm_msi_slot_mask`. -/
def brcmMsiSlotMask (pcie : PciController σ) (slot : ℕ) : PciController σ :=
  { pcie with intr2 := pcie.intr2.writeMaskSet (bit 32 slot) }

/-- `brcm_msi_slot_unmask`. -/
def brcmMsiSlotUnmask (pcie : PciController σ) (slot : ℕ) : PciController σ :=
  { pcie with intr2 := pcie.intr2.writeMaskClr (bit 32 slot) }

section Slots

variable (pcie : PciController σ) (slot : ℕ) (isr : Option Interrupt)

@[simp] theorem brcmMsiSlotBind_used : (brcmMsiSlotBind pcie slot isr).msi.used = pcie.msi.used :=
  rfl

@[simp] theorem brcmMsiSlotBind_targetAddr :
    (brcmMsiSlotBind pcie slot isr).msi.targetAddr = pcie.msi.targetAddr := rfl

@[simp] theorem brcmMsiSlotBind_servers :
    (brcmMsiSlotBind pcie slot isr).msi.servers = Function.update pcie.msi.servers slot isr := rfl

@[simp] theorem brcmMsiSlotUnbind_used : (brcmMsiSlotUnbind pcie slot).msi.used = pcie.msi.used :=
  rfl

@[simp] theorem brcmMsiSlotUnbind_targetAddr :
    (brcmMsiSlotUnbind pcie slot).msi.targetAddr = pcie.msi.targetAddr := rfl

@[simp] theorem brcmMsiSlotUnbind_servers :
    (brcmMsiSlotUnbind pcie slot).msi.servers = Function.update pcie.msi.servers slot none := rfl

@[simp] theorem brcmMsiSlotMask_msi : (brcmMsiSlotMask pcie slot).msi = pcie.msi := rfl

@[simp] theorem brcmMsiSlotUnmask_msi : (brcmMsiSlotUnmask pcie slot).msi = pcie.msi := rfl

/-- Setting the bit of a slot in a mask register masks that slot. -/
theorem getLsbD_writeMaskSet (r : Intr2) {j : ℕ} (hj : j < 32) :
    (r.writeMaskSet (bit 32 slot)).mask.getLsbD j = (r.mask.getLsbD j || decide (slot = j)) := by
  rw [Intr2.writeMaskSet, BitVec.getLsbD_or, getLsbD_bit]
  simp only [hj, decide_true, Bool.true_and]

/-- Clearing the bit of a slot in a mask register unmasks that slot. -/
theorem getLsbD_writeMaskClr (r : Intr2) {j : ℕ} (hj : j < 32) :
    (r.writeMaskClr (bit 32 slot)).mask.getLsbD j = (r.mask.getLsbD j && decide (slot ≠ j)) := by
  rw [Intr2.writeMaskClr, BitVec.getLsbD_and, BitVec.getLsbD_not, getLsbD_bit]
  simp only [hj, decide_true, Bool.true_and, decide_not]

/-- Binding a slot clears its bit of the mask. -/
theorem brcmMsiSlotBind_mask {j : ℕ} (hj : j < 32) :
    (brcmMsiSlotBind pcie slot isr).intr2.mask.getLsbD j
      = (pcie.intr2.mask.getLsbD j && decide (slot ≠ j)) :=
  getLsbD_writeMaskClr slot _ hj

/-- Unbinding a slot sets it. -/
theorem brcmMsiSlotUnbind_mask {j : ℕ} (hj : j < 32) :
    (brcmMsiSlotUnbind pcie slot).intr2.mask.getLsbD j
      = (pcie.intr2.mask.getLsbD j || decide (slot = j)) :=
  getLsbD_writeMaskSet slot _ hj

/-- Masking a slot sets it. -/
theorem brcmMsiSlotMask_mask {j : ℕ} (hj : j < 32) :
    (brcmMsiSlotMask pcie slot).intr2.mask.getLsbD j
      = (pcie.intr2.mask.getLsbD j || decide (slot = j)) :=
  getLsbD_writeMaskSet slot _ hj

/-- Unmasking a slot clears it. -/
theorem brcmMsiSlotUnmask_mask {j : ℕ} (hj : j < 32) :
    (brcmMsiSlotUnmask pcie slot).intr2.mask.getLsbD j
      = (pcie.intr2.mask.getLsbD j && decide (slot ≠ j)) :=
  getLsbD_writeMaskClr slot _ hj

end Slots

/-! ## INTx servers -/

section Intx

variable [Gic400 σ]

/-- `brcm_gic_add_server`. -/
def brcmGicAddServer (pcie : PciController σ) (gicIrq : BitVec 32) (isr : Option Interrupt) :
    PciController σ × Except Errno Unit :=
  let (r, gic) := Gic400.addIntServerEx pcie.gic400 gicIrq pcieGicPriority pcieGicEdge isr
  ({ pcie with gic400 := gic },
    match r with
    | .ok => .ok ()
    | .alreadyRegistered => .error .ebusy
    | .failed => .error .eio)

/-- `brcm_gic_rem_server`. -/
def brcmGicRemServer (pcie : PciController σ) (gicIrq : BitVec 32) (isr : Option Interrupt) :
    PciController σ :=
  { pcie with gic400 := Gic400.remIntServerEx pcie.gic400 gicIrq isr }

/-- `brcm_intx_add_server`. -/
def brcmIntxAddServer (pcie : PciController σ) (dev : PciDevice) (isr : Option Interrupt) :
    PciController σ × Except Errno Unit :=
  brcmGicAddServer pcie dev.intx.gicIrq isr

/-- `brcm_intx_rem_server`. -/
def brcmIntxRemServer (pcie : PciController σ) (dev : PciDevice) (isr : Option Interrupt) :
    PciController σ :=
  brcmGicRemServer pcie dev.intx.gicIrq isr

variable (pcie : PciController σ) (dev : PciDevice) (isr : Option Interrupt)

@[simp] theorem brcmIntxAddServer_msi : (brcmIntxAddServer pcie dev isr).1.msi = pcie.msi := rfl

@[simp] theorem brcmIntxAddServer_intr2 :
    (brcmIntxAddServer pcie dev isr).1.intr2 = pcie.intr2 := rfl

@[simp] theorem brcmIntxRemServer_msi : (brcmIntxRemServer pcie dev isr).msi = pcie.msi := rfl

@[simp] theorem brcmIntxRemServer_intr2 :
    (brcmIntxRemServer pcie dev isr).intr2 = pcie.intr2 := rfl

/-- A refused INTx server leaves the controller as it was. -/
theorem brcmIntxAddServer_of_error (hgic : Gic400.RefusalIsSilent σ) {e : Errno}
    (h : (brcmIntxAddServer pcie dev isr).2 = .error e) :
    (brcmIntxAddServer pcie dev isr).1 = pcie := by
  have hsilent := hgic pcie.gic400 dev.intx.gicIrq pcieGicPriority pcieGicEdge isr
  simp only [brcmIntxAddServer, brcmGicAddServer] at h ⊢
  rw [hsilent]
  intro hok
  rw [hok] at h
  exact absurd h (by simp)

end Intx

/-! ## The demux server -/

/-- The loop of `brcm_msi_demux_isr` on the remaining `status`: clear the lowest slot, call its
server, go on. The result is the list of the calls made, in order, each with its slot. -/
def brcmMsiDemuxLoop (servers : ℕ → Option Interrupt) :
    (fuel : ℕ) → (status : BitVec 32) → Intr2 → List (Interrupt × ℕ) × Intr2
  | 0, _, r => ([], r)
  | fuel + 1, status, r =>
    if status = 0#32 then ([], r)
    else
      let slot := status.ctz.toNat
      let (calls, r) := brcmMsiDemuxLoop servers fuel (status &&& (status - 1#32))
        (r.writeClr (bit 32 slot))
      match servers slot with
      | some server => ((server, slot) :: calls, r)
      | none => (calls, r)

/-- `brcm_msi_demux_isr`, run while nothing else touches the server table: the calls it makes and
the registers it leaves. There is one round for each set bit, so 32 rounds are enough. -/
def brcmMsiDemuxIsr (pcie : PciController σ) : List (Interrupt × ℕ) × PciController σ :=
  let (calls, r) := brcmMsiDemuxLoop pcie.msi.servers msiMaxVectors pcie.intr2.status pcie.intr2
  (calls, { pcie with intr2 := r })

/-- The calls owed to a list of slots. -/
def slotCalls (servers : ℕ → Option Interrupt) (l : List ℕ) : List (Interrupt × ℕ) :=
  l.filterMap fun slot => (servers slot).map (·, slot)

/-- The loop of the demultiplexer calls the servers of the bits that are set, from the lowest on. -/
theorem brcmMsiDemuxLoop_calls (servers : ℕ → Option Interrupt) (fuel : ℕ) (status : BitVec 32)
    (r : Intr2) (h : (setBits status).length ≤ fuel) :
    (brcmMsiDemuxLoop servers fuel status r).1 = slotCalls servers (setBits status) := by
  induction fuel generalizing status r with
  | zero =>
    rw [List.length_eq_zero_iff.1 (Nat.le_zero.1 h)]
    rfl
  | succ fuel ih =>
    rw [brcmMsiDemuxLoop]
    split
    · rename_i hzero
      simp [hzero, slotCalls]
    · rename_i hne
      have hrest := ih (status &&& (status - 1#32)) (r.writeClr (bit 32 status.ctz.toNat))
        (by rw [length_setBits_and_sub_one hne] at h; omega)
      rw [setBits_eq_cons hne]
      cases hs : servers status.ctz.toNat with
      | none => simp [slotCalls, hs, hrest]
      | some server => simp [slotCalls, hs, hrest]

/-- The demux calls the server of every latched slot that has one, lowest slot first. -/
theorem brcmMsiDemuxIsr_calls (pcie : PciController σ) :
    (brcmMsiDemuxIsr pcie).1 = slotCalls pcie.msi.servers (setBits pcie.intr2.status) :=
  brcmMsiDemuxLoop_calls _ _ _ _ (length_setBits_le _)

/-- On a status word with one slot latched, the demux calls that slot's server, if it has one. -/
theorem brcmMsiDemuxIsr_single (pcie : PciController σ) {slot : ℕ} (hslot : slot < 32)
    (h : pcie.intr2.status = bit 32 slot) :
    (brcmMsiDemuxIsr pcie).1 = ((pcie.msi.servers slot).map (·, slot)).toList := by
  rw [brcmMsiDemuxIsr_calls, h, setBits_bit hslot]
  cases hs : pcie.msi.servers slot <;> simp [slotCalls, hs]

end BcmPcie
