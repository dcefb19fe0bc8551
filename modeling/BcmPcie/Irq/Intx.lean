import BcmPcie.Pci.Io

/-! # The INTx pin

`pci_intx` and `pci_intx_alloc` of `pci_int.c`: one bit of the command register lets a function
assert its shared, level-triggered line or not.

* `intxDisabled_pciIntx_false`, `intxDisabled_pciIntx_true` — what the two writes leave, on a
  function that implements the bit. -/

namespace BcmPcie

/-- The command word with `INTX_DISABLE` cleared (`enable`) or set. -/
def intxCommand (command : BitVec 16) (enable : Bool) : BitVec 16 :=
  if enable then command &&& ~~~pciCommandIntxDisable else command ||| pciCommandIntxDisable

/-- `pci_intx`: let the function assert INTx, or not. A register that already has the value is not
written. -/
def pciIntx (dev : PciDevice) (enable : Bool) : PciDevice :=
  let command := pciReadConfig16 dev pciCommand
  let newCommand := intxCommand command enable
  if newCommand = command then dev else pciWriteConfig16 dev pciCommand newCommand

/-- `pci_intx_alloc`: INTx is one vector, on the routed pin. -/
def pciIntxAlloc (dev : PciDevice) (min : ℕ) : Except Errno ℕ :=
  if 1 < min then .error .erange
  else if dev.intx.gicIrq = 0 then .error .enodev
  else .ok 1

/-- `PCI_COMMAND.INTX_DISABLE` is set: the function does not assert its line. -/
def IntxDisabled (dev : PciDevice) : Prop :=
  (pciReadConfig16 dev pciCommand).getLsbD 10 = true

instance (dev : PciDevice) : Decidable (IntxDisabled dev) :=
  inferInstanceAs (Decidable (_ = true))

/-- The function implements `INTX_DISABLE`: the bit can be written. -/
def IntxWritable (dev : PciDevice) : Prop :=
  dev.cfg.Writable 16 pciCommand pciCommandIntxDisable

section Frame

variable (dev : PciDevice) (enable : Bool)

/-- Switching INTx on or off keeps the record. -/
theorem pciIntx_sameRecord : SameRecord dev (pciIntx dev enable) := by
  unfold pciIntx
  dsimp only
  split <;> rfl

@[simp] theorem pciIntx_msi : (pciIntx dev enable).msi = dev.msi := by
  unfold pciIntx
  dsimp only
  split <;> rfl

@[simp] theorem pciIntx_msix : (pciIntx dev enable).msix = dev.msix :=
  (pciIntx_sameRecord dev enable).msix

@[simp] theorem pciIntx_intx : (pciIntx dev enable).intx = dev.intx :=
  (pciIntx_sameRecord dev enable).intx

@[simp] theorem pciIntx_active : (pciIntx dev enable).active = dev.active :=
  (pciIntx_sameRecord dev enable).active

@[simp] theorem pciIntx_tableMem : (pciIntx dev enable).tableMem = dev.tableMem := by
  unfold pciIntx
  dsimp only
  split <;> rfl

/-- `pci_intx` writes the command register alone. -/
theorem pciIntx_sameOutside {ranges : List (ℕ × ℕ)} (hmem : (pciCommand, 2) ∈ ranges) :
    dev.cfg.SameOutside ranges (pciIntx dev enable).cfg := by
  unfold pciIntx
  dsimp only
  split
  · exact RegisterFile.SameOutside.refl _ _
  · exact pciWriteConfig_sameOutside dev 2 pciCommand _ hmem

end Frame

/-- Whether INTx can be switched depends on the bits that can be written. -/
theorem intxWritable_iff {dev dev' : PciDevice} (h : dev'.cfg.rw = dev.cfg.rw) :
    IntxWritable dev' ↔ IntxWritable dev := by
  unfold IntxWritable RegisterFile.Writable
  rw [h]

/-- What `pci_intx` leaves in the command register of a function that implements the bit. -/
theorem getLsbD_pciIntx (dev : PciDevice) (enable : Bool) (hw : IntxWritable dev) :
    (pciReadConfig16 (pciIntx dev enable) pciCommand).getLsbD 10 = !enable := by
  have hrw : dev.cfg.rw.getLsbD (8 * pciCommand + 10) = true := hw 10 (by decide) (by decide)
  have hbit : (intxCommand (pciReadConfig16 dev pciCommand) enable).getLsbD 10 = !enable := by
    cases enable <;> simp [intxCommand]
  unfold pciIntx
  dsimp only
  split
  · rename_i hsame
    rw [← hsame]
    exact hbit
  · rw [getLsbD_pciReadConfig_write dev _ (by decide) (by decide), if_pos hrw]
    exact hbit

/-- Switched off, INTx is disabled. -/
theorem intxDisabled_pciIntx_false (dev : PciDevice) (hw : IntxWritable dev) :
    IntxDisabled (pciIntx dev false) :=
  getLsbD_pciIntx dev false hw

/-- Switched on, it is not. -/
theorem intxDisabled_pciIntx_true (dev : PciDevice) (hw : IntxWritable dev) :
    ¬ IntxDisabled (pciIntx dev true) := by
  unfold IntxDisabled
  rw [getLsbD_pciIntx dev true hw]
  decide

end BcmPcie
