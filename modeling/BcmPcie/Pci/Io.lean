import BcmPcie.Pci.Types

/-! # Configuration-space accesses

`pci_read_config8/16/32` and `pci_write_config8/16/32` of `pci_io.c` over the controller's
`brcm_pcie_read_config` and `brcm_pcie_write_config`. A function that was enumerated answers its
configuration cycles: the link is up and its bus, device and function numbers are reachable, or its
vendor would not have been read. What is left of the controller's checks is the 4 KiB bound.

* `pciReadConfig_write_of_apart` — a write leaves the fields it does not overlap alone.
* `pciReadConfig_write_of_masked` — a value that differs from the field inside a writable mask only
  is read back.
* `Rewritten` — what a sequence of writes to some registers leaves alone. -/

namespace BcmPcie

/-- `pci_read_config`: a read past the 4 KiB of the space fails and gives all ones. -/
def pciReadConfig (w : ℕ) (dev : PciDevice) (offset : ℕ) : BitVec w :=
  if 4096 ≤ offset then BitVec.allOnes w else dev.cfg.read w offset

/-- `pci_write_config`: a write past the 4 KiB of the space fails and changes nothing. -/
def pciWriteConfig (w : ℕ) (dev : PciDevice) (offset : ℕ) (value : BitVec w) : PciDevice :=
  { dev with cfg := if 4096 ≤ offset then dev.cfg else dev.cfg.write w offset value }

abbrev pciReadConfig8 : PciDevice → ℕ → BitVec 8 := pciReadConfig 8
abbrev pciReadConfig16 : PciDevice → ℕ → BitVec 16 := pciReadConfig 16
abbrev pciReadConfig32 : PciDevice → ℕ → BitVec 32 := pciReadConfig 32
abbrev pciWriteConfig8 : PciDevice → ℕ → BitVec 8 → PciDevice := pciWriteConfig 8
abbrev pciWriteConfig16 : PciDevice → ℕ → BitVec 16 → PciDevice := pciWriteConfig 16
abbrev pciWriteConfig32 : PciDevice → ℕ → BitVec 32 → PciDevice := pciWriteConfig 32

section Frame

variable (w : ℕ) (dev : PciDevice) (offset : ℕ) (value : BitVec w)

@[simp] theorem pciWriteConfig_tableMem :
    (pciWriteConfig w dev offset value).tableMem = dev.tableMem := rfl

@[simp] theorem pciWriteConfig_msi : (pciWriteConfig w dev offset value).msi = dev.msi := rfl

@[simp] theorem pciWriteConfig_msix : (pciWriteConfig w dev offset value).msix = dev.msix := rfl

@[simp] theorem pciWriteConfig_intx : (pciWriteConfig w dev offset value).intx = dev.intx := rfl

@[simp] theorem pciWriteConfig_active :
    (pciWriteConfig w dev offset value).active = dev.active := rfl

@[simp] theorem pciWriteConfig_bars : (pciWriteConfig w dev offset value).bars = dev.bars := rfl

@[simp] theorem pciWriteConfig_barsNum :
    (pciWriteConfig w dev offset value).barsNum = dev.barsNum := rfl

@[simp] theorem pciWriteConfig_rw : (pciWriteConfig w dev offset value).cfg.rw = dev.cfg.rw := by
  unfold pciWriteConfig
  split <;> rfl

@[simp] theorem pciWriteConfig_writable {w' offset' : ℕ} {mask : BitVec w'} :
    (pciWriteConfig w dev offset value).cfg.Writable w' offset' mask
      ↔ dev.cfg.Writable w' offset' mask := by
  unfold RegisterFile.Writable
  rw [pciWriteConfig_rw]

end Frame

/-- The second record is the first up to its registers: configuration space, MSI-X table and the
shadow of the MSI mask register may differ, all else is the same. -/
def SameRecord (dev dev' : PciDevice) : Prop :=
  dev' = { dev with
    cfg := dev'.cfg
    tableMem := dev'.tableMem
    msi := { dev.msi with mask := dev'.msi.mask } }

namespace SameRecord

variable {dev dev' dev'' : PciDevice}

/-- Doing nothing keeps the record. -/
theorem refl (dev : PciDevice) : SameRecord dev dev := rfl

/-- Two steps that keep the record keep it together. -/
theorem trans (h : SameRecord dev dev') (h' : SameRecord dev' dev'') : SameRecord dev dev'' :=
  Eq.trans h' (by rw [h])

/-- The same record has the same mode. -/
theorem active (h : SameRecord dev dev') : dev'.active = dev.active := by rw [h]

/-- The same record has the same INTx state. -/
theorem intx (h : SameRecord dev dev') : dev'.intx = dev.intx := by rw [h]

/-- The same record has the same MSI-X state. -/
theorem msix (h : SameRecord dev dev') : dev'.msix = dev.msix := by rw [h]

/-- The same record has the same MSI state, but for the shadow of the mask. -/
theorem msi (h : SameRecord dev dev') : dev'.msi = { dev.msi with mask := dev'.msi.mask } := by
  rw [h]

end SameRecord

/-- A write changes nothing outside its own bytes. -/
theorem pciWriteConfig_sameOutside (dev : PciDevice) (len offset : ℕ) (value : BitVec (8 * len))
    {ranges : List (ℕ × ℕ)} (hmem : (offset, len) ∈ ranges) :
    dev.cfg.SameOutside ranges (pciWriteConfig (8 * len) dev offset value).cfg := by
  unfold pciWriteConfig
  split
  · exact RegisterFile.SameOutside.refl _ _
  · exact RegisterFile.sameOutside_write _ _ _ _ hmem

/-- What agrees outside some ranges reads the same there. -/
theorem pciReadConfig_of_sameOutside {dev dev' : PciDevice} {ranges : List (ℕ × ℕ)} {w offset : ℕ}
    (h : dev.cfg.SameOutside ranges dev'.cfg)
    (hap : ∀ r ∈ ranges, RegisterFile.Apart (8 * r.2) r.1 w offset) :
    pciReadConfig w dev' offset = pciReadConfig w dev offset := by
  unfold pciReadConfig
  rw [h.2 w offset hap]

/-- A write leaves every register it does not overlap alone. -/
theorem pciReadConfig_write_of_apart (dev : PciDevice) {w offset w' offset' : ℕ} (value : BitVec w)
    (h : RegisterFile.Apart w offset w' offset') :
    pciReadConfig w' (pciWriteConfig w dev offset value) offset' = pciReadConfig w' dev offset' := by
  unfold pciReadConfig pciWriteConfig
  by_cases hoff : 4096 ≤ offset
  · rw [if_pos hoff]
  · simp only [if_neg hoff, RegisterFile.read_write_disjoint dev.cfg value h]

/-- A value that differs from a register only inside a writable mask is read back as written. -/
theorem pciReadConfig_write_of_masked (dev : PciDevice) {w offset : ℕ} (value mask : BitVec w)
    (hoff : offset < 4096) (hmask : dev.cfg.Writable w offset mask)
    (hv : value &&& ~~~mask = pciReadConfig w dev offset &&& ~~~mask) :
    pciReadConfig w (pciWriteConfig w dev offset value) offset = value := by
  have hlt : ¬ 4096 ≤ offset := Nat.not_le.2 hoff
  simp only [pciReadConfig, if_neg hlt] at hv
  simp only [pciReadConfig, pciWriteConfig, if_neg hlt]
  exact RegisterFile.read_write_of_masked dev.cfg w offset value mask hmask hv

/-- Bit `i` of a register after a write to it: new where it is writable. -/
theorem getLsbD_pciReadConfig_write (dev : PciDevice) {w offset : ℕ} (value : BitVec w)
    (hoff : offset < 4096) {i : ℕ} (hi : i < w) :
    (pciReadConfig w (pciWriteConfig w dev offset value) offset).getLsbD i
      = if dev.cfg.rw.getLsbD (8 * offset + i) = true then value.getLsbD i
        else (pciReadConfig w dev offset).getLsbD i := by
  have hlt : ¬ 4096 ≤ offset := Nat.not_le.2 hoff
  simp only [pciReadConfig, pciWriteConfig, if_neg hlt]
  rw [RegisterFile.getLsbD_read_write _ _ _ _ _ _ _ hi, Nat.add_sub_cancel_left]
  by_cases hrw : dev.cfg.rw.getLsbD (8 * offset + i) = true
  · rw [if_pos ⟨hrw, by omega, by omega⟩, if_pos hrw]
  · rw [if_neg (fun h => hrw h.1), if_neg hrw]

/-- The writable bits of a register read back as written. -/
theorem pciReadConfig_write_and (dev : PciDevice) {w offset : ℕ} (value mask : BitVec w)
    (hoff : offset < 4096) (hmask : dev.cfg.Writable w offset mask) :
    pciReadConfig w (pciWriteConfig w dev offset value) offset &&& mask = value &&& mask := by
  apply BitVec.eq_of_getLsbD_eq
  intro i hi
  rw [BitVec.getLsbD_and, BitVec.getLsbD_and, getLsbD_pciReadConfig_write dev value hoff hi]
  cases hm : mask.getLsbD i
  · rw [Bool.and_false, Bool.and_false]
  · rw [if_pos (hmask i hi hm)]

/-- Reading back a register that was just written. -/
theorem pciReadConfig_write_self (dev : PciDevice) (w : ℕ) {offset : ℕ} (value : BitVec w)
    (hoff : offset < 4096) :
    pciReadConfig w (pciWriteConfig w dev offset value) offset = dev.cfg.response w offset value := by
  have hlt : ¬ 4096 ≤ offset := Nat.not_le.2 hoff
  simp only [pciReadConfig, pciWriteConfig, if_neg hlt]
  rfl

/-- Configuration registers inside some byte ranges were written, and nothing else has changed. -/
structure Rewritten (ranges : List (ℕ × ℕ)) (dev dev' : PciDevice) : Prop where
  record : dev' = { dev with cfg := dev'.cfg }
  device : dev.cfg.SameDevice dev'.cfg
  outside : dev.cfg.SameOutside ranges dev'.cfg

namespace Rewritten

variable {ranges ranges' : List (ℕ × ℕ)} {dev dev' dev'' : PciDevice}

/-- Doing nothing rewrites nothing. -/
theorem refl (ranges : List (ℕ × ℕ)) (dev : PciDevice) : Rewritten ranges dev dev :=
  ⟨rfl, RegisterFile.SameDevice.refl _, RegisterFile.SameOutside.refl _ _⟩

/-- Two steps that rewrite within the ranges do so together. -/
theorem trans (h : Rewritten ranges dev dev') (h' : Rewritten ranges dev' dev'') :
    Rewritten ranges dev dev'' :=
  ⟨h'.record.trans (by rw [h.record]), h.device.trans h'.device, h.outside.trans h'.outside⟩

/-- More ranges may be rewritten. -/
theorem mono (h : Rewritten ranges dev dev') (hsub : ∀ r ∈ ranges, r ∈ ranges') :
    Rewritten ranges' dev dev' :=
  ⟨h.record, h.device, h.outside.mono hsub⟩

/-- Larger ranges may be rewritten. -/
theorem widen (h : Rewritten ranges dev dev')
    (hsub : ∀ r ∈ ranges, ∃ r' ∈ ranges', r'.1 ≤ r.1 ∧ r.1 + r.2 ≤ r'.1 + r'.2) :
    Rewritten ranges' dev dev' :=
  ⟨h.record, h.device, h.outside.widen hsub⟩

/-- Rewriting registers leaves the BARs of the record. -/
theorem bars (h : Rewritten ranges dev dev') : dev'.bars = dev.bars := by rw [h.record]

/-- Rewriting registers leaves the address of the record on the buses. -/
theorem bdf (h : Rewritten ranges dev dev') : dev'.bdf = dev.bdf := by rw [h.record]

end Rewritten

/-- A write to a register rewrites it. -/
theorem rewritten_pciWriteConfig (dev : PciDevice) (len : ℕ) {offset : ℕ} (value : BitVec (8 * len))
    {ranges : List (ℕ × ℕ)} {r : ℕ × ℕ} (hmem : r ∈ ranges) (hlow : r.1 ≤ offset)
    (hhigh : offset + len ≤ r.1 + r.2) :
    Rewritten ranges dev (pciWriteConfig (8 * len) dev offset value) := by
  unfold pciWriteConfig
  refine ⟨rfl, ?_, ?_⟩
  · dsimp only
    split
    · exact RegisterFile.SameDevice.refl _
    · exact RegisterFile.sameDevice_write _ _ _ _
  · dsimp only
    split
    · exact RegisterFile.SameOutside.refl _ _
    · exact RegisterFile.sameOutside_write_of_within _ _ _ _ hmem hlow hhigh

end BcmPcie
