import BcmPcie.Enumeration.Scan
import BcmPcie.Memory.Translation

/-! # Translation outside the known ranges

An address of the bus is known to a driver if it lies in a BAR of its device or in Fast RAM; anything
else is to be translated to `NULL`. The calls look the address up in the whole region table instead,
which also holds the windows onto the bus, and narrow what they find to 32 bits.

* `KnownLogic` — the 68k address that is due for a bus address.
* `knownRanges_iff` — when the calls give what is due. -/

namespace BcmPcie

open Windows

variable {σ : Type*}

/-! ## What is due -/

/-- A mapped BAR that holds a bus address. -/
def PciBarInfo.Holds (bar : PciBarInfo) (addr : BitVec 32) : Prop :=
  bar.Mapped ∧ bar.busWindow.Decodes addr.toNat

instance (bar : PciBarInfo) (addr : BitVec 32) : Decidable (bar.Holds addr) :=
  inferInstanceAs (Decidable (_ ∧ _))

section

variable (pcie : PciController σ) (dev : PciDevice) (addr : BitVec 32)

/-- `r` is due for a bus address: its place in a mapped BAR of the device; else its place in Fast
RAM; else `NULL`. -/
def KnownLogic (r : BitVec 32) : Prop :=
  (∃ bar ∈ dev.slots, bar.Holds addr ∧ r = bar.address addr) ∨
    ((∀ bar ∈ dev.slots, ¬ bar.Holds addr) ∧
      ((∃ res ∈ pcie.regions, res.IsSysMemory ∧ res.busWindow.Decodes addr.toNat ∧
          r = res.logic addr) ∨
        ((∀ res ∈ pcie.regions, res.IsSysMemory → ¬ res.busWindow.Decodes addr.toNat) ∧ r = 0)))

instance (r : BitVec 32) : Decidable (KnownLogic pcie dev addr r) :=
  inferInstanceAs (Decidable (_ ∨ _))

/-- A 68k address in no mapped BAR of the device and not in Fast RAM. -/
def UnknownPhysic : Prop :=
  (∀ bar ∈ dev.slots, bar.Mapped → ¬ bar.virtWindow.Decodes addr.toNat) ∧
    ∀ res ∈ pcie.regions, res.IsSysMemory → ¬ res.cpuWindow.Decodes addr.toNat

instance : Decidable (UnknownPhysic pcie dev addr) := inferInstanceAs (Decidable (_ ∧ _))

/-! ## The conditions -/

/-- The first region of the table, of any type, that holds a bus address is `shift` away from the bus
for the CPU, in 32 bits. An empty table leaves an address as it is, and one that no region holds is given
0. -/
def BusShifted (shift : BitVec 32) : Prop :=
  if pcie.regions = [] then shift = 0
  else
    match pcie.busRegion addr with
    | some first => first.shift = shift
    | none => shift = -addr

instance (shift : BitVec 32) : Decidable (BusShifted pcie addr shift) := by
  unfold BusShifted
  split
  · infer_instance
  · split <;> infer_instance

/-- A mapped BAR that ends below 4 GiB holds the address. -/
def InLowBar : Prop :=
  ∃ bar ∈ dev.slots, bar.Holds addr ∧ bar.busAddr.toNat + bar.size.toNat < 2 ^ 32

instance : Decidable (InLowBar dev addr) := inferInstanceAs (Decidable (∃ _ ∈ _, _))

/-- When a bus address but 0 is given what is due. It is in a BAR that ends below 4 GiB; or in another,
and the table moves it as far; or in no BAR but in Fast RAM, and the table moves it as far as that; or in
neither, and the table is not empty, and no region holds it or the first that does shows it at 0. -/
def LogicCond : Prop :=
  InLowBar dev addr ∨
    (∃ bar ∈ dev.slots, bar.Holds addr ∧ BusShifted pcie addr bar.shift) ∨
    ((∀ bar ∈ dev.slots, ¬ bar.Holds addr) ∧
      ((∃ res ∈ pcie.regions, res.IsSysMemory ∧ res.busWindow.Decodes addr.toNat ∧
          BusShifted pcie addr res.shift) ∨
        ((∀ res ∈ pcie.regions, res.IsSysMemory → ¬ res.busWindow.Decodes addr.toNat) ∧
          pcie.regions ≠ [] ∧ ∀ first ∈ pcie.busRegion addr, first.shift = -addr)))

instance : Decidable (LogicCond pcie dev addr) := inferInstanceAs (Decidable (_ ∨ _))

/-- When bus address 0 is: no BAR is there, and no Fast RAM but at a multiple of 4 GiB of the CPU. -/
def LogicZeroCond : Prop :=
  (∀ bar ∈ dev.slots, ¬ bar.Holds 0) ∧
    ((∀ res ∈ pcie.regions, res.IsSysMemory → ¬ res.busWindow.Decodes 0) ∨
      ∃ res ∈ pcie.regions, res.IsSysMemory ∧ res.busWindow.Decodes 0 ∧ res.shift = 0)

/-- When an unknown 68k address is given `NULL`: it is 0, or the table is not empty, and no region holds
it or the first that does shows bus address 0 there. -/
def PhysicCond : Prop :=
  addr = 0 ∨ (pcie.regions ≠ [] ∧ ∀ first ∈ pcie.cpuRegion addr, first.shift = addr)

instance : Decidable (PhysicCond pcie addr) := inferInstanceAs (Decidable (_ ∨ _))

end

/-! ## The calls -/

variable {pcie : PciController σ} {dev : PciDevice} {addr : BitVec 32}

/-- What the region table gives for a bus address; an empty table gives the address itself. -/
def tableLogic (pcie : PciController σ) (addr : BitVec 32) : BitVec 32 :=
  if pcie.regions = [] then addr else ((pcie.busRegion addr).map (·.logic addr)).getD 0

/-- Where `LibPhysicToLogic` looks when no BAR holds the address. -/
theorem tableLogic_eq : (pciBusToPhys pcie addr 1 0 0).setWidth 32 = tableLogic pcie addr := by
  unfold tableLogic
  by_cases hnil : pcie.regions = []
  · have hlen : pcie.regions.length = 0 := List.length_eq_zero_iff.2 hnil
    rw [if_pos hnil]
    unfold pciBusToPhys
    rw [if_pos hlen]
    exact BitVec.setWidth_setWidth_of_le addr (by decide)
  · rw [if_neg hnil]
    exact PciController.logic_busRegion addr hnil

/-- The search through the BARs finds one of those that end below 4 GiB. -/
theorem busHit_of_inLowBar (h : InLowBar dev addr) :
    ∃ bar ∈ dev.slots, (dev.slots.find? fun bar => BusHit addr bar) = some bar ∧ bar.Holds addr := by
  cases hfind : dev.slots.find? fun bar => BusHit addr bar with
  | none =>
    obtain ⟨bar, hbar, hholds, hlow⟩ := h
    exact absurd (busHit_iff.2 ⟨hholds.1, hholds.2, hlow⟩) (find?_eq_none_iff.1 hfind bar hbar)
  | some bar =>
    obtain ⟨hbar, hhit⟩ := of_find?_eq_some hfind
    obtain ⟨hmapped, hdecodes, -⟩ := busHit_iff.1 hhit
    exact ⟨bar, hbar, rfl, hmapped, hdecodes⟩

/-- Outside the BARs below 4 GiB no BAR is hit. -/
theorem busHit_of_not_inLowBar (h : ¬ InLowBar dev addr) :
    (dev.slots.find? fun bar => BusHit addr bar) = none := by
  refine find?_eq_none_iff.2 fun bar hbar hhit => h ?_
  obtain ⟨hmapped, hdecodes, hlow⟩ := busHit_iff.1 hhit
  exact ⟨bar, hbar, ⟨hmapped, hdecodes⟩, hlow⟩

/-- The table moves an address by the distance of the first region that holds it. -/
theorem tableLogic_eq_iff {shift : BitVec 32} :
    tableLogic pcie addr = shift + addr ↔ BusShifted pcie addr shift := by
  unfold tableLogic BusShifted
  by_cases hnil : pcie.regions = []
  · rw [if_pos hnil, if_pos hnil]
    constructor
    · intro h
      exact BitVec.add_left_eq_self.1 h.symm
    · rintro rfl
      exact (BitVec.zero_add addr).symm
  · rw [if_neg hnil, if_neg hnil]
    cases pcie.busRegion addr with
    | none =>
      show 0#32 = shift + addr ↔ shift = -addr
      constructor
      · intro h
        calc shift = shift + addr - addr := (BitVec.add_sub_cancel shift addr).symm
          _ = 0#32 - addr := by rw [← h]
          _ = -addr := BitVec.zero_sub addr
      · rintro rfl
        exact (BitVec.add_left_neg addr).symm
    | some first =>
      show first.logic addr = shift + addr ↔ first.shift = shift
      rw [PciRegion.logic_eq]
      exact BitVec.add_left_inj ..

/-- It gives 0 where no region holds the address, or the first one shows it at 0. -/
theorem tableLogic_eq_zero_iff (hne : addr ≠ 0) : tableLogic pcie addr = 0 ↔
    pcie.regions ≠ [] ∧ ∀ first ∈ pcie.busRegion addr, first.shift = -addr := by
  have hshift := @tableLogic_eq_iff _ pcie addr (-addr)
  rw [BitVec.add_left_neg] at hshift
  refine Iff.trans hshift ?_
  unfold BusShifted
  by_cases hnil : pcie.regions = []
  · rw [if_pos hnil]
    refine iff_of_false (fun hneg => hne ?_) fun h => h.1 hnil
    rw [← BitVec.neg_neg (x := addr), hneg]
    rfl
  · rw [if_neg hnil, and_iff_right hnil]
    cases pcie.busRegion addr with
    | none => exact iff_of_true rfl fun first hfirst => nomatch hfirst
    | some first =>
      constructor
      · intro h first' hfirst'
        obtain rfl := Option.some.inj hfirst'
        exact h
      · intro h
        exact h first rfl

/-- Outside the BARs that end below 4 GiB it is the table that has to give what is due. -/
theorem knownLogic_tableLogic_iff (hne : addr ≠ 0) (hlow : ¬ InLowBar dev addr) :
    KnownLogic pcie dev addr (tableLogic pcie addr) ↔ LogicCond pcie dev addr := by
  unfold KnownLogic LogicCond
  rw [or_iff_right hlow]
  refine or_congr (exists_congr fun bar => and_congr_right fun _ => and_congr_right fun _ => ?_)
    (and_congr_right fun _ => or_congr
      (exists_congr fun res => and_congr_right fun _ => and_congr_right fun _ =>
        and_congr_right fun _ => ?_) (and_congr_right fun _ => ?_))
  · rw [PciBarInfo.address_eq]
    exact tableLogic_eq_iff
  · rw [PciRegion.logic_eq]
    exact tableLogic_eq_iff
  · exact tableLogic_eq_zero_iff hne

/-- **From the bus to the 68k.** -/
theorem knownLogic_iff (hne : addr ≠ 0) :
    KnownLogic pcie dev addr (libPhysicToLogic pcie dev addr) ↔ LogicCond pcie dev addr := by
  unfold libPhysicToLogic
  rw [if_neg hne]
  by_cases hlow : InLowBar dev addr
  · obtain ⟨bar, hbar, hfind, hholds⟩ := busHit_of_inLowBar hlow
    rw [hfind]
    exact iff_of_true (Or.inl ⟨bar, hbar, hholds, rfl⟩) (Or.inl hlow)
  · rw [busHit_of_not_inLowBar hlow]
    dsimp only
    rw [tableLogic_eq]
    exact knownLogic_tableLogic_iff hne hlow

/-- Bus address 0 is given `NULL`. -/
theorem knownLogic_zero_iff :
    KnownLogic pcie dev 0 (libPhysicToLogic pcie dev 0) ↔ LogicZeroCond pcie dev := by
  have hnull : libPhysicToLogic pcie dev 0 = 0 := if_pos rfl
  rw [hnull]
  constructor
  · rintro (⟨bar, hbar, hholds, haddr⟩ | ⟨hnone, hrest⟩)
    · -- a BAR at bus address 0 has a place in the 68k's address space, which is not 0
      have hstart : bar.busAddr = 0 := BitVec.eq_of_toNat_eq (Nat.le_zero.1 hholds.2.1)
      unfold PciBarInfo.address at haddr
      rw [hstart, BitVec.sub_self, BitVec.add_zero] at haddr
      exact absurd haddr.symm hholds.1.2
    · refine ⟨hnone, ?_⟩
      rcases hrest with ⟨res, hres, hsys, hin, hlogic⟩ | ⟨hram, -⟩
      · rw [PciRegion.logic_eq] at hlogic
        exact Or.inr ⟨res, hres, hsys, hin, (hlogic.trans (BitVec.add_zero _)).symm⟩
      · exact Or.inl hram
  · rintro ⟨hnone, hram | ⟨res, hres, hsys, hin, hshift⟩⟩
    · exact Or.inr ⟨hnone, Or.inr ⟨hram, rfl⟩⟩
    · refine Or.inr ⟨hnone, Or.inl ⟨res, hres, hsys, hin, ?_⟩⟩
      rw [PciRegion.logic_eq, hshift]
      rfl

/-- **From the 68k to the bus**, for an address that is not known. -/
theorem physic_eq_zero_iff (hunknown : UnknownPhysic pcie dev addr) :
    libLogicToPhysic pcie dev addr = 0 ↔ PhysicCond pcie addr := by
  unfold libLogicToPhysic PhysicCond
  by_cases hzero : addr = 0
  · rw [if_pos hzero]
    exact iff_of_true rfl (Or.inl hzero)
  · have hmiss : (dev.slots.find? fun bar => VirtHit addr bar) = none := by
      refine find?_eq_none_iff.2 fun bar hbar hhit => ?_
      obtain ⟨hmapped, hdecodes, -⟩ := virtHit_iff.1 hhit
      exact hunknown.1 bar hbar hmapped hdecodes
    rw [if_neg hzero, hmiss, or_iff_right hzero]
    dsimp only
    by_cases hnil : pcie.regions = []
    · have hlen : pcie.regions.length = 0 := List.length_eq_zero_iff.2 hnil
      have hsame : pciPhysToBus pcie (addr.setWidth 64) 1 0 0 = addr := by
        unfold pciPhysToBus
        rw [if_pos hlen]
        exact BitVec.setWidth_setWidth_of_le addr (by decide)
      rw [hsame]
      exact iff_of_false hzero fun h => h.1 hnil
    · rw [PciController.physic_cpuRegion addr hnil, and_iff_right hnil]
      cases pcie.cpuRegion addr with
      | none => exact iff_of_true rfl fun res hres => nomatch hres
      | some res =>
        have hphysic : res.physic addr = 0 ↔ res.shift = addr := by
          rw [PciRegion.physic_eq]
          bv_omega
        constructor
        · intro hzero' first hfirst
          obtain rfl := Option.some.inj hfirst
          exact hphysic.1 hzero'
        · intro hall
          exact hphysic.2 (hall res rfl)

/-- **Translation outside the known ranges.** When a bus address is given the 68k address that is due,
and when an unknown 68k address is given `NULL`. -/
theorem knownRanges_iff (pcie : PciController σ) (dev : PciDevice) :
    (∀ addr, addr ≠ 0 →
      (KnownLogic pcie dev addr (libPhysicToLogic pcie dev addr) ↔ LogicCond pcie dev addr)) ∧
    (KnownLogic pcie dev 0 (libPhysicToLogic pcie dev 0) ↔ LogicZeroCond pcie dev) ∧
    ∀ addr, UnknownPhysic pcie dev addr →
      (libLogicToPhysic pcie dev addr = 0 ↔ PhysicCond pcie addr) :=
  ⟨fun _ hne => knownLogic_iff hne, knownLogic_zero_iff, fun _ hunknown => physic_eq_zero_iff hunknown⟩

/-- An address in the BAR of the function, and one that the 68k does not know. -/
theorem knownRanges_sample :
    let dev := mappedDevice 0xc0000000 0x1000
    KnownLogic sampleController dev 0xc0000800 (libPhysicToLogic sampleController dev 0xc0000800) ∧
      libLogicToPhysic sampleController dev 0x10000000 = 0 := by
  intro dev
  have hspec := knownRanges_iff sampleController dev
  exact ⟨(hspec.1 0xc0000800 (by decide)).2 (by decide),
    (hspec.2.2 0x10000000 (by decide)).2 (by decide)⟩

/-- A bus address in the window of the controller but in no BAR of the function is given the low half
of its CPU address. -/
theorem knownRanges_fails : ¬ ∀ (pcie : PciController Unit) (dev : PciDevice) (addr : BitVec 32),
    KnownLogic pcie dev addr (libPhysicToLogic pcie dev addr) := by
  intro hall
  have hknown := hall sampleController (mappedDevice 0xc0000000 0x1000) 0xd0000000
  revert hknown
  decide

end BcmPcie
