import BcmPcie.Irq.LibraryCalls
import Mathlib.Data.Nat.Find

/-! # The choice of an interrupt type

`AllocIntVectors` on a device without an allocation: what each type could give is a number that can
be read off the device and the pool beforehand, and the call gives exactly what the best type has.

* `supply` — the most vectors a type can give.
* `bestType` — the first allowed type, in the order of `pci_irq_vectors_alloc`, that has enough.
* `libAllocIntVectors_best` — the call picks that type and gives all of its supply. -/

namespace BcmPcie

variable {ι σ : Type*}

/-! ## What each type can give -/

/-- The block of `n` slots from `base` on is aligned to its size, lies in the pool and is free. -/
def FreeBlock (used : BitVec 32) (n base : ℕ) : Prop :=
  n ∣ base ∧ base + n ≤ 32 ∧ ∀ j < base + n, base ≤ j → used.getLsbD j = false

instance (used : BitVec 32) (n base : ℕ) : Decidable (FreeBlock used n base) :=
  inferInstanceAs (Decidable (_ ∧ _ ∧ _))

/-- `n` vectors could be MSI vectors of the device: a power of two up to `hi` and up to the device's
Multiple Message Capable count, with a free aligned block. -/
def MsiCount (pcie : PciController σ) (dev : PciDevice) (hi n : ℕ) : Prop :=
  dev.msi.capOffset ≠ 0 ∧ n ≤ hi ∧ (∃ k ≤ dev.msi.log2MaxVecs, n = 2 ^ k) ∧
    ∃ base ≤ 32, FreeBlock pcie.msi.used n base

instance (pcie : PciController σ) (dev : PciDevice) (hi : ℕ) :
    DecidablePred (MsiCount pcie dev hi) := fun _ =>
  inferInstanceAs (Decidable (_ ∧ _ ∧ _ ∧ _))

/-- The most vectors, up to `hi`, that a type can give a device; 0 where it can give none. -/
def supply (pcie : PciController σ) (dev : PciDevice) (hi : ℕ) : IrqMode → ℕ
  | .idle => 0
  | .msix =>
    if dev.msix.tableVirt = none then 0
    else min (min hi dev.msix.tableSize) (freeSlots pcie.msi.used).length
  | .msi => Nat.findGreatest (MsiCount pcie dev hi) hi
  | .intx => if dev.intx.gicIrq = 0 then 0 else 1

/-- The bit of `flags` that allows a type. -/
def IrqMode.flag : IrqMode → BitVec 32
  | .idle => 0
  | .msix => pciIrqMsix
  | .msi => pciIrqMsi
  | .intx => pciIrqIntx

/-- The first type in the order MSI-X, MSI, INTx that is allowed and has `lo` vectors to give. -/
def bestType (pcie : PciController σ) (dev : PciDevice) (lo hi : ℕ) (flags : BitVec 32) :
    Option IrqMode :=
  [IrqMode.msix, .msi, .intx].find? fun mode =>
    decide (flags &&& mode.flag ≠ 0 ∧ lo ≤ supply pcie dev hi mode)

/-- All that an attempt with a type comes to: it grants its whole supply, or that is too small and
nothing but the scratch slots has changed. -/
inductive Attempt (pcie : PciController σ) (dev : PciDevice) (lo n : ℕ)
    (r : PciController σ × PciDevice × Except Errno ℕ) : Prop
  | grants (hlo : lo ≤ n) (hok : r.2.2 = .ok n)
  | fails (e : Errno) (slots : ℕ → ℕ) (hlt : n < lo) (heq : r = (pcie, dev.setSlots slots, .error e))

section Types

variable (pcie : PciController σ) (dev : PciDevice) {lo hi : ℕ}

/-- **MSI-X** grants as many slots as are free, up to `hi` and the size of the table. -/
theorem pciMsixAlloc_attempt (hlo : 1 ≤ lo) :
    Attempt pcie dev lo (supply pcie dev hi .msix) (pciMsixAlloc pcie dev lo hi) := by
  have hfree := fun n => pciIrqSlotsFree_allocAny pcie n dev.active.slots
  unfold pciMsixAlloc supply
  by_cases htable : dev.msix.tableVirt = none
  · rw [if_pos htable, if_pos htable]
    exact .fails .enodev dev.active.slots hlo rfl
  · rw [if_neg htable, if_neg htable]
    have hn : (if dev.msix.tableSize < hi then dev.msix.tableSize else hi)
        = min hi dev.msix.tableSize := by
      simp only [Nat.min_def]
      split <;> split <;> omega
    have hlen : ((freeSlots pcie.msi.used).take (min hi dev.msix.tableSize)).length
        = min (min hi dev.msix.tableSize) (freeSlots pcie.msi.used).length :=
      List.length_take
    have hundo := hfree (min hi dev.msix.tableSize)
    dsimp only
    rw [hn]
    rw [pciIrqSlotsAllocAny_eq] at hundo ⊢
    dsimp only at hundo ⊢
    by_cases hshort : ((freeSlots pcie.msi.used).take (min hi dev.msix.tableSize)).length < lo
    · rw [if_pos hshort, hundo]
      exact .fails .enospc _ (hlen ▸ hshort) rfl
    · rw [if_neg hshort]
      exact .grants (hlen ▸ Nat.not_lt.1 hshort) (congrArg Except.ok hlen)

/-- The allocator of aligned blocks fails only where there is none. -/
theorem not_freeBlock_of_none {n : ℕ} (hn : 0 < n)
    (h : (pciIrqSlotsAllocAligned pcie n).2 = none) (base : ℕ) :
    ¬ FreeBlock pcie.msi.used n base := by
  rintro ⟨⟨b, rfl⟩, hfits, hfree⟩
  have hb : b < 32 / n := by
    rw [Nat.lt_iff_add_one_le, Nat.le_div_iff_mul_le hn, Nat.succ_mul, Nat.mul_comm b]
    exact hfits
  obtain ⟨j, hge, hlt, hset⟩ := (pciIrqSlotsAllocAligned_none h).2 b hb
  rw [Nat.mul_comm b] at hge hlt
  rw [hfree j hlt hge] at hset
  exact absurd hset (by decide)

/-- The loop of `pci_msi_alloc` from `2 ^ k` slots down finds the largest free aligned block, if that
is not below `lo`. -/
theorem msiBlockLoop_largest (k : ℕ) :
    (msiBlockLoop lo (k + 1) (2 ^ k) pcie dev = (pcie, dev, .error .enospc) ∧
      ∀ j ≤ k, lo ≤ 2 ^ j → ∀ base, ¬ FreeBlock pcie.msi.used (2 ^ j) base) ∨
    ∃ j ≤ k, lo ≤ 2 ^ j ∧ (msiBlockLoop lo (k + 1) (2 ^ k) pcie dev).2.2 = .ok (2 ^ j) ∧
      (∃ base, FreeBlock pcie.msi.used (2 ^ j) base) ∧
      ∀ i, j < i → i ≤ k → ∀ base, ¬ FreeBlock pcie.msi.used (2 ^ i) base := by
  -- a block that was taken was free
  have hgrant : ∀ {n base : ℕ} {used : BitVec 32}
      {r : PciController σ × PciDevice × Except Errno ℕ}, MsiGrant pcie dev n base used r →
      r.2.2 = .ok n ∧ ∃ base, FreeBlock pcie.msi.used n base := by
    intro n base used r h
    refine ⟨by rw [h.result], base, h.aligned, h.fits, fun j hlt hge => ?_⟩
    have hslot := h.reserves.free (j - base) (by omega)
    rw [blockSlots, if_pos (by omega), Nat.add_sub_cancel' hge] at hslot
    exact hslot
  induction k with
  | zero =>
    obtain ⟨hlt, h⟩ | ⟨hle, base, used, h⟩ | ⟨hnone, h⟩ := msiBlockLoop_step lo 0 (2 ^ 0) pcie dev
    · refine Or.inl ⟨h, fun j hj hge => ?_⟩
      obtain rfl : j = 0 := by omega
      exact absurd hlt (by omega)
    · obtain ⟨hok, hblock⟩ := hgrant h
      exact Or.inr ⟨0, le_rfl, hle, hok, hblock, fun i hlt hle => by omega⟩
    · refine Or.inl ⟨h, fun j hj _ => ?_⟩
      obtain rfl : j = 0 := by omega
      exact not_freeBlock_of_none pcie (by decide) hnone
  | succ k ih =>
    obtain ⟨hlt, h⟩ | ⟨hle, base, used, h⟩ | ⟨hnone, h⟩ :=
      msiBlockLoop_step lo (k + 1) (2 ^ (k + 1)) pcie dev
    · refine Or.inl ⟨h, fun j hj hge => ?_⟩
      have hpow : 2 ^ j ≤ 2 ^ (k + 1) := Nat.pow_le_pow_right (by decide) hj
      exact absurd hlt (by omega)
    · obtain ⟨hok, hblock⟩ := hgrant h
      exact Or.inr ⟨k + 1, le_rfl, hle, hok, hblock, fun i hlt hle => by omega⟩
    · have hhalf : 2 ^ (k + 1) / 2 = 2 ^ k := by omega
      have htop := not_freeBlock_of_none pcie (Nat.two_pow_pos (k + 1)) hnone
      rw [h, hhalf]
      obtain ⟨hfail, hno⟩ | ⟨j, hj, hge, hok, hblock, hno⟩ := ih
      · refine Or.inl ⟨hfail, fun j hj hge => ?_⟩
        obtain rfl | hlt := Nat.eq_or_lt_of_le hj
        · exact htop
        · exact hno j (by omega) hge
      · refine Or.inr ⟨j, by omega, hge, hok, hblock, fun i hlt hle => ?_⟩
        obtain rfl | hik := Nat.eq_or_lt_of_le hle
        · exact htop
        · exact hno i hlt (by omega)

/-- The size the loop of `pci_msi_alloc` starts from is the largest power of two that the range and
the device allow. -/
theorem le_log2_msiLimit_iff (hhi : 1 ≤ hi) (h32 : hi ≤ 32) (k : ℕ) :
    k ≤ Nat.log2 (if dev.msi.log2MaxVecs < 5 ∧ 1 <<< dev.msi.log2MaxVecs < hi
        then 1 <<< dev.msi.log2MaxVecs else hi) ↔
      k ≤ dev.msi.log2MaxVecs ∧ 2 ^ k ≤ hi := by
  rw [Nat.one_shiftLeft]
  have hpos := Nat.two_pow_pos dev.msi.log2MaxVecs
  split
  · rename_i hcount
    rw [Nat.log2_two_pow]
    refine ⟨fun hk => ⟨hk, ?_⟩, fun h => h.1⟩
    have hpow : 2 ^ k ≤ 2 ^ dev.msi.log2MaxVecs := Nat.pow_le_pow_right (by decide) hk
    omega
  · rename_i hcount
    rw [Nat.le_log2 (by omega)]
    refine ⟨fun hk => ⟨?_, hk⟩, fun h => h.2⟩
    by_cases h5 : dev.msi.log2MaxVecs < 5
    · have hle : 2 ^ k ≤ 2 ^ dev.msi.log2MaxVecs := by omega
      exact (Nat.pow_le_pow_iff_right (by decide)).1 hle
    · have hle : 2 ^ k ≤ 2 ^ 5 := by omega
      exact ((Nat.pow_le_pow_iff_right (by decide)).1 hle).trans (Nat.not_lt.1 h5)

/-- **MSI** grants the largest free aligned block of a power of two that the range and the device
allow. -/
theorem pciMsiAlloc_attempt (hlo : 1 ≤ lo) (hhi : lo ≤ hi) (h32 : hi ≤ 32) :
    Attempt pcie dev lo (supply pcie dev hi .msi) (pciMsiAlloc pcie dev lo hi) := by
  have hlimit := le_log2_msiLimit_iff dev (hlo.trans hhi) h32
  unfold pciMsiAlloc supply
  by_cases hcap : dev.msi.capOffset = 0
  · have hnone : Nat.findGreatest (MsiCount pcie dev hi) hi = 0 :=
      Nat.findGreatest_eq_zero_iff.2 fun _ _ _ h => h.1 hcap
    rw [if_pos hcap, hnone]
    exact .fails .enodev dev.active.slots hlo rfl
  · rw [if_neg hcap]
    dsimp only
    generalize (if dev.msi.log2MaxVecs < 5 ∧ 1 <<< dev.msi.log2MaxVecs < hi
      then 1 <<< dev.msi.log2MaxVecs else hi) = n at hlimit ⊢
    have hcount : ∀ m, MsiCount pcie dev hi m ↔
        ∃ k ≤ Nat.log2 n, m = 2 ^ k ∧ ∃ base, FreeBlock pcie.msi.used (2 ^ k) base := by
      intro m
      constructor
      · rintro ⟨-, hle, ⟨k, hk, rfl⟩, base, -, hblock⟩
        exact ⟨k, (hlimit k).2 ⟨hk, hle⟩, rfl, base, hblock⟩
      · rintro ⟨k, hk, rfl, base, hblock⟩
        obtain ⟨hlog, hle⟩ := (hlimit k).1 hk
        have hfits := hblock.2.1
        exact ⟨hcap, hle, ⟨k, hlog, rfl⟩, base, (Nat.le_add_right _ _).trans hfits, hblock⟩
    rw [rounddownPow2]
    obtain ⟨hfail, hno⟩ | ⟨j, hj, hge, hok, hblock, hno⟩ :=
      msiBlockLoop_largest pcie dev (Nat.log2 n)
    · refine .fails .enospc dev.active.slots ?_ hfail
      -- a count that is large enough would have been found
      by_contra hge
      have hfound : MsiCount pcie dev hi (Nat.findGreatest (MsiCount pcie dev hi) hi) :=
        Nat.findGreatest_of_ne_zero rfl (by omega)
      obtain ⟨k, hk, hm, base, hblock⟩ := (hcount _).1 hfound
      exact hno k hk (by omega) base hblock
    · have hgreatest : Nat.findGreatest (MsiCount pcie dev hi) hi = 2 ^ j := by
        refine Nat.findGreatest_eq_iff.2 ⟨((hlimit j).1 hj).2, fun _ => ?_, fun m hlt _ hm => ?_⟩
        · exact (hcount _).2 ⟨j, hj, rfl, hblock⟩
        · obtain ⟨k, hk, rfl, base, hbig⟩ := (hcount m).1 hm
          exact hno k ((Nat.pow_lt_pow_iff_right (by decide)).1 hlt) hk base hbig
      rw [hgreatest]
      exact .grants hge hok

/-- **INTx** grants one vector where the pin is routed. -/
theorem pciIntxAlloc_attempt (hlo : 1 ≤ lo) :
    Attempt pcie dev lo (supply pcie dev hi .intx) (pcie, dev, pciIntxAlloc dev lo) := by
  unfold pciIntxAlloc supply
  by_cases hirq : dev.intx.gicIrq = 0
  · rw [if_pos hirq, if_pos hirq]
    refine .fails (if 1 < lo then .erange else .enodev) dev.active.slots hlo ?_
    split <;> rfl
  · rw [if_neg hirq, if_neg hirq]
    by_cases hlt : 1 < lo
    · rw [if_pos hlt]
      exact .fails .erange dev.active.slots hlt rfl
    · rw [if_neg hlt]
      exact .grants (Nat.not_lt.1 hlt) rfl

/-- What a type can give does not depend on the scratch slots. -/
@[simp] theorem supply_setSlots (slots : ℕ → ℕ) (mode : IrqMode) :
    supply pcie (dev.setSlots slots) hi mode = supply pcie dev hi mode := by
  cases mode <;> rfl

end Types

/-! ## The choice -/

section Choice

variable (pcie : PciController σ) (dev : PciDevice) {lo hi : ℕ} {flags : BitVec 32}

/-- A result that grants and records all the supply of the first of `types` that is allowed and has
enough, or fails where there is none. -/
def GrantsFirst (lo hi : ℕ) (flags : BitVec 32) (types : List IrqMode)
    (r : PciController σ × PciDevice × Except Errno ℕ) : Prop :=
  match types.find? fun mode =>
    decide (flags &&& mode.flag ≠ 0 ∧ lo ≤ supply pcie dev hi mode) with
  | some mode => r.2.2 = .ok (supply pcie dev hi mode) ∧ r.2.1.active.mode = mode ∧
      r.2.1.active.nvec = supply pcie dev hi mode
  | none => ∃ e, r.2.2 = .error e

variable {pcie dev} in
/-- What a type grants after others have failed is what it grants at first. -/
theorem Attempt.of_setSlots {n : ℕ} {slots : ℕ → ℕ}
    {r : PciController σ × PciDevice × Except Errno ℕ}
    (h : Attempt pcie (dev.setSlots slots) lo n r) : Attempt pcie dev lo n r := by
  cases h with
  | grants hlo hok => exact .grants hlo hok
  | fails e slots' hlt heq => exact .fails e slots' hlt (by rw [heq, setSlots_setSlots])

variable {pcie dev} in
/-- One more type in front: it is granted, or skipped for the rest. -/
theorem GrantsFirst.cons {mode : IrqMode} {types : List IrqMode}
    {t : PciController σ × PciDevice × Except Errno ℕ}
    (rest : PciController σ × PciDevice × Except Errno ℕ →
      PciController σ × PciDevice × Except Errno ℕ)
    (hlo : 1 ≤ lo)
    (htry : flags &&& mode.flag ≠ 0 → Attempt pcie dev lo (supply pcie dev hi mode) t)
    (hskip : flags &&& mode.flag = 0 → ∃ e slots, t = (pcie, dev.setSlots slots, .error e))
    (hrest : ∀ e slots,
      GrantsFirst pcie dev lo hi flags types (rest (pcie, dev.setSlots slots, .error e))) :
    GrantsFirst pcie dev lo hi flags (mode :: types)
      (if granted t.2.2 then recordAlloc mode t else rest t) := by
  -- a type that is not allowed or falls short leaves the choice to the rest
  have hnext : ∀ {e : Errno} {slots : ℕ → ℕ}, t = (pcie, dev.setSlots slots, .error e) →
      ¬ (flags &&& mode.flag ≠ 0 ∧ lo ≤ supply pcie dev hi mode) →
      GrantsFirst pcie dev lo hi flags (mode :: types)
        (if granted t.2.2 then recordAlloc mode t else rest t) := by
    intro e slots ht hnot
    rw [GrantsFirst, List.find?_cons_of_neg (by simpa using hnot), ht]
    exact hrest e slots
  by_cases hflags : flags &&& mode.flag = 0
  · obtain ⟨e, slots, ht⟩ := hskip hflags
    exact hnext ht fun h => h.1 hflags
  · cases htry hflags with
    | fails e slots hlt ht => exact hnext ht fun h => absurd h.2 (Nat.not_le.2 hlt)
    | grants hle hok =>
      have hpos : granted t.2.2 = true := by
        rw [hok]
        exact decide_eq_true (by omega)
      obtain ⟨pcie', dev', r⟩ := t
      dsimp only at hok hpos
      subst hok
      rw [GrantsFirst, List.find?_cons_of_pos (by simpa using ⟨hflags, hle⟩), if_pos hpos]
      exact ⟨rfl, rfl, rfl⟩

/-- **The types tried in order** grant all of the best type's supply, or fail where there is none. -/
theorem allocByType_grantsFirst (hlo : 1 ≤ lo) (hhi : lo ≤ hi) (h32 : hi ≤ 32) :
    GrantsFirst pcie dev lo hi flags [.msix, .msi, .intx] (allocByType pcie dev lo hi flags) := by
  have hnone : ∀ e slots,
      GrantsFirst pcie dev lo hi flags [] (pcie, dev.setSlots slots, .error e) :=
    fun e slots => ⟨e, rfl⟩
  -- MSI-X, then MSI, then INTx: a type that is not allowed counts as refused
  refine GrantsFirst.cons (fun t =>
      let t := if flags &&& pciIrqMsi ≠ 0 then pciMsiAlloc t.1 t.2.1 lo hi else t
      if granted t.2.2 then recordAlloc .msi t
      else
        let t := if flags &&& pciIrqIntx ≠ 0 then (t.1, t.2.1, pciIntxAlloc t.2.1 lo) else t
        if granted t.2.2 then recordAlloc .intx t else t)
    hlo (fun (h : flags &&& pciIrqMsix ≠ 0) => ?_)
    (fun (h : flags &&& pciIrqMsix = 0) => ?_) fun e slots => ?_
  · rw [if_pos h]
    exact pciMsixAlloc_attempt pcie dev hlo
  · rw [if_neg (not_not.2 h)]
    exact ⟨.enodev, dev.active.slots, rfl⟩
  refine GrantsFirst.cons (fun t =>
      let t := if flags &&& pciIrqIntx ≠ 0 then (t.1, t.2.1, pciIntxAlloc t.2.1 lo) else t
      if granted t.2.2 then recordAlloc .intx t else t)
    hlo (fun (h : flags &&& pciIrqMsi ≠ 0) => ?_)
    (fun (h : flags &&& pciIrqMsi = 0) => ?_) fun e slots => ?_
  · rw [if_pos h, ← supply_setSlots pcie dev slots]
    exact (pciMsiAlloc_attempt pcie (dev.setSlots slots) hlo hhi h32).of_setSlots
  · rw [if_neg (not_not.2 h)]
    exact ⟨e, slots, rfl⟩
  refine GrantsFirst.cons (fun t => t)
    hlo (fun (h : flags &&& pciIrqIntx ≠ 0) => ?_)
    (fun (h : flags &&& pciIrqIntx = 0) => ?_) hnone
  · rw [if_pos h, ← supply_setSlots pcie dev slots]
    exact (pciIntxAlloc_attempt pcie (dev.setSlots slots) hlo).of_setSlots
  · rw [if_neg (not_not.2 h)]
    exact ⟨e, slots, rfl⟩

end Choice

/-! ## The library call -/

variable [DecidableEq ι] [Gic400 σ]

omit [Gic400 σ] in
/-- **The best type and the most vectors.** On a device without an allocation, in any state of the
pool: with the range clamped to `lo` and `hi`, `AllocIntVectors` fails on an empty range; otherwise it
picks the best type, returns all of that type's supply and records both, and fails only where no
allowed type has `lo` vectors. -/
theorem libAllocIntVectors_best (s : IrqState ι σ) (i : ι) (minVecs maxVecs : ℕ) (flags : BitVec 32)
    (hidle : (s.devs i).active.mode = .idle) :
    let lo := max minVecs 1
    let hi := min maxVecs 32
    let r := libAllocIntVectors s (some i) minVecs maxVecs flags
    (hi < lo → r.2 < 0) ∧
    (lo ≤ hi → match bestType s.pcie (s.devs i) lo hi flags with
      | some mode => r.2 = supply s.pcie (s.devs i) hi mode ∧ (r.1.devs i).active.mode = mode ∧
          (r.1.devs i).active.nvec = supply s.pcie (s.devs i) hi mode
      | none => r.2 < 0) := by
  intro lo hi r
  have hlo : (if minVecs < 1 then 1 else minVecs) = lo := by
    simp only [lo]
    split <;> omega
  have hhi : (if msiMaxVectors < maxVecs then msiMaxVectors else maxVecs) = hi := by
    simp only [hi, msiMaxVectors]
    split <;> omega
  -- behind the clamping the call is the choice among the types
  have halloc : pciIrqVectorsAlloc s.pcie (s.devs i) minVecs maxVecs flags =
      if hi < lo then (s.pcie, s.devs i, .error .erange)
      else allocByType s.pcie (s.devs i) lo hi flags := by
    rw [pciIrqVectorsAlloc, if_neg (not_not.2 hidle)]
    dsimp only
    rw [hlo, hhi]
  have hr : r = libAllocIntVectors s (some i) minVecs maxVecs flags := rfl
  simp only [libAllocIntVectors, halloc] at hr
  refine ⟨fun hempty => ?_, fun hrange => ?_⟩
  · rw [hr, if_pos hempty]
    exact pcieErr_neg .erange
  · rw [if_neg (Nat.not_lt.2 hrange)] at hr
    have hbest := @allocByType_grantsFirst _ s.pcie (s.devs i) lo hi flags
      (Nat.le_max_right _ _) hrange (Nat.min_le_right _ _)
    rw [GrantsFirst] at hbest
    rw [bestType]
    generalize List.find? _ [IrqMode.msix, .msi, .intx] = best at hbest ⊢
    cases best with
    | some mode =>
      obtain ⟨hok, hmode, hnvec⟩ := hbest
      rw [hr]
      refine ⟨by rw [hok], by rw [put_devs_self, hmode], by rw [put_devs_self, hnvec]⟩
    | none =>
      obtain ⟨e, he⟩ := hbest
      rw [hr, he]
      exact pcieErr_neg e

/-- The sample machine with the first five slots given to one function. -/
def sampleFragmented : IrqState Bool GicTable :=
  vectorStep sampleState (.allocIntVectors (some false) 1 5 pciIrqMsix)

/-- With five slots taken, the other function gets half the pool as its MSI block. -/
theorem libAllocIntVectors_best_sample :
    (sampleFragmented.devs true).active.mode = .idle ∧
      bestType sampleFragmented.pcie (sampleFragmented.devs true) 2 32 (pciIrqMsi ||| pciIrqIntx)
        = some .msi ∧
      (libAllocIntVectors sampleFragmented (some true) 2 40 (pciIrqMsi ||| pciIrqIntx)).2 = 16 := by
  have hidle : (sampleFragmented.devs true).active.mode = .idle := by decide +kernel
  have hbest : bestType sampleFragmented.pcie (sampleFragmented.devs true) 2 32
      (pciIrqMsi ||| pciIrqIntx) = some .msi := by decide +kernel
  have hsupply : supply sampleFragmented.pcie (sampleFragmented.devs true) 32 .msi = 16 := by
    decide +kernel
  have hcall := (libAllocIntVectors_best sampleFragmented true 2 40 (pciIrqMsi ||| pciIrqIntx)
    hidle).2 (by decide)
  have hlo : max 2 1 = 2 := rfl
  have hhi : min 40 32 = 32 := rfl
  rw [hlo, hhi, hbest] at hcall
  exact ⟨hidle, hbest, hcall.1.trans (congrArg Nat.cast hsupply)⟩

end BcmPcie
