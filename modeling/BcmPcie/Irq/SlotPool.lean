import BcmPcie.Irq.Controller

/-! # The demux-slot pool

The slot pool of `pci_irq.c`: the bitmap `msi.used`, from which MSI-X takes any free slots and MSI
an aligned block. Each operation has one lemma that says all it does to the pool.

* `pciIrqSlotsAllocAny_eq` — the first free slots, in increasing order, as many as there are.
* `pciIrqSlotsAllocAligned_some`, `pciIrqSlotsAllocAligned_none` — a free aligned block, or none.
* `Reserves` — what both come to: distinct free slots, reserved. -/

namespace BcmPcie

open BitSet

variable {σ : Type*}

/-- The controller with another slot bitmap. -/
def PciController.setUsed (pcie : PciController σ) (used : BitVec 32) : PciController σ :=
  { pcie with msi := { pcie.msi with used := used } }

section SetUsed

variable (pcie : PciController σ) (used : BitVec 32)

@[simp] theorem setUsed_used : (pcie.setUsed used).msi.used = used := rfl

@[simp] theorem setUsed_servers : (pcie.setUsed used).msi.servers = pcie.msi.servers := rfl

@[simp] theorem setUsed_targetAddr :
    (pcie.setUsed used).msi.targetAddr = pcie.msi.targetAddr := rfl

@[simp] theorem setUsed_intr2 : (pcie.setUsed used).intr2 = pcie.intr2 := rfl

@[simp] theorem setUsed_gic400 : (pcie.setUsed used).gic400 = pcie.gic400 := rfl

@[simp] theorem setUsed_setUsed (used' : BitVec 32) :
    (pcie.setUsed used).setUsed used' = pcie.setUsed used' := rfl

@[simp] theorem setUsed_self : pcie.setUsed pcie.msi.used = pcie := rfl

end SetUsed

/-! ## Any free slots -/

/-- The variables of the loop of `pci_irq_slots_alloc_any`. -/
structure SlotScan where
  used : BitVec 32
  out : ℕ → ℕ
  k : ℕ

/-- The loop of `pci_irq_slots_alloc_any` over the slots still to visit. -/
def slotsAllocAnyLoop (n : ℕ) : List ℕ → SlotScan → SlotScan
  | [], st => st
  | i :: is, st =>
    if st.k < n then
      slotsAllocAnyLoop n is
        (if st.used &&& bit 32 i = 0#32 then
          { used := st.used ||| bit 32 i, out := Function.update st.out st.k i, k := st.k + 1 }
        else st)
    else st

/-- `pci_irq_slots_alloc_any`: reserve up to `n` free slots into `out`; the last component is the
number reserved. -/
def pciIrqSlotsAllocAny (pcie : PciController σ) (n : ℕ) (out : ℕ → ℕ) :
    PciController σ × (ℕ → ℕ) × ℕ :=
  let st := slotsAllocAnyLoop n (List.range msiMaxVectors) ⟨pcie.msi.used, out, 0⟩
  (pcie.setUsed st.used, st.out, st.k)

/-- The free slots of a pool, in increasing order. -/
def freeSlots (used : BitVec 32) : List ℕ :=
  (List.range msiMaxVectors).filter fun i => !used.getLsbD i

/-- Write a list of slots into an array from index `k` on. -/
def writeSlots (out : ℕ → ℕ) : (k : ℕ) → List ℕ → ℕ → ℕ
  | _, [] => out
  | k, i :: is => writeSlots (Function.update out k i) (k + 1) is

/-- The entries before the first are left. -/
theorem writeSlots_of_lt (out : ℕ → ℕ) {k v : ℕ} (l : List ℕ) (h : v < k) :
    writeSlots out k l v = out v := by
  induction l generalizing out k with
  | nil => rfl
  | cons i is ih =>
    rw [writeSlots, ih _ (by omega), Function.update_of_ne (by omega)]

/-- The slots written are found back in order. -/
theorem map_writeSlots (out : ℕ → ℕ) (k : ℕ) (l : List ℕ) :
    (List.range' k l.length).map (writeSlots out k l) = l := by
  induction l generalizing out k with
  | nil => rfl
  | cons i is ih =>
    rw [List.length_cons, List.range'_succ, List.map_cons, writeSlots,
      writeSlots_of_lt _ _ (Nat.lt_succ_self k), Function.update_self, ih]

@[simp] theorem mem_freeSlots {used : BitVec 32} {i : ℕ} :
    i ∈ freeSlots used ↔ i < 32 ∧ used.getLsbD i = false := by
  rw [freeSlots, List.mem_filter, List.mem_range, Bool.not_eq_true']

/-- No free slot is listed twice. -/
theorem freeSlots_nodup (used : BitVec 32) : (freeSlots used).Nodup :=
  List.nodup_range.filter _

/-- A single bit of a word is clear. -/
theorem and_bit_eq_zero_iff (x : BitVec 32) {i : ℕ} (hi : i < 32) :
    x &&& bit 32 i = 0#32 ↔ x.getLsbD i = false := by
  rw [and_eq_zero_iff]
  constructor
  · intro h
    exact h i (by rw [getLsbD_bit]; simp only [hi, decide_true, Bool.and_self])
  · intro h j hj
    rw [getLsbD_bit, Bool.and_eq_true, decide_eq_true_eq, decide_eq_true_eq] at hj
    exact hj.2 ▸ h

/-- The loop reserves the free slots among those left to visit, until it has `n`. -/
theorem slotsAllocAnyLoop_eq (n : ℕ) (l : List ℕ) (hl : l.Nodup) (hlt : ∀ i ∈ l, i < 32)
    (st : SlotScan) :
    let got := (l.filter fun i => !st.used.getLsbD i).take (n - st.k)
    slotsAllocAnyLoop n l st
      = ⟨setAll st.used got, writeSlots st.out st.k got, st.k + got.length⟩ := by
  induction l generalizing st with
  | nil => simp [slotsAllocAnyLoop, writeSlots]
  | cons i is ih =>
    obtain ⟨hnotin, hnodup⟩ := List.nodup_cons.1 hl
    have hi : i < 32 := hlt i List.mem_cons_self
    have hrest : ∀ j ∈ is, j < 32 := fun j hj => hlt j (List.mem_cons_of_mem _ hj)
    rw [slotsAllocAnyLoop]
    by_cases hk : st.k < n
    · rw [if_pos hk]
      by_cases hfree : st.used.getLsbD i = false
      · -- `i` is taken; it is not met again, so the slots left are free or not as before
        rw [if_pos ((and_bit_eq_zero_iff _ hi).2 hfree), ih hnodup hrest]
        have hsame : (is.filter fun j => !(st.used ||| bit 32 i).getLsbD j)
            = is.filter fun j => !st.used.getLsbD j := by
          refine List.filter_congr fun j hj => ?_
          have hij : i ≠ j := fun h => hnotin (h ▸ hj)
          rw [BitVec.getLsbD_or, getLsbD_bit]
          simp only [hij, decide_false, Bool.and_false, Bool.or_false]
        have htake : n - st.k = (n - (st.k + 1)) + 1 := by omega
        simp only [hsame, List.filter_cons, hfree, Bool.not_false, if_true, htake,
          List.take_succ_cons, setAll_cons, writeSlots, List.length_cons]
        congr 1
        omega
      · rw [if_neg (fun h => hfree ((and_bit_eq_zero_iff _ hi).1 h)), ih hnodup hrest]
        have hset : st.used.getLsbD i = true := by simpa using hfree
        simp only [List.filter_cons, hset, Bool.not_true, Bool.false_eq_true, if_false]
    · rw [if_neg hk]
      simp only [show n - st.k = 0 by omega, List.take_zero, setAll_nil, writeSlots,
        List.length_nil, Nat.add_zero]

/-- **Any free slots.** The first `n` free slots are reserved, or all of them when there are fewer,
and listed in `out`. -/
theorem pciIrqSlotsAllocAny_eq (pcie : PciController σ) (n : ℕ) (out : ℕ → ℕ) :
    let got := (freeSlots pcie.msi.used).take n
    pciIrqSlotsAllocAny pcie n out
      = (pcie.setUsed (setAll pcie.msi.used got), writeSlots out 0 got, got.length) := by
  simp only [pciIrqSlotsAllocAny]
  rw [slotsAllocAnyLoop_eq n _ List.nodup_range (fun i hi => List.mem_range.1 hi)]
  simp only [Nat.sub_zero, Nat.zero_add, freeSlots]

/-! ## An aligned block -/

/-- `pci_irq_slots_alloc_aligned`: reserve an aligned block of `n` slots; the result is its base,
or nothing (`-1`) when no such block is free. The bases tried are the multiples of `n` whose block
fits. -/
def pciIrqSlotsAllocAligned (pcie : PciController σ) (n : ℕ) : PciController σ × Option ℕ :=
  let bases := (List.range (msiMaxVectors / n)).map (· * n)
  match bases.find? fun base => pcie.msi.used &&& block 32 base n == 0#32 with
  | some base => (pcie.setUsed (pcie.msi.used ||| block 32 base n), some base)
  | none => (pcie, none)

/-- A base that is tried is a multiple of `n`, and its block fits the pool. -/
theorem base_fits {n base : ℕ} (h : base ∈ (List.range (msiMaxVectors / n)).map (· * n)) :
    n ∣ base ∧ base + n ≤ 32 := by
  obtain ⟨b, hb, rfl⟩ := List.mem_map.1 h
  rw [List.mem_range] at hb
  refine ⟨Nat.dvd_mul_left n b, ?_⟩
  calc b * n + n = (b + 1) * n := (Nat.succ_mul b n).symm
    _ ≤ (32 / n) * n := Nat.mul_le_mul_right n hb
    _ ≤ 32 := Nat.div_mul_le_self 32 n

/-- **An aligned block, found.** It is aligned, lies in the pool and was free. -/
theorem pciIrqSlotsAllocAligned_some {pcie : PciController σ} {n base : ℕ}
    (h : (pciIrqSlotsAllocAligned pcie n).2 = some base) :
    n ∣ base ∧ base + n ≤ 32 ∧ (∀ j, base ≤ j → j < base + n → pcie.msi.used.getLsbD j = false) ∧
      (pciIrqSlotsAllocAligned pcie n).1
        = pcie.setUsed (pcie.msi.used ||| block 32 base n) := by
  unfold pciIrqSlotsAllocAligned at h ⊢
  dsimp only at h ⊢
  split at h
  · rename_i found hfound
    simp only [Option.some.injEq] at h
    subst h
    obtain ⟨hdvd, hfits⟩ := base_fits (List.mem_of_find?_eq_some hfound)
    have hfree := List.find?_some hfound
    rw [beq_iff_eq, and_eq_zero_iff] at hfree
    refine ⟨hdvd, hfits, fun j hle hlt => hfree j ?_, rfl⟩
    rw [getLsbD_block hfits]
    simp only [hle, hlt, decide_true, Bool.and_self]
  · exact absurd h (by simp)

/-- **No aligned block.** The pool is untouched, and a slot of every aligned block is reserved. -/
theorem pciIrqSlotsAllocAligned_none {pcie : PciController σ} {n : ℕ}
    (h : (pciIrqSlotsAllocAligned pcie n).2 = none) :
    (pciIrqSlotsAllocAligned pcie n).1 = pcie ∧
      ∀ b < 32 / n, ∃ j, b * n ≤ j ∧ j < b * n + n ∧ pcie.msi.used.getLsbD j = true := by
  unfold pciIrqSlotsAllocAligned at h ⊢
  dsimp only at h ⊢
  split at h
  · exact absurd h (by simp)
  · rename_i hnone
    refine ⟨rfl, fun b hb => ?_⟩
    have hmem : b * n ∈ (List.range (msiMaxVectors / n)).map (· * n) :=
      List.mem_map.2 ⟨b, List.mem_range.2 hb, rfl⟩
    have hfits := (base_fits hmem).2
    have hbusy := List.find?_eq_none.1 hnone _ hmem
    rw [beq_iff_eq, and_eq_zero_iff] at hbusy
    by_contra hfree
    refine hbusy fun j hj => ?_
    rw [getLsbD_block hfits, Bool.and_eq_true, decide_eq_true_eq, decide_eq_true_eq] at hj
    by_contra hset
    exact hfree ⟨j, hj.1, hj.2, by simpa using hset⟩

/-! ## What a reservation is -/

/-- The first `n` entries of `slots` are distinct slots, free in the pool `used`, and `used'` is that
pool with them reserved. -/
structure Reserves (used used' : BitVec 32) (slots : ℕ → ℕ) (n : ℕ) : Prop where
  injective : ∀ v < n, ∀ w < n, slots v = slots w → v = w
  lt : ∀ v < n, slots v < 32
  free : ∀ v < n, used.getLsbD (slots v) = false
  reserved : ∀ j < 32, used'.getLsbD j = true ↔ used.getLsbD j = true ∨ ∃ v < n, slots v = j

/-- Slots listed without repeats, all free, make a reservation. -/
theorem Reserves.of_list {used : BitVec 32} {slots : ℕ → ℕ} {got : List ℕ}
    (hslots : (List.range got.length).map slots = got) (hnodup : got.Nodup)
    (hfree : ∀ i ∈ got, i < 32 ∧ used.getLsbD i = false) :
    Reserves used (setAll used got) slots got.length := by
  have hmem : ∀ v < got.length, slots v ∈ got := by
    intro v hv
    rw [← hslots]
    exact List.mem_map_of_mem (List.mem_range.2 hv)
  refine ⟨fun v hv w hw h => ?_, fun v hv => (hfree _ (hmem v hv)).1,
    fun v hv => (hfree _ (hmem v hv)).2, fun j hj => ?_⟩
  · rw [← hslots] at hnodup
    exact List.inj_on_of_nodup_map hnodup (List.mem_range.2 hv) (List.mem_range.2 hw) h
  · have hmap : j ∈ got ↔ ∃ v < got.length, slots v = j := by
      conv_lhs => rw [← hslots]
      simp only [List.mem_map, List.mem_range]
    rw [getLsbD_setAll _ _ hj, Bool.or_eq_true, decide_eq_true_eq, hmap]

/-- What `pci_irq_slots_alloc_any` lists in `out` is a reservation. -/
theorem pciIrqSlotsAllocAny_reserves (pcie : PciController σ) (n : ℕ) (out : ℕ → ℕ) :
    let (pcie', slots, k) := pciIrqSlotsAllocAny pcie n out
    Reserves pcie.msi.used pcie'.msi.used slots k ∧ k ≤ n := by
  rw [pciIrqSlotsAllocAny_eq]
  refine ⟨Reserves.of_list ?_ ?_ ?_, by simp⟩
  · rw [List.range_eq_range', map_writeSlots]
  · exact (freeSlots_nodup _).sublist (List.take_sublist _ _)
  · exact fun i hi => mem_freeSlots.1 (List.mem_of_mem_take hi)

/-- An aligned block, listed in order, is a reservation. -/
theorem pciIrqSlotsAllocAligned_reserves {pcie : PciController σ} {n base : ℕ} {slots : ℕ → ℕ}
    (h : (pciIrqSlotsAllocAligned pcie n).2 = some base) (hslots : ∀ v < n, slots v = base + v) :
    Reserves pcie.msi.used (pciIrqSlotsAllocAligned pcie n).1.msi.used slots n := by
  obtain ⟨-, hfits, hfree, hused⟩ := pciIrqSlotsAllocAligned_some h
  refine ⟨fun v hv w hw hvw => ?_, fun v hv => ?_, fun v hv => ?_, fun j hj => ?_⟩
  · rw [hslots v hv, hslots w hw] at hvw
    omega
  · rw [hslots v hv]
    omega
  · rw [hslots v hv]
    exact hfree _ (by omega) (by omega)
  · rw [hused, setUsed_used, BitVec.getLsbD_or, Bool.or_eq_true, getLsbD_block hfits,
      Bool.and_eq_true, decide_eq_true_eq, decide_eq_true_eq]
    refine or_congr_right ⟨fun hin => ⟨j - base, by omega, ?_⟩, ?_⟩
    · rw [hslots _ (by omega)]
      omega
    · rintro ⟨v, hv, rfl⟩
      rw [hslots v hv]
      omega

/-! ## Release -/

/-- `pci_irq_slots_free`: release the first `n` slots of the array. -/
def pciIrqSlotsFree (pcie : PciController σ) (slots : ℕ → ℕ) (n : ℕ) : PciController σ :=
  pcie.setUsed (clearAll pcie.msi.used ((List.range n).map slots))

/-- Slots that were free, reserved and released again, leave the controller as it was. -/
theorem pciIrqSlotsFree_allocAny (pcie : PciController σ) (n : ℕ) (out : ℕ → ℕ) :
    let (pcie', slots, k) := pciIrqSlotsAllocAny pcie n out
    pciIrqSlotsFree pcie' slots k = pcie := by
  rw [pciIrqSlotsAllocAny_eq]
  dsimp only
  rw [pciIrqSlotsFree, List.range_eq_range', map_writeSlots, setUsed_used, clearAll_setAll]
  · rfl
  · exact fun i hi => (mem_freeSlots.1 (List.mem_of_mem_take hi)).2

end BcmPcie
