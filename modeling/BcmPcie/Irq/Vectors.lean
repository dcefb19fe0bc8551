import BcmPcie.Irq.Msi

/-! # Interrupt vectors

`pci_irq.c`: the choice of an interrupt type, the servers of a device's vectors, teardown and the
runtime mask, on one device and its controller. A function that takes the device pointer takes the
controller behind it too, and returns both.

* `pciIrqVectorsAlloc_outcome` — all an allocation can do.
* `pciIrqVectorsAlloc_intx_iff` — exactly when it is INTx that is picked. -/

namespace BcmPcie

open BitSet

variable {σ : Type*}

/-! ## Allocation -/

/-- A count was granted (`n > 0`). -/
def granted : Except Errno ℕ → Bool
  | .ok n => decide (0 < n)
  | .error _ => false

/-- The device with the mode and count of an allocation recorded. -/
def PciDevice.setActive (dev : PciDevice) (mode : IrqMode) (nvec : ℕ) : PciDevice :=
  { dev with active := { dev.active with mode := mode, nvec := nvec } }

/-- Record a granted count as an allocation of type `mode`. -/
def recordAlloc (mode : IrqMode) :
    PciController σ × PciDevice × Except Errno ℕ → PciController σ × PciDevice × Except Errno ℕ
  | (pcie, dev, .ok n) => (pcie, dev.setActive mode n, .ok n)
  | (pcie, dev, .error e) => (pcie, dev, .error e)

/-- The types tried in order, MSI-X, MSI, INTx; the last failure is the one reported. -/
def allocByType (pcie : PciController σ) (dev : PciDevice) (min max : ℕ) (flags : BitVec 32) :
    PciController σ × PciDevice × Except Errno ℕ :=
  let t :=
    if flags &&& pciIrqMsix ≠ 0 then pciMsixAlloc pcie dev min max else (pcie, dev, .error .enodev)
  if granted t.2.2 then recordAlloc .msix t
  else
    let t := if flags &&& pciIrqMsi ≠ 0 then pciMsiAlloc t.1 t.2.1 min max else t
    if granted t.2.2 then recordAlloc .msi t
    else
      let t :=
        if flags &&& pciIrqIntx ≠ 0 then (t.1, t.2.1, pciIntxAlloc t.2.1 min) else t
      if granted t.2.2 then recordAlloc .intx t else t

/-- `pci_irq_vectors_alloc`: reserve vectors of the best allowed type. -/
def pciIrqVectorsAlloc (pcie : PciController σ) (dev : PciDevice) (min max : ℕ)
    (flags : BitVec 32) : PciController σ × PciDevice × Except Errno ℕ :=
  if dev.active.mode ≠ .idle then (pcie, dev, .error .ebusy)
  else
    let min := if min < 1 then 1 else min
    let max := if msiMaxVectors < max then msiMaxVectors else max
    if max < min then (pcie, dev, .error .erange)
    else allocByType pcie dev min max flags

/-! ## The vectors of a device -/

/-- `pci_irq_vec_server`: the server attached to a vector. -/
def pciIrqVecServer (pcie : PciController σ) (dev : PciDevice) (vec : ℕ) : Option Interrupt :=
  if dev.active.mode = .intx then dev.active.intxServer
  else brcmMsiSlotServer pcie (dev.active.slots vec)

/-- `pci_irq_vec_close`: close the device-level gate of a vector. -/
def pciIrqVecClose (dev : PciDevice) (vec : ℕ) : PciDevice :=
  if dev.active.mode = .msix then pciMsixEntryMask dev vec
  else pciMsiUpdateMask dev 0 (bit 32 vec)

/-- `pci_irq_vec_open`: open the device-level gate of a vector. -/
def pciIrqVecOpen (dev : PciDevice) (vec : ℕ) : PciDevice :=
  if dev.active.mode = .msix then pciMsixEntryUnmask dev vec
  else pciMsiUpdateMask dev (bit 32 vec) 0

/-- The device with another INTx server recorded. -/
def PciDevice.setIntxServer (dev : PciDevice) (isr : Option Interrupt) : PciDevice :=
  { dev with active := { dev.active with intxServer := isr } }

/-! ## The runtime mask -/

/-- `pci_irq_vec_mask`: hold a vector back. -/
def pciIrqVecMask (pcie : PciController σ) (dev : PciDevice) (vec : ℕ) :
    PciController σ × PciDevice × Bool :=
  if dev.active.nvec ≤ vec then (pcie, dev, false)
  else if dev.active.mode = .intx then (pcie, pciIntx dev false, true)
  else (brcmMsiSlotMask pcie (dev.active.slots vec), dev, true)

/-- `pci_irq_vec_unmask`: let a vector through. -/
def pciIrqVecUnmask (pcie : PciController σ) (dev : PciDevice) (vec : ℕ) :
    PciController σ × PciDevice × Bool :=
  if dev.active.nvec ≤ vec then (pcie, dev, false)
  else if dev.active.mode = .intx then (pcie, pciIntx dev true, true)
  else (brcmMsiSlotUnmask pcie (dev.active.slots vec), dev, true)

/-! ## Servers and teardown -/

/-- The shutdown of the active type in `pci_irq_vectors_free`. -/
def switchOff (dev : PciDevice) : PciDevice :=
  if dev.active.mode = .msix then pciMsixShutdown dev
  else if dev.active.mode = .msi then pciMsiShutdown dev
  else dev

section Gic400

variable [Gic400 σ]

/-- `pci_irq_add_server`: attach a server to a vector and let it fire. -/
def pciIrqAddServer (pcie : PciController σ) (dev : PciDevice) (vec : ℕ)
    (isr : Option Interrupt) : PciController σ × PciDevice × Except Errno Unit :=
  if dev.active.nvec ≤ vec then (pcie, dev, .error .einval)
  else if pciIrqVecServer pcie dev vec ≠ none then (pcie, dev, .error .ebusy)
  else if dev.active.mode = .intx then
    match brcmIntxAddServer pcie dev isr with
    | (pcie, .error e) => (pcie, dev, .error e)
    | (pcie, .ok ()) => (pcie, pciIntx (dev.setIntxServer isr) true, .ok ())
  else
    (brcmMsiSlotBind pcie (dev.active.slots vec) isr, pciIrqVecOpen dev vec, .ok ())

/-- `pci_irq_rem_server`: detach a server from a vector, if it is the vector's. -/
def pciIrqRemServer (pcie : PciController σ) (dev : PciDevice) (vec : ℕ)
    (isr : Option Interrupt) : PciController σ × PciDevice :=
  if dev.active.nvec ≤ vec ∨ pciIrqVecServer pcie dev vec ≠ isr then (pcie, dev)
  else if dev.active.mode = .intx then
    let dev := pciIntx dev false
    let pcie := brcmIntxRemServer pcie dev isr
    (pcie, dev.setIntxServer none)
  else
    let dev := pciIrqVecClose dev vec
    (brcmMsiSlotUnbind pcie (dev.active.slots vec), dev)

/-- One round of the loop of `pci_irq_vectors_free`. -/
def detachServer (st : PciController σ × PciDevice) (vec : ℕ) : PciController σ × PciDevice :=
  match pciIrqVecServer st.1 st.2 vec with
  | some server => pciIrqRemServer st.1 st.2 vec (some server)
  | none => st

/-- The loop of `pci_irq_vectors_free` over the first `n` vectors. -/
def detachServers (pcie : PciController σ) (dev : PciDevice) (n : ℕ) :
    PciController σ × PciDevice :=
  (List.range n).foldl detachServer (pcie, dev)

/-- `pci_irq_vectors_free`: detach what is still attached, switch the type off at the device, release
the slots. -/
def pciIrqVectorsFree (pcie : PciController σ) (dev : PciDevice) : PciController σ × PciDevice :=
  let (pcie, dev) := detachServers pcie dev dev.active.nvec
  let dev := switchOff dev
  let pcie :=
    if dev.active.mode ≠ .intx then pciIrqSlotsFree pcie dev.active.slots dev.active.nvec else pcie
  (pcie, dev.setActive .idle 0)

end Gic400

/-! ## What an allocation can do -/

section Outcome

variable (pcie : PciController σ) (dev : PciDevice)

@[simp] theorem setActive_cfg (mode : IrqMode) (n : ℕ) : (dev.setActive mode n).cfg = dev.cfg := rfl

@[simp] theorem setActive_tableMem (mode : IrqMode) (n : ℕ) :
    (dev.setActive mode n).tableMem = dev.tableMem := rfl

@[simp] theorem setActive_msi (mode : IrqMode) (n : ℕ) : (dev.setActive mode n).msi = dev.msi := rfl

@[simp] theorem setActive_msix (mode : IrqMode) (n : ℕ) :
    (dev.setActive mode n).msix = dev.msix := rfl

@[simp] theorem setActive_intx (mode : IrqMode) (n : ℕ) :
    (dev.setActive mode n).intx = dev.intx := rfl

@[simp] theorem setActive_active (mode : IrqMode) (n : ℕ) :
    (dev.setActive mode n).active = { dev.active with mode := mode, nvec := n } := rfl

/-- The outcomes of `pci_irq_vectors_alloc`: refused, or one of the three types. A refusal leaves the
controller and all of an idle device but its scratch slots as they were. -/
inductive AllocOutcome (min max : ℕ) (flags : BitVec 32) :
    PciController σ × PciDevice × Except Errno ℕ → Prop
  | refused (e : Errno) (slots : ℕ → ℕ) (hidle : dev.active.mode ≠ .idle → slots = dev.active.slots) :
      AllocOutcome min max flags (pcie, dev.setSlots slots, .error e)
  | msix (n : ℕ) (slots : ℕ → ℕ) (used : BitVec 32) (hidle : dev.active.mode = .idle)
      (hflags : flags &&& pciIrqMsix ≠ 0) (htable : dev.msix.tableVirt ≠ none)
      (hpos : 1 ≤ n) (hmin : min ≤ n) (hmax : n ≤ max) (h32 : n ≤ 32)
      (hsize : n ≤ dev.msix.tableSize) (hres : Reserves pcie.msi.used used slots n) :
      AllocOutcome min max flags (pcie.setUsed used,
        (pciMsixProgram (pcie.setUsed used) (dev.setSlots slots) n).setActive .msix n, .ok n)
  | msi (k base : ℕ) (slots : ℕ → ℕ) (used : BitVec 32) (hidle : dev.active.mode = .idle)
      (hflags : flags &&& pciIrqMsi ≠ 0) (hcap : dev.msi.capOffset ≠ 0)
      (hmin : min ≤ 2 ^ k) (hmax : 2 ^ k ≤ max) (hlog : k ≤ dev.msi.log2MaxVecs)
      (hdvd : 2 ^ k ∣ base) (hfits : base + 2 ^ k ≤ 32)
      (hres : Reserves pcie.msi.used used (blockSlots slots base (2 ^ k)) (2 ^ k)) :
      AllocOutcome min max flags (pcie.setUsed used,
        (pciMsiProgram (pcie.setUsed used) (dev.setSlots (blockSlots slots base (2 ^ k)))
          (2 ^ k)).setActive .msi (2 ^ k), .ok (2 ^ k))
  | intx (slots : ℕ → ℕ) (hidle : dev.active.mode = .idle) (hflags : flags &&& pciIrqIntx ≠ 0)
      (hirq : dev.intx.gicIrq ≠ 0) (hmin : min ≤ 1) (hmax : 1 ≤ max) :
      AllocOutcome min max flags (pcie, (dev.setSlots slots).setActive .intx 1, .ok 1)

variable {pcie dev} in
/-- An outcome for a narrower range is one for the range. -/
theorem AllocOutcome.mono {min min' max max' : ℕ} {flags : BitVec 32}
    {r : PciController σ × PciDevice × Except Errno ℕ}
    (h : AllocOutcome pcie dev min' max' flags r) (hmin : min ≤ min') (hmax : max' ≤ max) :
    AllocOutcome pcie dev min max flags r := by
  cases h with
  | refused e slots hb => exact .refused e slots hb
  | msix n slots used hi hf ht hp hle hge h32 hs hr =>
    exact .msix n slots used hi hf ht hp (by omega) (by omega) h32 hs hr
  | msi k base slots used hi hf hc hle hge hl hd hfits hr =>
    exact .msi k base slots used hi hf hc (by omega) (by omega) hl hd hfits hr
  | intx slots hi hf hirq hle hge => exact .intx slots hi hf hirq (by omega) (by omega)

/-- INTx is refused, or gives the one vector there is. -/
theorem pciIntxAlloc_cases (min : ℕ) :
    (∃ e, pciIntxAlloc dev min = .error e) ∨
      (pciIntxAlloc dev min = .ok 1 ∧ min ≤ 1 ∧ dev.intx.gicIrq ≠ 0) := by
  unfold pciIntxAlloc
  split
  · exact Or.inl ⟨_, rfl⟩
  · split
    · exact Or.inl ⟨_, rfl⟩
    · rename_i hmin hirq
      exact Or.inr ⟨rfl, Nat.not_lt.1 hmin, hirq⟩

/-- The last type tried: INTx, after a failure that left only scratch slots behind. -/
theorem allocIntx_outcome {min max : ℕ} (hidle : dev.active.mode = .idle) (h1 : 1 ≤ max)
    (flags : BitVec 32) (slots : ℕ → ℕ) (e : Errno) :
    AllocOutcome pcie dev min max flags
      (let t : PciController σ × PciDevice × Except Errno ℕ :=
          if flags &&& pciIrqIntx ≠ 0 then
            (pcie, dev.setSlots slots, pciIntxAlloc (dev.setSlots slots) min)
          else (pcie, dev.setSlots slots, .error e)
        if granted t.2.2 then recordAlloc .intx t else t) := by
  have hrefused : ∀ e, AllocOutcome pcie dev min max flags (pcie, dev.setSlots slots, .error e) :=
    fun e => .refused e slots fun h => absurd hidle h
  dsimp only
  by_cases hflags : flags &&& pciIrqIntx ≠ 0
  · rw [if_pos hflags]
    obtain ⟨e', he⟩ | ⟨hok, hmin, hirq⟩ := pciIntxAlloc_cases (dev.setSlots slots) min
    · rw [he]
      exact hrefused e'
    · rw [hok]
      exact .intx slots hidle hflags hirq hmin h1
  · rw [if_neg hflags]
    exact hrefused e

/-- The types tried in order, from a device without an allocation and a range that makes sense. -/
theorem allocByType_outcome {min max : ℕ} (hidle : dev.active.mode = .idle) (hmin : 1 ≤ min)
    (hmax : min ≤ max) (h32 : max ≤ 32) (flags : BitVec 32) :
    AllocOutcome pcie dev min max flags (allocByType pcie dev min max flags) := by
  -- what MSI and INTx do once MSI-X was not allowed or failed
  have hrest : ∀ (slots : ℕ → ℕ) (e : Errno), AllocOutcome pcie dev min max flags
      (let t : PciController σ × PciDevice × Except Errno ℕ :=
          if flags &&& pciIrqMsi ≠ 0 then pciMsiAlloc pcie (dev.setSlots slots) min max
          else (pcie, dev.setSlots slots, .error e)
        if granted t.2.2 then recordAlloc .msi t
        else
          let t :=
            if flags &&& pciIrqIntx ≠ 0 then (t.1, t.2.1, pciIntxAlloc t.2.1 min) else t
          if granted t.2.2 then recordAlloc .intx t else t) := by
    intro slots e
    dsimp only
    by_cases hflags : flags &&& pciIrqMsi ≠ 0
    · rw [if_pos hflags]
      obtain ⟨e', he⟩ | ⟨k, base, used, hgrant, hcap, hle, hge, hlog⟩ :=
        pciMsiAlloc_cases pcie (dev.setSlots slots) hmin hmax h32
      · rw [he]
        exact allocIntx_outcome pcie dev hidle (by omega) flags slots e'
      · have hpos : granted (.ok (2 ^ k)) = true := decide_eq_true (Nat.two_pow_pos k)
        rw [hgrant.result]
        dsimp only
        rw [if_pos hpos]
        exact .msi k base slots used hidle hflags hcap hle hge hlog hgrant.aligned hgrant.fits
          hgrant.reserves
    · rw [if_neg hflags]
      exact allocIntx_outcome pcie dev hidle (by omega) flags slots e
  unfold allocByType
  by_cases hflags : flags &&& pciIrqMsix ≠ 0
  · rw [if_pos hflags]
    obtain ⟨e, slots, he⟩ | ⟨n, slots, used, hok, htable, hle, hge, hsize, hres⟩ :=
      pciMsixAlloc_cases pcie dev min max
    · rw [he]
      exact hrest slots e
    · have hpos : granted (.ok n) = true := decide_eq_true (by omega)
      rw [hok]
      dsimp only
      rw [if_pos hpos]
      exact .msix n slots used hidle hflags htable (by omega) hle hge (by omega) hsize hres
  · rw [if_neg hflags]
    exact hrest dev.active.slots .enodev

/-- **What an allocation can do.** -/
theorem pciIrqVectorsAlloc_outcome (min max : ℕ) (flags : BitVec 32) :
    AllocOutcome pcie dev min max flags (pciIrqVectorsAlloc pcie dev min max flags) := by
  unfold pciIrqVectorsAlloc
  by_cases hidle : dev.active.mode = .idle
  · rw [if_neg (not_not.2 hidle)]
    dsimp only
    generalize hmin' : (if min < 1 then 1 else min) = min'
    generalize hmax' : (if msiMaxVectors < max then msiMaxVectors else max) = max'
    simp only [msiMaxVectors] at hmax'
    have h1 : 1 ≤ min' ∧ min ≤ min' := by split at hmin' <;> omega
    have h2 : max' ≤ 32 ∧ max' ≤ max := by split at hmax' <;> omega
    split
    · exact .refused _ dev.active.slots fun h => absurd hidle h
    · exact (allocByType_outcome pcie dev hidle h1.1 (by omega) h2.1 flags).mono h1.2 h2.2
  · rw [if_pos hidle]
    exact .refused .ebusy dev.active.slots fun _ => rfl

/-- When an allocation picks INTx: the range allows one vector, INTx is allowed and routed, and
neither MSI-X nor MSI is allowed where it could be had. -/
def PicksIntx (min max : ℕ) (flags : BitVec 32) : Prop :=
  dev.active.mode = .idle ∧ min ≤ 1 ∧ 1 ≤ max ∧ flags &&& pciIrqIntx ≠ 0 ∧ dev.intx.gicIrq ≠ 0 ∧
    (flags &&& pciIrqMsix ≠ 0 → dev.msix.tableVirt = none ∨ freeSlots pcie.msi.used = []) ∧
    (flags &&& pciIrqMsi ≠ 0 → dev.msi.capOffset = 0 ∨ freeSlots pcie.msi.used = [])

variable {pcie} in
/-- A device is left in INTx mode just when its last type tried grants a vector. -/
theorem allocIntx_mode_iff {flags : BitVec 32} {dev' : PciDevice} {e : Errno}
    (hidle : dev'.active.mode = .idle) :
    (let t : PciController σ × PciDevice × Except Errno ℕ :=
        if flags &&& pciIrqIntx ≠ 0 then (pcie, dev', pciIntxAlloc dev' 1)
        else (pcie, dev', .error e)
      if granted t.2.2 then recordAlloc .intx t else t).2.1.active.mode = .intx ↔
    flags &&& pciIrqIntx ≠ 0 ∧ dev'.intx.gicIrq ≠ 0 := by
  have hnot : ∀ e', ¬ (pcie, dev', (Except.error e' : Except Errno ℕ)).2.1.active.mode = .intx := by
    intro e' h
    exact absurd (hidle.symm.trans h) (by decide)
  dsimp only
  by_cases hflags : flags &&& pciIrqIntx ≠ 0
  · rw [if_pos hflags]
    by_cases hirq : dev'.intx.gicIrq = 0
    · have hr : pciIntxAlloc dev' 1 = .error .enodev := by
        rw [pciIntxAlloc, if_neg (by decide), if_pos hirq]
      rw [hr]
      exact iff_of_false (hnot _) fun h => h.2 hirq
    · have hr : pciIntxAlloc dev' 1 = .ok 1 := by
        rw [pciIntxAlloc, if_neg (by decide), if_neg hirq]
      rw [hr]
      exact iff_of_true rfl ⟨hflags, hirq⟩
  · rw [if_neg hflags]
    exact iff_of_false (hnot _) fun h => hflags h.1

variable {pcie} in
/-- A device for which MSI-X was not allowed or failed is left in INTx mode just when MSI is not
allowed or fails, and INTx is allowed and routed. -/
theorem allocMsi_mode_iff {max : ℕ} {flags : BitVec 32} {dev' : PciDevice} {e : Errno}
    (hidle : dev'.active.mode = .idle) (h1 : 1 ≤ max) (h32 : max ≤ 32) :
    (let t : PciController σ × PciDevice × Except Errno ℕ :=
        if flags &&& pciIrqMsi ≠ 0 then pciMsiAlloc pcie dev' 1 max else (pcie, dev', .error e)
      if granted t.2.2 then recordAlloc .msi t
      else
        let t :=
          if flags &&& pciIrqIntx ≠ 0 then (t.1, t.2.1, pciIntxAlloc t.2.1 1) else t
        if granted t.2.2 then recordAlloc .intx t else t).2.1.active.mode = .intx ↔
    (flags &&& pciIrqMsi ≠ 0 → dev'.msi.capOffset = 0 ∨ freeSlots pcie.msi.used = []) ∧
      flags &&& pciIrqIntx ≠ 0 ∧ dev'.intx.gicIrq ≠ 0 := by
  dsimp only
  by_cases hflags : flags &&& pciIrqMsi ≠ 0
  · rw [if_pos hflags]
    have hfails := pciMsiAlloc_one_iff pcie dev' max
    obtain ⟨e', he⟩ | ⟨k, base, used, hgrant, -⟩ := pciMsiAlloc_cases pcie dev' le_rfl h1 h32
    · have hcond := hfails.1 ⟨e', by rw [he]⟩
      rw [he]
      exact (allocIntx_mode_iff hidle).trans (and_iff_right fun _ => hcond).symm
    · have hpos : granted (.ok (2 ^ k)) = true := decide_eq_true (Nat.two_pow_pos k)
      have hcond : ¬ (dev'.msi.capOffset = 0 ∨ freeSlots pcie.msi.used = []) := by
        rw [← hfails, hgrant.result]
        simp
      rw [hgrant.result]
      dsimp only
      rw [if_pos hpos]
      exact iff_of_false (by simp [recordAlloc]) fun h => hcond (h.1 hflags)
  · rw [if_neg hflags]
    exact (allocIntx_mode_iff hidle).trans (and_iff_right fun h => absurd h hflags).symm

/-- **When INTx is picked.** A device without an allocation ends up in INTx mode just when the
allocation picks INTx. -/
theorem pciIrqVectorsAlloc_intx_iff (min max : ℕ) (flags : BitVec 32)
    (hidle : dev.active.mode = .idle)
    (hsize : dev.msix.tableVirt ≠ none → 1 ≤ dev.msix.tableSize) :
    (pciIrqVectorsAlloc pcie dev min max flags).2.1.active.mode = .intx ↔
      PicksIntx pcie dev min max flags := by
  by_cases hrange : min ≤ 1 ∧ 1 ≤ max
  · unfold pciIrqVectorsAlloc
    rw [if_neg (not_not.2 hidle)]
    dsimp only
    have hmin : (if min < 1 then 1 else min) = 1 := by split <;> omega
    rw [hmin]
    generalize hmax : (if msiMaxVectors < max then msiMaxVectors else max) = max'
    simp only [msiMaxVectors] at hmax
    have hmax' : 1 ≤ max' ∧ max' ≤ 32 := by split at hmax <;> omega
    rw [if_neg (by omega), allocByType, PicksIntx]
    dsimp only
    simp only [hidle, hrange.1, hrange.2, true_and]
    -- MSI-X is tried first, and what it refuses goes on to MSI
    by_cases hflags : flags &&& pciIrqMsix ≠ 0
    · rw [if_pos hflags]
      have hfails := pciMsixAlloc_one_iff pcie dev max' hmax'.1 hsize
      obtain ⟨e, slots, he⟩ | ⟨n, slots, used, hok, -, hle, -⟩ := pciMsixAlloc_cases pcie dev 1 max'
      · have hcond := hfails.1 ⟨e, by rw [he]⟩
        have hrest := @allocMsi_mode_iff _ pcie max' flags
          (dev.setSlots slots) e hidle hmax'.1 hmax'.2
        rw [he]
        refine hrest.trans ⟨fun h => ⟨h.2.1, h.2.2, fun _ => hcond, h.1⟩,
          fun h => ⟨h.2.2.2, h.1, h.2.1⟩⟩
      · have hpos : granted (.ok n) = true := decide_eq_true (by omega)
        have hcond : ¬ (dev.msix.tableVirt = none ∨ freeSlots pcie.msi.used = []) := by
          rw [← hfails, hok]
          simp
        rw [hok]
        dsimp only
        rw [if_pos hpos]
        exact iff_of_false (by simp [recordAlloc]) fun h => hcond (h.2.2.1 hflags)
    · rw [if_neg hflags]
      refine (allocMsi_mode_iff hidle hmax'.1 hmax'.2).trans
        ⟨fun h => ⟨h.2.1, h.2.2, fun hf => absurd hf hflags, h.1⟩, fun h => ⟨h.2.2.2, h.1, h.2.1⟩⟩
  · -- a range without 1 is never answered by INTx
    have hout := pciIrqVectorsAlloc_outcome pcie dev min max flags
    generalize pciIrqVectorsAlloc pcie dev min max flags = r at hout ⊢
    refine iff_of_false (fun hmode => ?_) fun h => hrange ⟨h.2.1, h.2.2.1⟩
    cases hout with
    | refused e slots => exact absurd (hidle.symm.trans hmode) (by decide)
    | msix => exact absurd hmode (by simp)
    | msi => exact absurd hmode (by simp)
    | intx slots _ _ _ hmin hmax => exact hrange ⟨hmin, hmax⟩

end Outcome

end BcmPcie
