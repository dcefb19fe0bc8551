import BcmPcie.Irq.Frame
import BcmPcie.Irq.SlotOwnership

/-! # The library calls

`pcie_irq.c` of the library: argument checks and error codes over the core. The six typed calls
(`VectorCall`) and the obsolete ones on the same core (`LibCall`) are each a step of the state
machine; the calls that change it hold the library's semaphore, so they do not interleave.

* `vectorStep_eq` — a typed call is a core call, or nothing for a `NULL` argument.
* `libStep_invariant` — an invariant of the library calls is one of the core calls with a server, of
  the MSI hint and of the INTx bit. -/

namespace BcmPcie

open Runs

variable {ι σ : Type*}

/-! ## Error codes -/

@[simp] abbrev pcieOk : ℤ := 0
@[simp] abbrev pcieErrInval : ℤ := -1
@[simp] abbrev pcieErrBusy : ℤ := -2
@[simp] abbrev pcieErrNodev : ℤ := -3
@[simp] abbrev pcieErrNomem : ℤ := -5
@[simp] abbrev pcieErrIo : ℤ := -6

/-- `pcie_err`: the public code of a core failure. -/
def pcieErr : Errno → ℤ
  | .einval | .erange => pcieErrInval
  | .ebusy => pcieErrBusy
  | .enospc => pcieErrNomem
  | .eio => pcieErrIo
  | .enodev | .enoent | .enomem | .etimedout => pcieErrNodev

/-- Every error is returned as a negative number. -/
theorem pcieErr_neg (e : Errno) : pcieErr e < 0 := by cases e <;> decide

section Calls

variable [DecidableEq ι] [Gic400 σ]

/-! ## The typed calls -/

/-- `AllocIntVectors`: a vector count, or a negative code. -/
def libAllocIntVectors (s : IrqState ι σ) (dev : Option ι) (min max : ℕ) (flags : BitVec 32) :
    IrqState ι σ × ℤ :=
  match dev with
  | none => (s, pcieErrInval)
  | some i =>
    let (pcie, dev, n) := pciIrqVectorsAlloc s.pcie (s.devs i) min max flags
    (s.put i pcie dev,
      match n with
      | .ok n => n
      | .error e => pcieErr e)

/-- `FreeIntVectors`. -/
def libFreeIntVectors (s : IrqState ι σ) (dev : Option ι) : IrqState ι σ :=
  match dev with
  | none => s
  | some i =>
    let (pcie, dev) := pciIrqVectorsFree s.pcie (s.devs i)
    s.put i pcie dev

/-- `AddIntVectorServer`. -/
def libAddIntVectorServer (s : IrqState ι σ) (dev : Option ι) (vec : ℕ) (isr : Option Interrupt) :
    IrqState ι σ × ℤ :=
  match dev, isr with
  | some i, some server =>
    let (pcie, dev, r) := pciIrqAddServer s.pcie (s.devs i) vec (some server)
    (s.put i pcie dev,
      match r with
      | .ok () => pcieOk
      | .error e => pcieErr e)
  | _, _ => (s, pcieErrInval)

/-- `RemIntVectorServer`. -/
def libRemIntVectorServer (s : IrqState ι σ) (dev : Option ι) (vec : ℕ) (isr : Option Interrupt) :
    IrqState ι σ :=
  match dev, isr with
  | some i, some server =>
    let (pcie, dev) := pciIrqRemServer s.pcie (s.devs i) vec (some server)
    s.put i pcie dev
  | _, _ => s

/-- `MaskIntVector`. -/
def libMaskIntVector (s : IrqState ι σ) (dev : Option ι) (vec : ℕ) : IrqState ι σ × Bool :=
  match dev with
  | none => (s, false)
  | some i =>
    let (pcie, dev, ok) := pciIrqVecMask s.pcie (s.devs i) vec
    (s.put i pcie dev, ok)

/-- `UnmaskIntVector`. -/
def libUnmaskIntVector (s : IrqState ι σ) (dev : Option ι) (vec : ℕ) : IrqState ι σ × Bool :=
  match dev with
  | none => (s, false)
  | some i =>
    let (pcie, dev, ok) := pciIrqVecUnmask s.pcie (s.devs i) vec
    (s.put i pcie dev, ok)

/-- The typed calls, with the arguments a caller may pass; `none` is `NULL`. -/
inductive VectorCall (ι : Type*)
  | allocIntVectors (dev : Option ι) (min max : ℕ) (flags : BitVec 32)
  | freeIntVectors (dev : Option ι)
  | addIntVectorServer (dev : Option ι) (vec : ℕ) (isr : Option Interrupt)
  | remIntVectorServer (dev : Option ι) (vec : ℕ) (isr : Option Interrupt)
  | maskIntVector (dev : Option ι) (vec : ℕ)
  | unmaskIntVector (dev : Option ι) (vec : ℕ)

/-- One typed call. -/
def vectorStep (s : IrqState ι σ) : VectorCall ι → IrqState ι σ
  | .allocIntVectors dev min max flags => (libAllocIntVectors s dev min max flags).1
  | .freeIntVectors dev => libFreeIntVectors s dev
  | .addIntVectorServer dev vec isr => (libAddIntVectorServer s dev vec isr).1
  | .remIntVectorServer dev vec isr => libRemIntVectorServer s dev vec isr
  | .maskIntVector dev vec => (libMaskIntVector s dev vec).1
  | .unmaskIntVector dev vec => (libUnmaskIntVector s dev vec).1

/-- The core call that a typed call makes, if its pointers are not `NULL`. -/
def VectorCall.core : VectorCall ι → Option (IrqCall ι)
  | .allocIntVectors dev min max flags => dev.map (.vectorsAlloc · min max flags)
  | .freeIntVectors dev => dev.map .vectorsFree
  | .addIntVectorServer (some i) vec (some server) => some (.addServer i vec (some server))
  | .remIntVectorServer (some i) vec (some server) => some (.remServer i vec (some server))
  | .addIntVectorServer _ _ _ => none
  | .remIntVectorServer _ _ _ => none
  | .maskIntVector dev vec => dev.map (.vecMask · vec)
  | .unmaskIntVector dev vec => dev.map (.vecUnmask · vec)

/-- A typed call is its core call. -/
theorem vectorStep_eq (s : IrqState ι σ) (c : VectorCall ι) :
    vectorStep s c = (c.core.map (irqStep s)).getD s := by
  cases c with
  | allocIntVectors dev => cases dev <;> rfl
  | freeIntVectors dev => cases dev <;> rfl
  | addIntVectorServer dev vec isr => cases dev <;> cases isr <;> rfl
  | remIntVectorServer dev vec isr => cases dev <;> cases isr <;> rfl
  | maskIntVector dev => cases dev <;> rfl
  | unmaskIntVector dev => cases dev <;> rfl

/-! ## The obsolete calls -/

/-- The state with the MSI hint of a device set or cleared. -/
def IrqState.setPreferMsi (s : IrqState ι σ) (i : ι) (prefer : Bool) : IrqState ι σ :=
  s.put i s.pcie { s.devs i with intx := { (s.devs i).intx with preferMsi := prefer } }

/-- The state with INTx of a device let through or not. -/
def IrqState.setIntx (s : IrqState ι σ) (i : ι) (enable : Bool) : IrqState ι σ :=
  s.put i s.pcie (pciIntx (s.devs i) enable)

/-- `pci_add_intserver`: one MSI vector where the hint asks for it, else INTx, with its server; on
failure nothing stays allocated. -/
def libAddIntServer (s : IrqState ι σ) (isr : Option Interrupt) (dev : Option ι) :
    IrqState ι σ × Bool :=
  match isr, dev with
  | some server, some i =>
    let flags := if (s.devs i).intx.preferMsi then pciIrqMsi ||| pciIrqIntx else pciIrqIntx
    let (pcie, dev, n) := pciIrqVectorsAlloc s.pcie (s.devs i) 1 1 flags
    let s := s.put i pcie dev
    match n with
    | .ok 1 =>
      let (pcie, dev, r) := pciIrqAddServer s.pcie (s.devs i) 0 (some server)
      let s := s.put i pcie dev
      match r with
      | .ok () => (s, true)
      | .error _ => (libFreeIntVectors s (some i), false)
    | _ => (s, false)
  | _, _ => (s, false)

/-- `pci_rem_intserver`. -/
def libRemIntServer (s : IrqState ι σ) (isr : Option Interrupt) (dev : Option ι) : IrqState ι σ :=
  match isr, dev with
  | some server, some i =>
    libFreeIntVectors (libRemIntVectorServer s (some i) 0 (some server)) (some i)
  | _, _ => s

/-- `EnableMSI`. -/
def libEnableMSI (s : IrqState ι σ) (dev : Option ι) : IrqState ι σ × ℤ :=
  match dev with
  | none => (s, pcieErrInval)
  | some i =>
    if (s.devs i).msi.capOffset = 0 then (s, pcieErrNodev) else (s.setPreferMsi i true, pcieOk)

/-- `DisableMSI`. -/
def libDisableMSI (s : IrqState ι σ) (dev : Option ι) : IrqState ι σ :=
  match dev with
  | none => s
  | some i => s.setPreferMsi i false

/-- `CheckSetINTxMask`. -/
def libCheckSetINTxMask (s : IrqState ι σ) (dev : Option ι) (mask : Bool) : IrqState ι σ × Bool :=
  match dev with
  | none => (s, false)
  | some i => (s.setIntx i (!mask), true)

/-- All calls of the library that touch the interrupt layer. -/
inductive LibCall (ι : Type*)
  | vector (c : VectorCall ι)
  | addIntServer (isr : Option Interrupt) (dev : Option ι)
  | remIntServer (isr : Option Interrupt) (dev : Option ι)
  | enableMSI (dev : Option ι)
  | disableMSI (dev : Option ι)
  | maskMSI (dev : Option ι)
  | unmaskMSI (dev : Option ι)
  | checkSetINTxMask (dev : Option ι) (mask : Bool)

/-- One library call; `MaskMSI` and `UnmaskMSI` are the runtime mask of vector 0. -/
def libStep (s : IrqState ι σ) : LibCall ι → IrqState ι σ
  | .vector c => vectorStep s c
  | .addIntServer isr dev => (libAddIntServer s isr dev).1
  | .remIntServer isr dev => libRemIntServer s isr dev
  | .enableMSI dev => (libEnableMSI s dev).1
  | .disableMSI dev => libDisableMSI s dev
  | .maskMSI dev => (libMaskIntVector s dev 0).1
  | .unmaskMSI dev => (libUnmaskIntVector s dev 0).1
  | .checkSetINTxMask dev mask => (libCheckSetINTxMask s dev mask).1

/-! ## Invariants -/

omit [DecidableEq ι] [Gic400 σ] in
/-- A core call is made with a server where it takes one. -/
def IrqCall.HasServer : IrqCall ι → Prop
  | .addServer _ _ isr => isr ≠ none
  | .remServer _ _ isr => isr ≠ none
  | _ => True

omit [DecidableEq ι] [Gic400 σ] in
/-- The library passes no `NULL` server on. -/
theorem VectorCall.hasServer {c : VectorCall ι} {c' : IrqCall ι} (h : c.core = some c') :
    c'.HasServer := by
  cases c with
  | allocIntVectors dev =>
    obtain ⟨i, -, rfl⟩ := Option.map_eq_some_iff.1 h
    exact trivial
  | freeIntVectors dev =>
    obtain ⟨i, -, rfl⟩ := Option.map_eq_some_iff.1 h
    exact trivial
  | addIntVectorServer dev vec isr =>
    cases dev <;> cases isr <;> simp only [core, reduceCtorEq, Option.some.injEq] at h
    subst h
    exact Option.some_ne_none _
  | remIntVectorServer dev vec isr =>
    cases dev <;> cases isr <;> simp only [core, reduceCtorEq, Option.some.injEq] at h
    subst h
    exact Option.some_ne_none _
  | maskIntVector dev =>
    obtain ⟨i, -, rfl⟩ := Option.map_eq_some_iff.1 h
    exact trivial
  | unmaskIntVector dev =>
    obtain ⟨i, -, rfl⟩ := Option.map_eq_some_iff.1 h
    exact trivial

variable {P : IrqState ι σ → Prop}

/-- What the core calls with a server keep, the typed calls keep. -/
theorem vectorStep_invariant (hcore : ∀ s (c : IrqCall ι), c.HasServer → P s → P (irqStep s c))
    (s : IrqState ι σ) (c : VectorCall ι) (h : P s) : P (vectorStep s c) := by
  rw [vectorStep_eq]
  cases hc : c.core with
  | none => exact h
  | some c' => exact hcore s c' (VectorCall.hasServer hc) h

/-- **Invariants of the library.** What the core calls with a server, the MSI hint and the INTx bit
keep, every library call keeps. -/
theorem libStep_invariant (hcore : ∀ s (c : IrqCall ι), c.HasServer → P s → P (irqStep s c))
    (hprefer : ∀ s i b, P s → P (s.setPreferMsi i b)) (hintx : ∀ s i b, P s → P (s.setIntx i b))
    (s : IrqState ι σ) (c : LibCall ι) (h : P s) : P (libStep s c) := by
  have hvector := fun s c => vectorStep_invariant hcore s (c : VectorCall ι)
  -- a null argument is refused at entry; the rest are core calls, the MSI hint and the INTx bit
  cases c with
  | vector c => exact hvector s c h
  | addIntServer isr dev =>
    obtain _ | server := isr
    · exact h
    · obtain _ | i := dev
      · exact h
      -- the obsolete call is an allocation, an attachment, and a free if that fails
      · simp only [libStep, libAddIntServer]
        have halloc := hcore s (.vectorsAlloc i 1 1
          (if (s.devs i).intx.preferMsi then pciIrqMsi ||| pciIrqIntx else pciIrqIntx)) trivial h
        simp only [irqStep, IrqCall.target, IrqCall.apply] at halloc
        generalize s.put i _ _ = s₁ at halloc ⊢
        split
        · have hadd := hcore s₁ (.addServer i 0 (some server)) (Option.some_ne_none _) halloc
          simp only [irqStep, IrqCall.target, IrqCall.apply] at hadd
          split
          · exact hadd
          · exact hvector _ (.freeIntVectors (some i)) hadd
        · exact halloc
  | remIntServer isr dev =>
    obtain _ | server := isr
    · exact h
    · obtain _ | i := dev
      · exact h
      · exact hvector _ (.freeIntVectors (some i))
          (hvector s (.remIntVectorServer (some i) 0 (some server)) h)
  | enableMSI dev =>
    obtain _ | i := dev
    · exact h
    · simp only [libStep, libEnableMSI]
      split
      · exact h
      · exact hprefer s i true h
  | disableMSI dev =>
    obtain _ | i := dev
    · exact h
    · exact hprefer s i false h
  | maskMSI dev => exact hvector s (.maskIntVector dev 0) h
  | unmaskMSI dev => exact hvector s (.unmaskIntVector dev 0) h
  | checkSetINTxMask dev mask =>
    obtain _ | i := dev
    · exact h
    · exact hintx s i (!mask) h

/-! ## The ledger under library calls -/

omit [Gic400 σ] in
/-- A change that keeps the demux state and the allocation of a device keeps the ledger. -/
theorem slotsOwned_put_same {s : IrqState ι σ} (h : s.SlotsOwned) (i : ι) {dev : PciDevice}
    (hactive : dev.active = (s.devs i).active) : (s.put i s.pcie dev).SlotsOwned := by
  unfold IrqState.SlotsOwned
  rw [allocs_put, hactive]
  exact h.keep i (h.shape i) (fun _ _ => Iff.rfl) rfl fun j hne => Or.inl hne

/-- A library call keeps the slots owned. -/
theorem slotsOwned_libStep (s : IrqState ι σ) (c : LibCall ι) (h : s.SlotsOwned) :
    (libStep s c).SlotsOwned :=
  libStep_invariant (P := IrqState.SlotsOwned) (fun _ c _ hs => slotsOwned_irqStep hs c)
    (fun _ i _ hs => slotsOwned_put_same hs i rfl)
    (fun _ i b hs => slotsOwned_put_same hs i (pciIntx_active _ b)) s c h

/-- A call on a vector keeps the slots owned. -/
theorem slotsOwned_vectorStep (s : IrqState ι σ) (c : VectorCall ι) (h : s.SlotsOwned) :
    (vectorStep s c).SlotsOwned :=
  slotsOwned_libStep s (.vector c) h

/-! ## What no library call changes -/

/-- A state whose devices are the same functions as in another. -/
def SameFunctions (s s' : IrqState ι σ) : Prop := ∀ j, SameFunction (s.devs j) (s'.devs j)

omit [Gic400 σ] in
/-- Putting back a record of the same function keeps the functions. -/
theorem sameFunctions_put {s s' : IrqState ι σ} (h : SameFunctions s s') (i : ι)
    (pcie : PciController σ) {dev : PciDevice} (hdev : SameFunction (s'.devs i) dev) :
    SameFunctions s (s'.put i pcie dev) := by
  intro j
  by_cases hj : j = i
  · subst hj
    rw [put_devs_self]
    exact (h j).trans hdev
  · rw [put_devs_of_ne _ _ _ _ hj]
    exact h j

/-- A library call keeps the functions. -/
theorem sameFunctions_libStep (s s' : IrqState ι σ) (c : LibCall ι) (h : SameFunctions s s') :
    SameFunctions s (libStep s' c) :=
  libStep_invariant (P := SameFunctions s)
    (fun s' c _ h j => (h j).trans (irqStep_sameFunction s' c j))
    (fun s' i _ h => sameFunctions_put h i s'.pcie ⟨rfl, rfl, rfl, rfl⟩)
    (fun s' i b h => sameFunctions_put h i s'.pcie
      (SameFunction.of_sameRecord (pciIntx_sameRecord _ b) (pciIntx_rw _ b))) s' c h

end Calls

end BcmPcie
