import BcmPcie.Enumeration.RegionState
import BcmPcie.Irq.Msi

/-! # Setting up a function

`pciauto_setup_device` of `pci_auto.c`: size every BAR of a function, take an address for it, do the
same for its expansion ROM, and enable what it decodes; with `pci_assign_irq` of `pci_int.c`, which
routes its INTx pin through the bridges above it.

What a BAR register answers to all ones is a matter of the device alone (`barResponse`), and so is
therefore what a function asks of the allocator (`barRequests`, `romRequests`).

* `SetupFrame`, `DeviceFrame` — what the set-up leaves alone.
* `setupBar_round`, `setupBar_cases` — what one round of the loop over the BARs can do.
* `pciautoSetupDevice_frame` — what a whole function keeps, whatever its BARs answer. -/

namespace BcmPcie

open Bump

variable {σ : Type*}

/-! ## INTx routing -/

/-- `PCI_BUS`, `PCI_DEV` and `PCI_FUNC` of a `pci_dev_t`, and `PCI_MASK_BUS`. -/
def pciBus (bdf : ℕ) : ℕ := bdf / 65536 % 256
def pciDev (bdf : ℕ) : ℕ := bdf / 2048 % 32
def pciFunc (bdf : ℕ) : ℕ := bdf / 256 % 8
def pciMaskBus (bdf : ℕ) : ℕ := bdf % 65536

/-- `pci_swizzle_interrupt_pin`: the pin of the bridge that a pin of a function behind it is wired
to. -/
def pciSwizzleInterruptPin (dev : PciDevice) (pin : ℕ) : ℕ := (pin - 1 + pciDev dev.devfn) % 4 + 1

/-- The walk of `pci_assign_irq` up the bridges, the nearest first. -/
def swizzleToRoot : (bridges : List PciDevice) → (walker : PciDevice) → (pin : ℕ) → ℕ
  | [], _, pin => pin
  | bridge :: bridges, walker, pin =>
    swizzleToRoot bridges bridge (pciSwizzleInterruptPin walker pin)

/-- `pci_assign_irq`. -/
def pciAssignIrq (pcie : PciController σ) (bridges : List PciDevice) (dev : PciDevice) : PciDevice :=
  let pinByte := pciReadConfig8 dev pciInterruptPin
  let dev := { dev with intx := { dev.intx with pin := pinByte } }
  let pin := if 4 < pinByte.toNat then 1 else pinByte.toNat
  if pin = 0 then dev
  else
    let pin := swizzleToRoot bridges dev pin
    let dev := { dev with intx := { dev.intx with
      pinRouted := BitVec.ofNat 8 pin
      gicIrq := pcie.intXMapping (pin - 1) } }
    pciWriteConfig8 dev pciInterruptLine (BitVec.ofNat 8 pin)

/-! ## Base addresses -/

/-- The BAR answers as one of I/O space. -/
def isIoBar (response : BitVec 32) : Bool := decide (response &&& pciBaseAddressSpace ≠ 0)

/-- The BAR answers as one of memory with 64-bit addresses. -/
def isMem64Bar (response : BitVec 32) : Bool :=
  !isIoBar response && decide (response &&& pciBaseAddressMemTypeMask = pciBaseAddressMemType64)

/-- The size a BAR answers with; of a 64-bit BAR, its lower half. -/
def barSize (response : BitVec 32) : BitVec 32 :=
  if isIoBar response then ~~~(response &&& pciBaseAddressIoMask) + 1
  else ~~~(response &&& pciBaseAddressMemMask) + 1

/-- The kind of region a BAR is placed in: prefetchable memory goes to the prefetchable region, if
there is one. -/
def barKind (prefetch : Bool) (response : BitVec 32) : RegionKind :=
  if isIoBar response then .io
  else if prefetch && decide (response &&& pciBaseAddressMemPrefetch ≠ 0) then .prefetch
  else .mem

/-- What sizing a BAR found. -/
structure BarSizing where
  size : BitVec 32
  /-- `full_bar_response`, in the width of a bus address. -/
  response : BitVec 32
  mem64 : Bool

/-- The size of a BAR from its answer; a 64-bit BAR is sized in its upper half as well. -/
def sizeBar (dev : PciDevice) (bar : ℕ) (response : BitVec 32) : PciDevice × BarSizing :=
  if isIoBar response then
    (dev, ⟨~~~(response &&& pciBaseAddressIoMask) + 1, response, false⟩)
  else if response &&& pciBaseAddressMemTypeMask = pciBaseAddressMemType64 then
    let dev := pciWriteConfig32 dev (bar + 4) 0xffffffff#32
    let bar64 := pciReadConfig32 dev (bar + 4) ++ response
    (dev, ⟨(~~~(bar64 &&& pciBaseAddressMemMask.setWidth 64) + 1).setWidth 32,
      bar64.setWidth 32, true⟩)
  else (dev, ⟨~~~(response &&& pciBaseAddressMemMask) + 1, response, false⟩)

/-- The address goes into the BAR; the upper half of a 64-bit BAR is forced to zero. -/
def writeBar (dev : PciDevice) (bar : ℕ) (addr : BitVec 32) (mem64 : Bool) : PciDevice :=
  let dev := pciWriteConfig32 dev bar addr
  if mem64 then pciWriteConfig32 dev (bar + 4) 0 else dev

/-- What is kept of a BAR placed at `addr`. -/
def barInfo (pcie : PciController σ) (isIo : Bool) (sizing : BarSizing) (addr : BitVec 32) :
    PciBarInfo :=
  let len := if sizing.size = 0 then 1#64 else sizing.size.setWidth 64
  { present := true
    type := if isIo then .io else .mem
    is64 := sizing.mem64
    busAddr := addr
    size := sizing.size
    barResponse := sizing.response
    physAddr := if isIo then 0 else pciBusToPhys pcie addr len pciRegionType pciRegionMem
    virtAddr := if isIo then none else pciBusToVirt pcie addr len pciRegionType pciRegionMem }

/-- What the set-up of a function works on: the controller, the function, and the value its command
register is going to get. -/
structure SetupState (σ : Type*) where
  pcie : PciController σ
  dev : PciDevice
  command : BitVec 16

/-- One round of the loop over the BARs: the BAR of `slot`, and the slot to go on with. The register
behind a 64-bit BAR is passed over only if the BAR was placed. -/
def setupBar (regions : RegionKind → Option ℕ) (st : SetupState σ) (slot : ℕ) : SetupState σ × ℕ :=
  let bar := pciBaseAddress0 + 4 * slot
  let dev := pciWriteConfig32 st.dev bar 0xffffffff#32
  let response := pciReadConfig32 dev bar
  if response = 0 ∨ response = 0xffffffff#32 then ({ st with dev := dev }, slot + 1)
  else
    let isIo := isIoBar response
    let (dev, sizing) := sizeBar dev bar response
    let command := st.command ||| (if isIo then pciCommandIo else pciCommandMemory)
    match st.pcie.allocate (regions (barKind (regions .prefetch).isSome response)) sizing.size
        sizing.mem64 with
    | none => (⟨st.pcie, dev, command⟩, slot + 1)
    | some (addr, pcie) =>
      let dev := writeBar dev bar addr sizing.mem64
      let dev := { dev with bars := Function.update dev.bars slot (barInfo pcie isIo sizing addr) }
      (⟨pcie, dev, command⟩, slot + if sizing.mem64 then 2 else 1)

/-- The loop over the BARs from `slot` on. It moves on at least one slot a round, so `barsNum` rounds
are enough. -/
def setupBars (regions : RegionKind → Option ℕ) (barsNum : ℕ) :
    (rounds slot : ℕ) → SetupState σ → SetupState σ
  | 0, _, st => st
  | rounds + 1, slot, st =>
    if slot < barsNum then
      let next := setupBar regions st slot
      setupBars regions barsNum rounds next.2 next.1
    else st

/-- The offset of the expansion ROM register, in the headers that have one. -/
def romOffset (headerType : ℕ) : Option ℕ :=
  if headerType = pciHeaderTypeNormal then some pciRomAddress
  else if headerType = pciHeaderTypeBridge then some pciRomAddress1
  else none

/-- The size an expansion ROM answers with. -/
def romSize (response : BitVec 32) : BitVec 32 := -(response &&& ~~~1#32)

/-- The expansion ROM, always from the memory region. -/
def setupRom (regions : RegionKind → Option ℕ) (st : SetupState σ) : SetupState σ :=
  match romOffset st.dev.headerType with
  | none => st
  | some romAddr =>
    let dev := pciWriteConfig32 st.dev romAddr 0xfffffffe#32
    let response := pciReadConfig32 dev romAddr
    if response = 0 then { st with dev := dev }
    else
      let command := st.command ||| pciCommandMemory
      match st.pcie.allocate (regions .mem) (romSize response) false with
      | none => ⟨st.pcie, dev, command⟩
      | some (addr, pcie) => ⟨pcie, pciWriteConfig32 dev romAddr addr, command⟩

/-- `pciauto_setup_device`, for a function behind `bridges`. -/
def pciautoSetupDevice (pcie : PciController σ) (bridges : List PciDevice) (dev : PciDevice)
    (regions : RegionKind → Option ℕ) : PciController σ × PciDevice :=
  let command := pciReadConfig16 dev pciCommand
  let command := (command &&& ~~~(pciCommandIo ||| pciCommandMemory)) ||| pciCommandMaster
  let st := setupBars regions dev.barsNum dev.barsNum 0 ⟨pcie, dev, command⟩
  let st := setupRom regions st
  -- a VGA device decodes I/O addresses it has no BAR for
  let command :=
    if pciReadConfig16 st.dev pciClassDevice = pciClassDisplayVga then st.command ||| pciCommandIo
    else st.command
  let dev := pciWriteConfig16 st.dev pciCommand command
  let dev := pciWriteConfig8 dev pciCacheLineSize 8
  let dev := pciWriteConfig8 dev pciLatencyTimer 0x80
  let dev := pciAssignIrq st.pcie bridges dev
  (st.pcie, pciMsixInit (pciMsiInit dev))

/-! ## What a function asks for -/

/-- What a block of address space is for. -/
inductive BlockUse
  | bar | rom
  deriving DecidableEq, Repr

/-- What the BAR register of a slot answers to all ones. -/
def barResponse (cfg : RegisterFile 4096) (slot : ℕ) : BitVec 32 :=
  cfg.response 32 (pciBaseAddress0 + 4 * slot) 0xffffffff#32

/-- The BARs of a function that go to regions of kind `k`, from `slot` on. -/
def barRequests (k : RegionKind) (prefetch : Bool) (cfg : RegisterFile 4096) (barsNum : ℕ) :
    (rounds slot : ℕ) → List (Request BlockUse)
  | 0, _ => []
  | rounds + 1, slot =>
    if slot < barsNum then
      let response := barResponse cfg slot
      if response = 0 ∨ response = 0xffffffff#32 then
        barRequests k prefetch cfg barsNum rounds (slot + 1)
      else
        (if barKind prefetch response = k then [.take (barSize response).toNat .bar] else []) ++
          barRequests k prefetch cfg barsNum rounds (slot + if isMem64Bar response then 2 else 1)
    else []

/-- What the expansion ROM register of a function answers to its sizing value, 0 without one. -/
def romResponse (cfg : RegisterFile 4096) (headerType : ℕ) : BitVec 32 :=
  match romOffset headerType with
  | none => 0
  | some romAddr => cfg.response 32 romAddr 0xfffffffe#32

/-- The expansion ROM of a function, which goes to the memory region. -/
def romRequests (k : RegionKind) (cfg : RegisterFile 4096) (headerType : ℕ) :
    List (Request BlockUse) :=
  if k = .mem ∧ romResponse cfg headerType ≠ 0 then
    [.take (romSize (romResponse cfg headerType)).toNat .rom]
  else []

/-- The BARs and the ROM of a function conform: memory BARs and ROM are of a power of two below
4 GiB, a 64-bit BAR has a register for its upper half, and that is all address bits. -/
structure ConformingBars (cfg : RegisterFile 4096) (headerType barsNum : ℕ) : Prop where
  bars : ∀ slot < barsNum, barResponse cfg slot ≠ 0 → barResponse cfg slot ≠ 0xffffffff#32 →
    isIoBar (barResponse cfg slot) = false →
      (∃ n, (barSize (barResponse cfg slot)).toNat = 2 ^ n) ∧
        (isMem64Bar (barResponse cfg slot) = true →
          slot + 1 < barsNum ∧ barResponse cfg (slot + 1) = 0xffffffff#32)
  rom : romResponse cfg headerType ≠ 0 →
    ∃ n, (romSize (romResponse cfg headerType)).toNat = 2 ^ n

/-- Whether a value is a power of two. -/
instance decidableIsTwoPow {w : ℕ} (v : BitVec w) : Decidable (∃ n, v.toNat = 2 ^ n) :=
  decidable_of_iff (∃ n < w, v.toNat = 2 ^ n)
    ⟨fun ⟨n, _, h⟩ => ⟨n, h⟩, fun ⟨n, h⟩ =>
      ⟨n, (Nat.pow_lt_pow_iff_right (by decide : 1 < 2)).1 (h ▸ v.isLt), h⟩⟩

instance (cfg : RegisterFile 4096) (headerType barsNum : ℕ) :
    Decidable (ConformingBars cfg headerType barsNum) :=
  decidable_of_iff ((∀ slot < barsNum, (barResponse cfg slot ≠ 0 ∧
        barResponse cfg slot ≠ 0xffffffff#32 ∧ isIoBar (barResponse cfg slot) = false) →
          (∃ n, (barSize (barResponse cfg slot)).toNat = 2 ^ n) ∧
            (isMem64Bar (barResponse cfg slot) = true →
              slot + 1 < barsNum ∧ barResponse cfg (slot + 1) = 0xffffffff#32)) ∧
      (romResponse cfg headerType ≠ 0 →
        ∃ n, (romSize (romResponse cfg headerType)).toNat = 2 ^ n))
    ⟨fun h => ⟨fun slot hslot h0 h1 hio => h.1 slot hslot ⟨h0, h1, hio⟩, h.2⟩,
      fun h => ⟨fun slot hslot hbar => h.bars slot hslot hbar.1 hbar.2.1 hbar.2.2, h.rom⟩⟩

/-! ## What the set-up leaves alone -/

/-- Nothing of the controller but its regions has changed, and the choice among them stands. -/
structure OnlyRegions (pcie pcie' : PciController σ) : Prop where
  record : pcie' = { pcie with regions := pcie'.regions }
  selected : pcie.Selected → pcie'.Selected

namespace OnlyRegions

variable {pcie pcie' pcie'' : PciController σ}

/-- Doing nothing changes the regions only. -/
theorem refl (pcie : PciController σ) : OnlyRegions pcie pcie := ⟨rfl, id⟩

/-- Two changes of the regions only are one. -/
theorem trans (h : OnlyRegions pcie pcie') (h' : OnlyRegions pcie' pcie'') :
    OnlyRegions pcie pcie'' :=
  ⟨h'.record.trans (by rw [h.record]), fun hs => h'.selected (h.selected hs)⟩

/-- The pointers to the regions stay, whatever happens inside the regions. -/
theorem ptr (h : OnlyRegions pcie pcie') (k : RegionKind) : pcie'.ptr k = pcie.ptr k := by
  rw [h.record]
  cases k <;> rfl

/-- Taking a block from a region changes the regions only. -/
theorem allocate {p : Option ℕ} {size addr : BitVec 32} {supports64bit : Bool}
    (h : pcie.allocate p size supports64bit = some (addr, pcie')) : OnlyRegions pcie pcie' := by
  refine ⟨?_, fun hs => hs.allocate h⟩
  obtain ⟨res, lower, -, rfl⟩ := PciController.allocate_eq_some h
  cases p <;> rfl

end OnlyRegions

/-- A step of the set-up: registers inside some ranges are written, BARs are filled in, addresses are
handed out. -/
structure SetupFrame (ranges : List (ℕ × ℕ)) (st st' : SetupState σ) : Prop where
  pcie : OnlyRegions st.pcie st'.pcie
  record : st'.dev = { st.dev with cfg := st'.dev.cfg, bars := st'.dev.bars }
  device : st.dev.cfg.SameDevice st'.dev.cfg
  outside : st.dev.cfg.SameOutside ranges st'.dev.cfg

namespace SetupFrame

variable {ranges ranges' : List (ℕ × ℕ)} {st st' st'' : SetupState σ}

/-- Doing nothing keeps the frame. -/
theorem refl (ranges : List (ℕ × ℕ)) (st : SetupState σ) : SetupFrame ranges st st :=
  ⟨OnlyRegions.refl _, rfl, RegisterFile.SameDevice.refl _, RegisterFile.SameOutside.refl _ _⟩

/-- The frames of two steps make up that of both. -/
theorem trans (h : SetupFrame ranges st st') (h' : SetupFrame ranges st' st'') :
    SetupFrame ranges st st'' :=
  ⟨h.pcie.trans h'.pcie, h'.record.trans (by rw [h.record]), h.device.trans h'.device,
    h.outside.trans h'.outside⟩

/-- More registers may be allowed to change. -/
theorem mono (h : SetupFrame ranges st st') (hsub : ∀ r ∈ ranges, r ∈ ranges') :
    SetupFrame ranges' st st' :=
  ⟨h.pcie, h.record, h.device, h.outside.mono hsub⟩

/-- A step that only rewrites registers keeps the frame. -/
theorem of_rewritten {dev : PciDevice} {command : BitVec 16} (h : Rewritten ranges st.dev dev) :
    SetupFrame ranges st ⟨st.pcie, dev, command⟩ :=
  ⟨OnlyRegions.refl _, h.record.trans (by rw [h.record]), h.device, h.outside⟩

end SetupFrame

/-! ## One BAR -/

/-- What is kept of a BAR that answers `response` and was placed at `addr`. -/
structure PlacedBar (response addr : BitVec 32) (bar : PciBarInfo) : Prop where
  present : bar.present = true
  type : bar.type = if isIoBar response then .io else .mem
  busAddr : bar.busAddr = addr
  size : bar.size = barSize response
  response_eq : bar.barResponse = response

/-- The BAR registers of a function. -/
def barRange (barsNum : ℕ) : ℕ × ℕ := (pciBaseAddress0, 4 * barsNum)

/-- The register of the BAR in a slot, with the one behind it for a BAR of 64 bits. -/
def barRegisters (slot : ℕ) (mem64 : Bool) : ℕ × ℕ :=
  (pciBaseAddress0 + 4 * slot, if mem64 then 8 else 4)

/-- What sizing a BAR finds is a matter of its answer alone. -/
def barSizing (response : BitVec 32) : BarSizing :=
  ⟨barSize response, response, isMem64Bar response⟩

/-- Sizing a BAR rewrites its registers only, and returns what its response says. -/
theorem sizeBar_spec (dev : PciDevice) (slot : ℕ) (response : BitVec 32) :
    Rewritten [barRegisters slot (isMem64Bar response)] dev
        (sizeBar dev (pciBaseAddress0 + 4 * slot) response).1 ∧
      (sizeBar dev (pciBaseAddress0 + 4 * slot) response).2 = barSizing response := by
  unfold sizeBar barSizing barSize
  -- I/O, 64-bit memory and 32-bit memory, as `pciauto_setup_device` tells them apart
  cases hio : isIoBar response with
  | true => exact ⟨Rewritten.refl _ _, by simp [isMem64Bar, hio]⟩
  | false =>
    simp only [Bool.false_eq_true, if_false]
    by_cases htype : response &&& pciBaseAddressMemTypeMask = pciBaseAddressMemType64
    · have hmem64 : isMem64Bar response = true := by
        unfold isMem64Bar
        rw [hio, decide_eq_true htype]
        rfl
      rw [if_pos htype, hmem64]
      refine ⟨rewritten_pciWriteConfig dev 4 _ (List.mem_singleton_self _)
        (Nat.le_add_right _ _) le_rfl, ?_⟩
      generalize pciReadConfig32 _ _ = upper
      -- the size is kept as 32 bits, so the upper half does not show in it
      have hlow : (upper ++ response).setWidth 32 = response := by
        rw [BitVec.setWidth_append]
        simp
      dsimp only
      rw [BitVec.setWidth_add _ _ (by decide), BitVec.setWidth_not (by decide),
        BitVec.setWidth_and, hlow]
      rfl
    · have hmem64 : isMem64Bar response = false := by
        unfold isMem64Bar
        rw [hio, decide_eq_false htype]
        rfl
      rw [if_neg htype, hmem64]
      exact ⟨Rewritten.refl _ _, rfl⟩

/-- The register of a BAR is written. -/
theorem rewritten_bar (dev : PciDevice) (slot : ℕ) (mem64 : Bool) (value : BitVec 32) :
    Rewritten [barRegisters slot mem64] dev
      (pciWriteConfig32 dev (pciBaseAddress0 + 4 * slot) value) :=
  rewritten_pciWriteConfig dev 4 value (List.mem_singleton_self _) le_rfl
    (by cases mem64 <;> simp [barRegisters])

/-- An address goes into the registers of a BAR, and they answer it. -/
theorem writeBar_spec (dev : PciDevice) {slot : ℕ} (hslot : slot < 7) (addr : BitVec 32)
    (mem64 : Bool) :
    let dev' := writeBar dev (pciBaseAddress0 + 4 * slot) addr mem64
    Rewritten [barRegisters slot mem64] dev dev' ∧
      pciReadConfig32 dev' (pciBaseAddress0 + 4 * slot)
        = dev.cfg.response 32 (pciBaseAddress0 + 4 * slot) addr ∧
      (mem64 = true → pciReadConfig32 dev' (pciBaseAddress0 + 4 * slot + 4)
        = dev.cfg.response 32 (pciBaseAddress0 + 4 * slot + 4) 0) := by
  have hoff : pciBaseAddress0 + 4 * slot + 4 < 4096 := by
    simp only [pciBaseAddress0]
    omega
  have hlow := rewritten_bar dev slot mem64 addr
  have hread := pciReadConfig_write_self dev 32 addr ((Nat.le_add_right _ 4).trans_lt hoff)
  unfold writeBar
  cases mem64 with
  | false => exact ⟨hlow, hread, fun h => Bool.noConfusion h⟩
  | true =>
    refine ⟨hlow.trans (rewritten_pciWriteConfig _ 4 0 (List.mem_singleton_self _)
      (Nat.le_add_right _ _) le_rfl), ?_, fun _ => ?_⟩
    · refine Eq.trans (pciReadConfig_write_of_apart _ _ ?_) hread
      unfold RegisterFile.Apart
      omega
    · refine (pciReadConfig_write_self _ 32 _ hoff).trans ?_
      exact hlow.device.response _ _ _

/-- The bit of the command register that lets a BAR decode. -/
def barCommand (response : BitVec 32) : BitVec 16 :=
  if isIoBar response then pciCommandIo else pciCommandMemory

/-- **A round of the loop over the BARs**: it passes over a register that does not answer as a BAR,
fails to place a BAR, which then keeps its sizing value, or places it. A BAR is let decode whether it
was placed or not. -/
theorem setupBar_round (regions : RegionKind → Option ℕ) (st : SetupState σ) {slot : ℕ}
    (hslot : slot < 7) {response : BitVec 32} (hresponse : barResponse st.dev.cfg slot = response) :
    ∃ dev, Rewritten [barRegisters slot (isMem64Bar response)] st.dev dev ∧
      (((response = 0 ∨ response = 0xffffffff#32) ∧
          setupBar regions st slot = ({ st with dev := dev }, slot + 1)) ∨
        (¬ (response = 0 ∨ response = 0xffffffff#32) ∧
          st.pcie.allocate (regions (barKind (regions .prefetch).isSome response))
            (barSize response) (isMem64Bar response) = none ∧
          setupBar regions st slot
            = (⟨st.pcie, dev, st.command ||| barCommand response⟩, slot + 1)) ∨
        (¬ (response = 0 ∨ response = 0xffffffff#32) ∧ ∃ addr pcie,
          st.pcie.allocate (regions (barKind (regions .prefetch).isSome response))
            (barSize response) (isMem64Bar response) = some (addr, pcie) ∧
          (pciReadConfig32 dev (pciBaseAddress0 + 4 * slot)
              = st.dev.cfg.response 32 (pciBaseAddress0 + 4 * slot) addr ∧
            (isMem64Bar response = true → pciReadConfig32 dev (pciBaseAddress0 + 4 * slot + 4)
              = st.dev.cfg.response 32 (pciBaseAddress0 + 4 * slot + 4) 0)) ∧
          setupBar regions st slot
            = (⟨pcie, { dev with bars := Function.update st.dev.bars slot (barInfo pcie
                  (isIoBar response) (barSizing response) addr) }, st.command ||| barCommand response⟩,
              slot + if isMem64Bar response then 2 else 1))) := by
  have hoff : pciBaseAddress0 + 4 * slot < 4096 := by
    simp only [pciBaseAddress0]
    omega
  -- what is read back after all ones does not depend on what was there
  have hread : pciReadConfig32 (pciWriteConfig32 st.dev (pciBaseAddress0 + 4 * slot) 0xffffffff#32)
      (pciBaseAddress0 + 4 * slot) = response :=
    (pciReadConfig_write_self st.dev 32 _ hoff).trans hresponse
  have hsized := rewritten_bar st.dev slot (isMem64Bar response) 0xffffffff#32
  unfold setupBar
  dsimp only
  rw [hread]
  by_cases hnone : response = 0 ∨ response = 0xffffffff#32
  · rw [if_pos hnone]
    exact ⟨_, hsized, Or.inl ⟨hnone, rfl⟩⟩
  · rw [if_neg hnone]
    obtain ⟨hrewritten, hsizing⟩ := sizeBar_spec
      (pciWriteConfig32 st.dev (pciBaseAddress0 + 4 * slot) 0xffffffff#32) slot response
    rw [hsizing]
    generalize (sizeBar _ _ response).1 = dev at hrewritten
    have hdev := hsized.trans hrewritten
    -- a BAR that gets no address keeps the sizing value
    cases halloc : st.pcie.allocate (regions (barKind (regions .prefetch).isSome response))
        (barSizing response).size (barSizing response).mem64 with
    | none => exact ⟨dev, hdev, Or.inr (Or.inl ⟨hnone, halloc, rfl⟩)⟩
    | some r =>
      obtain ⟨addr, pcie⟩ := r
      obtain ⟨hwritten, hlow, hhigh⟩ := writeBar_spec dev hslot addr (isMem64Bar response)
      have haddr := hdev.trans hwritten
      refine ⟨_, haddr, Or.inr (Or.inr ⟨hnone, addr, pcie, halloc, ⟨?_, fun h64 => ?_⟩, ?_⟩)⟩
      · exact hlow.trans (hdev.device.response _ _ _)
      · exact (hhigh h64).trans (hdev.device.response _ _ _)
      · rw [← haddr.bars]
        rfl

/-- The registers of a BAR are among those of the function. -/
theorem barRegisters_within {slot barsNum : ℕ} (hslot : slot < barsNum) {mem64 : Bool}
    (h64 : mem64 = true → slot + 1 < barsNum) :
    ∀ r ∈ [barRegisters slot mem64], ∃ r' ∈ [barRange barsNum],
      r'.1 ≤ r.1 ∧ r.1 + r.2 ≤ r'.1 + r'.2 := by
  intro r hr
  obtain rfl := List.mem_singleton.1 hr
  refine ⟨_, List.mem_singleton_self _, ?_⟩
  simp only [barRange, barRegisters]
  cases mem64 with
  | false => simp only [Bool.false_eq_true, if_false]; omega
  | true =>
    have := h64 rfl
    simp only [if_true]
    omega

/-- What a round of the loop over the BARs can do: pass over a register that is not a BAR, fail to
place a BAR, or place it. -/
theorem setupBar_cases (regions : RegionKind → Option ℕ) (st : SetupState σ) {slot barsNum : ℕ}
    (hslot : slot < barsNum) (hnum : barsNum ≤ 7) {response : BitVec 32}
    (hresponse : barResponse st.dev.cfg slot = response)
    (h64 : isMem64Bar response = true → slot + 1 < barsNum) :
    ∃ dev, Rewritten [barRange barsNum] st.dev dev ∧
      (((response = 0 ∨ response = 0xffffffff#32) ∧
          setupBar regions st slot = ({ st with dev := dev }, slot + 1)) ∨
        (¬ (response = 0 ∨ response = 0xffffffff#32) ∧
          st.pcie.allocate (regions (barKind (regions .prefetch).isSome response))
            (barSize response) (isMem64Bar response) = none ∧
          ∃ command, setupBar regions st slot = (⟨st.pcie, dev, command⟩, slot + 1)) ∨
        (¬ (response = 0 ∨ response = 0xffffffff#32) ∧ ∃ addr pcie command bar,
          st.pcie.allocate (regions (barKind (regions .prefetch).isSome response))
            (barSize response) (isMem64Bar response) = some (addr, pcie) ∧
          PlacedBar response addr bar ∧
          setupBar regions st slot
            = (⟨pcie, { dev with bars := Function.update st.dev.bars slot bar }, command⟩,
                slot + if isMem64Bar response then 2 else 1))) := by
  obtain ⟨dev, hdev, hround⟩ := setupBar_round regions st (hslot.trans_le hnum) hresponse
  refine ⟨dev, hdev.widen (barRegisters_within hslot h64), ?_⟩
  rcases hround with hpassed | ⟨hbar, hfailed, heq⟩ | ⟨hbar, addr, pcie, halloc, -, heq⟩
  · exact Or.inl hpassed
  · exact Or.inr (Or.inl ⟨hbar, hfailed, _, heq⟩)
  · have hplaced : PlacedBar response addr
        (barInfo pcie (isIoBar response) (barSizing response) addr) := ⟨rfl, rfl, rfl, rfl, rfl⟩
    exact Or.inr (Or.inr ⟨hbar, addr, pcie, _, _, halloc, hplaced, heq⟩)

/-! ## A whole function -/

section Frame

variable {hw : RegisterFile 4096} {barsNum n : ℕ}

/-- A round of the loop over the BARs writes inside the range of the BARs. -/
theorem setupBar_frame (regions : RegionKind → Option ℕ) (st : SetupState σ) {slot : ℕ}
    (hslot : slot < n) (hn : n ≤ 7)
    (h64 : isMem64Bar (barResponse st.dev.cfg slot) = true → slot + 1 < n) :
    SetupFrame [barRange n] st (setupBar regions st slot).1 := by
  obtain ⟨dev, hdev, hcases⟩ := setupBar_cases regions st hslot hn rfl h64
  obtain ⟨-, heq⟩ | ⟨-, -, command, heq⟩ | ⟨-, addr, pcie, command, bar, halloc, -, heq⟩ := hcases
  · rw [heq]
    exact SetupFrame.of_rewritten hdev
  · rw [heq]
    exact SetupFrame.of_rewritten hdev
  · rw [heq]
    exact ⟨OnlyRegions.allocate halloc, by rw [hdev.record], hdev.device, hdev.outside⟩

/-- The loop over the BARs writes the registers of the slots, and behind them the upper half of a BAR
that claims to have one. -/
theorem setupBars_frame (regions : RegionKind → Option ℕ) (hnum : barsNum ≤ n) (hn : n ≤ 7)
    (h64 : ∀ slot < barsNum, isMem64Bar (barResponse hw slot) = true → slot + 1 < n)
    (rounds slot : ℕ) {st : SetupState σ} (hdev : hw.SameDevice st.dev.cfg) :
    SetupFrame [barRange n] st (setupBars regions barsNum rounds slot st) := by
  induction rounds generalizing slot st with
  | zero => exact SetupFrame.refl _ _
  | succ rounds ih =>
    rw [setupBars]
    split
    · rename_i hslot
      have hresponse : barResponse st.dev.cfg slot = barResponse hw slot := hdev.response _ _ _
      have hround := setupBar_frame regions st (hslot.trans_le hnum) hn
        (hresponse ▸ h64 slot hslot)
      exact hround.trans (ih _ (hdev.trans hround.device))
    · exact SetupFrame.refl _ _

end Frame

/-- The expansion ROM registers. -/
def romRanges : List (ℕ × ℕ) := [(pciRomAddress, 4), (pciRomAddress1, 4)]

/-- The register of the expansion ROM, where there is one, is one of two. -/
theorem romOffset_mem {headerType romAddr : ℕ} (h : romOffset headerType = some romAddr) :
    (romAddr, 4) ∈ romRanges ∧ romAddr < 4096 := by
  unfold romOffset at h
  split at h
  · cases h
    decide
  · split at h
    · cases h
      decide
    · cases h

/-- What the ROM can do: there is none, it does not answer, it is not placed, or it is. -/
theorem setupRom_cases (regions : RegionKind → Option ℕ) (st : SetupState σ) {response : BitVec 32}
    (hresponse : romResponse st.dev.cfg st.dev.headerType = response) :
    ∃ dev, Rewritten romRanges st.dev dev ∧
      ((response = 0 ∧ setupRom regions st = { st with dev := dev }) ∨
        (response ≠ 0 ∧ st.pcie.allocate (regions .mem) (romSize response) false = none ∧
          ∃ command, setupRom regions st = ⟨st.pcie, dev, command⟩) ∨
        (response ≠ 0 ∧ ∃ addr pcie command,
          st.pcie.allocate (regions .mem) (romSize response) false = some (addr, pcie) ∧
          setupRom regions st = ⟨pcie, dev, command⟩)) := by
  unfold setupRom
  unfold romResponse at hresponse
  -- only the normal and the bridge header have a ROM register
  cases hrom : romOffset st.dev.headerType with
  | none =>
    rw [hrom] at hresponse
    exact ⟨st.dev, Rewritten.refl _ _, Or.inl ⟨hresponse.symm, rfl⟩⟩
  | some romAddr =>
    rw [hrom] at hresponse
    dsimp only at hresponse ⊢
    obtain ⟨hmem, hoff⟩ := romOffset_mem hrom
    have hwrite (dev : PciDevice) (v : BitVec 32) :
        Rewritten romRanges dev (pciWriteConfig32 dev romAddr v) :=
      rewritten_pciWriteConfig dev 4 v hmem le_rfl le_rfl
    have hread : pciReadConfig32 (pciWriteConfig32 st.dev romAddr 0xfffffffe#32) romAddr = response :=
      (pciReadConfig_write_self st.dev 32 _ hoff).trans hresponse
    rw [hread]
    by_cases hnone : response = 0
    · rw [if_pos hnone]
      exact ⟨_, hwrite _ _, Or.inl ⟨hnone, rfl⟩⟩
    · rw [if_neg hnone]
      cases halloc : st.pcie.allocate (regions .mem) (romSize response) false with
      | none => exact ⟨_, hwrite _ _, Or.inr (Or.inl ⟨hnone, rfl, _, rfl⟩)⟩
      | some r =>
        exact ⟨_, (hwrite _ _).trans (hwrite _ r.1),
          Or.inr (Or.inr ⟨hnone, r.1, r.2, _, rfl, rfl⟩)⟩

/-- Placing the expansion ROM writes its register only. -/
theorem setupRom_frame (regions : RegionKind → Option ℕ) (st : SetupState σ) :
    SetupFrame romRanges st (setupRom regions st) := by
  obtain ⟨dev, hdev, hcases⟩ := setupRom_cases regions st rfl
  obtain ⟨-, heq⟩ | ⟨-, -, command, heq⟩ | ⟨-, addr, pcie, command, halloc, heq⟩ := hcases
  · rw [heq]
    exact SetupFrame.of_rewritten hdev
  · rw [heq]
    exact SetupFrame.of_rewritten hdev
  · rw [heq]
    exact ⟨OnlyRegions.allocate halloc, by rw [hdev.record], hdev.device, hdev.outside⟩

/-- A function has been set up: registers inside some ranges were written, and of its record BARs and
interrupt capabilities were filled in. -/
structure DeviceFrame (ranges : List (ℕ × ℕ)) (dev dev' : PciDevice) : Prop where
  record : dev' = { dev with
    cfg := dev'.cfg, bars := dev'.bars, intx := dev'.intx, msi := dev'.msi, msix := dev'.msix }
  device : dev.cfg.SameDevice dev'.cfg
  outside : dev.cfg.SameOutside ranges dev'.cfg

namespace DeviceFrame

variable {ranges ranges' : List (ℕ × ℕ)} {dev dev' dev'' : PciDevice}

/-- The frames of two steps on a device make up that of both. -/
theorem trans (h : DeviceFrame ranges dev dev') (h' : DeviceFrame ranges dev' dev'') :
    DeviceFrame ranges dev dev'' :=
  ⟨h'.record.trans (by rw [h.record]), h.device.trans h'.device, h.outside.trans h'.outside⟩

/-- More registers of the device may be allowed to change. -/
theorem mono (h : DeviceFrame ranges dev dev') (hsub : ∀ r ∈ ranges, r ∈ ranges') :
    DeviceFrame ranges' dev dev' :=
  ⟨h.record, h.device, h.outside.mono hsub⟩

/-- A step that only rewrites registers keeps the frame of the device. -/
theorem of_rewritten (h : Rewritten ranges dev dev') : DeviceFrame ranges dev dev' :=
  ⟨h.record.trans (by rw [h.record]), h.device, h.outside⟩

/-- A register outside the ranges reads as before. -/
theorem read (h : DeviceFrame ranges dev dev') {w offset : ℕ}
    (hap : ∀ r ∈ ranges, RegisterFile.Apart (8 * r.2) r.1 w offset) :
    pciReadConfig w dev' offset = pciReadConfig w dev offset :=
  pciReadConfig_of_sameOutside h.outside hap

end DeviceFrame

/-- Assigning the INTx line writes the interrupt line register only. -/
theorem pciAssignIrq_frame (pcie : PciController σ) (bridges : List PciDevice) (dev : PciDevice) :
    DeviceFrame [(pciInterruptLine, 1)] dev (pciAssignIrq pcie bridges dev) ∧
      (pciAssignIrq pcie bridges dev).bars = dev.bars := by
  unfold pciAssignIrq
  dsimp only
  generalize (if 4 < (pciReadConfig8 dev pciInterruptPin).toNat then 1
    else (pciReadConfig8 dev pciInterruptPin).toNat) = pin
  split
  · exact ⟨⟨rfl, RegisterFile.SameDevice.refl _, RegisterFile.SameOutside.refl _ _⟩, rfl⟩
  · have hline (intx : DeviceIntx) (value : BitVec 8) : DeviceFrame [(pciInterruptLine, 1)] dev
        (pciWriteConfig8 { dev with intx := intx } pciInterruptLine value) := by
      have h := rewritten_pciWriteConfig { dev with intx := intx } 1 value
        (List.mem_singleton_self (pciInterruptLine, 1)) le_rfl le_rfl
      exact ⟨rfl, h.device, h.outside⟩
    exact ⟨hline _ _, rfl⟩

/-- Setting up MSI writes in the capabilities only. -/
theorem pciMsiInit_frame (dev : PciDevice) :
    DeviceFrame [(64, 4032)] dev (pciMsiInit dev) ∧ (pciMsiInit dev).bars = dev.bars := by
  unfold pciMsiInit
  dsimp only
  obtain h | ⟨hlow, hhigh, -⟩ := pciFindCapability_spec dev pciCapIdMsi
  · rw [if_pos h]
    exact ⟨⟨rfl, RegisterFile.SameDevice.refl _, RegisterFile.SameOutside.refl _ _⟩, rfl⟩
  · rw [if_neg (by omega)]
    generalize pciFindCapability dev pciCapIdMsi = cap at hlow hhigh
    have hcontrol : Rewritten [(64, 4032)] { dev with msi := { dev.msi with capOffset := cap } }
        (pciMsiSetEnable { dev with msi := { dev.msi with capOffset := cap } } false) :=
      rewritten_pciWriteConfig _ 2 _ (List.mem_singleton_self _) (by dsimp only; omega)
        (by simp only [pciMsiFlags]; omega)
    exact ⟨⟨rfl, hcontrol.device, hcontrol.outside⟩, rfl⟩

/-- Setting up MSI-X writes in the capabilities only. -/
theorem pciMsixInit_frame (dev : PciDevice) :
    DeviceFrame [(64, 4032)] dev (pciMsixInit dev) ∧ (pciMsixInit dev).bars = dev.bars := by
  unfold pciMsixInit
  dsimp only
  obtain h | ⟨hlow, hhigh, -⟩ := pciFindCapability_spec dev pciCapIdMsix
  · rw [if_pos h]
    exact ⟨⟨rfl, RegisterFile.SameDevice.refl _, RegisterFile.SameOutside.refl _ _⟩, rfl⟩
  · rw [if_neg (by omega)]
    generalize pciFindCapability dev pciCapIdMsix = cap at hlow hhigh
    have hcontrol : Rewritten [(64, 4032)] { dev with msix := { dev.msix with capOffset := cap } }
        (pciMsixSetCtrl { dev with msix := { dev.msix with capOffset := cap } } pciMsixFlagsEnable 0) :=
      rewritten_pciWriteConfig _ 2 _ (List.mem_singleton_self _) (by dsimp only; omega)
        (by simp only [pciMsixFlags]; omega)
    split
    · exact ⟨⟨rfl, hcontrol.device, hcontrol.outside⟩, rfl⟩
    · split <;> exact ⟨⟨rfl, hcontrol.device, hcontrol.outside⟩, rfl⟩

/-- The registers the set-up of a function writes once its command register is written. -/
def behindRanges : List (ℕ × ℕ) :=
  [(pciCacheLineSize, 1), (pciLatencyTimer, 1), (pciInterruptLine, 1), (64, 4032)]

/-- The registers the set-up of a function writes behind its BARs and ROM. -/
def tailRanges : List (ℕ × ℕ) := (pciCommand, 2) :: behindRanges

/-- The registers the set-up of a function writes, with `n` of them for its BARs. -/
def setupRanges (n : ℕ) : List (ℕ × ℕ) := [barRange n] ++ romRanges ++ tailRanges

/-- What the set-up of a function does behind its command register: it leaves that and the BARs
alone. -/
theorem pciautoSetupDevice_behind (pcie : PciController σ) (bridges : List PciDevice)
    (dev : PciDevice) :
    let dev' := pciWriteConfig8 (pciWriteConfig8 dev pciCacheLineSize 8) pciLatencyTimer 0x80
    let final := pciMsixInit (pciMsiInit (pciAssignIrq pcie bridges dev'))
    DeviceFrame behindRanges dev final ∧ final.bars = dev.bars := by
  intro dev' final
  have hregisters : Rewritten behindRanges dev dev' :=
    (rewritten_pciWriteConfig dev 1 8 (r := (pciCacheLineSize, 1)) (by decide) le_rfl le_rfl).trans
      (rewritten_pciWriteConfig _ 1 0x80 (r := (pciLatencyTimer, 1)) (by decide) le_rfl le_rfl)
  obtain ⟨hirq, hirqBars⟩ := pciAssignIrq_frame pcie bridges dev'
  obtain ⟨hmsi, hmsiBars⟩ := pciMsiInit_frame (pciAssignIrq pcie bridges dev')
  obtain ⟨hmsix, hmsixBars⟩ := pciMsixInit_frame (pciMsiInit (pciAssignIrq pcie bridges dev'))
  refine ⟨?_, hmsixBars.trans (hmsiBars.trans (hirqBars.trans hregisters.bars))⟩
  exact (((DeviceFrame.of_rewritten hregisters).trans (hirq.mono (by decide))).trans
    (hmsi.mono (by decide))).trans (hmsix.mono (by decide))

/-- What the set-up of a function does behind its BARs and ROM: it leaves the BARs alone, and the
command register answers the value it got. -/
theorem pciautoSetupDevice_tail (pcie : PciController σ) (bridges : List PciDevice) (dev : PciDevice)
    (command : BitVec 16) :
    let dev' := pciWriteConfig8 (pciWriteConfig8 (pciWriteConfig16 dev pciCommand command)
      pciCacheLineSize 8) pciLatencyTimer 0x80
    let final := pciMsixInit (pciMsiInit (pciAssignIrq pcie bridges dev'))
    DeviceFrame tailRanges dev final ∧ final.bars = dev.bars ∧
      pciReadConfig16 final pciCommand = dev.cfg.response 16 pciCommand command := by
  intro dev' final
  obtain ⟨hframe, hbars⟩ :=
    pciautoSetupDevice_behind pcie bridges (pciWriteConfig16 dev pciCommand command)
  have hcommand : DeviceFrame tailRanges dev (pciWriteConfig16 dev pciCommand command) :=
    DeviceFrame.of_rewritten
      (rewritten_pciWriteConfig dev 2 command (List.mem_cons_self ..) le_rfl le_rfl)
  refine ⟨hcommand.trans (hframe.mono fun r hr => List.mem_cons_of_mem _ hr), hbars, ?_⟩
  exact (hframe.read (by decide)).trans (pciReadConfig_write_self dev 16 command (by decide))

/-- **What the set-up of a function writes**: `n` registers for its BARs, enough for the slots and the
upper halves that BARs claim to have, those of its ROM and a few more. -/
theorem pciautoSetupDevice_frame_of (pcie : PciController σ) (bridges : List PciDevice)
    {dev : PciDevice} {n : ℕ} (hnum : dev.barsNum ≤ n) (hn : n ≤ 7)
    (h64 : ∀ slot < dev.barsNum, isMem64Bar (barResponse dev.cfg slot) = true → slot + 1 < n)
    (regions : RegionKind → Option ℕ) :
    OnlyRegions pcie (pciautoSetupDevice pcie bridges dev regions).1 ∧
      DeviceFrame (setupRanges n) dev (pciautoSetupDevice pcie bridges dev regions).2 := by
  unfold pciautoSetupDevice
  dsimp only
  generalize hst₀ : (⟨pcie, dev, _⟩ : SetupState σ) = st₀
  have hdev₀ : st₀.dev = dev := by rw [← hst₀]
  have hpcie₀ : st₀.pcie = pcie := by rw [← hst₀]
  have hbars := @setupBars_frame _ _ _ _ regions hnum hn h64 dev.barsNum 0 st₀
    (by rw [hdev₀]; exact RegisterFile.SameDevice.refl _)
  generalize setupBars regions dev.barsNum dev.barsNum 0 st₀ = st₁ at hbars ⊢
  have hrom := setupRom_frame regions st₁
  generalize setupRom regions st₁ = st₂ at hrom ⊢
  generalize (if pciReadConfig16 st₂.dev pciClassDevice = pciClassDisplayVga then
    st₂.command ||| pciCommandIo else st₂.command) = command
  have hframe : SetupFrame (setupRanges n) st₀ st₂ :=
    (hbars.mono fun r hr => List.mem_append_left _ (List.mem_append_left _ hr)).trans
      (hrom.mono fun r hr => List.mem_append_left _ (List.mem_append_right _ hr))
  have htail := (pciautoSetupDevice_tail st₂.pcie bridges st₂.dev command).1
  have hdev : DeviceFrame (setupRanges n) st₀.dev st₂.dev :=
    ⟨hframe.record.trans (by rw [hframe.record]), hframe.device, hframe.outside⟩
  rw [← hdev₀, ← hpcie₀]
  exact ⟨hframe.pcie, hdev.trans (htail.mono fun r hr => List.mem_append_right _ hr)⟩

/-- Seven registers are always enough: a BAR in the last of six slots that claims to have 64 bits has
its upper half behind them. -/
theorem pciautoSetupDevice_frame (pcie : PciController σ) (bridges : List PciDevice)
    {dev : PciDevice} (hnum : dev.barsNum ≤ 6) (regions : RegionKind → Option ℕ) :
    OnlyRegions pcie (pciautoSetupDevice pcie bridges dev regions).1 ∧
      DeviceFrame (setupRanges 7) dev (pciautoSetupDevice pcie bridges dev regions).2 :=
  pciautoSetupDevice_frame_of pcie bridges (hnum.trans (by decide)) le_rfl
    (fun _ _ _ => by omega) regions

end BcmPcie
