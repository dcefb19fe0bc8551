import BcmPcie.Brcmstb.Probe

/-! # Bringing the library up

`pcie_hw_init` of `pcie_main.c`: the controller, the root bus, the scan, the list of `pci_dev` records
that clients see and the DMA pool, one after the other, with a ladder of labels that gives back what
has been taken when one of them fails. `pcie_hw_shutdown` gives back everything.

* `pcieMakePdev`, `pcieBuildDevList` — the list of records, bus by bus.
* `pcieHwInit`, `pcieHwShutdown` — the calls. -/

namespace BcmPcie

open Computations

variable {σ : Type}

/-! ## The records of the clients -/

/-- `struct pci_dev` of openpci, as far as it is filled. -/
structure PciDev where
  /-- Device and function on the bus, in 5 and 3 bits. -/
  devfn : BitVec 8
  vendor : BitVec 16
  device : BitVec 16
  devclass : BitVec 32
  irq : BitVec 32
  /-- Where the CPU sees a BAR, and what the BAR has answered when it was sized. -/
  baseAddress : ℕ → BitVec 32 := fun _ => 0
  baseSize : ℕ → BitVec 32 := fun _ => 0
  /-- The core's record of the function. -/
  reserved : PciDevice

/-- The loop of `pcie_make_pdev` over the BARs, from slot `i` on. It moves on at least one slot a round,
so `barsNum` rounds are enough. -/
def pdevBars (idev : PciDevice) : (rounds i : ℕ) → PciDev → PciDev
  | 0, _, pdev => pdev
  | rounds + 1, i, pdev =>
    if idev.barsNum ≤ i then pdev
    else if (idev.bars i).present = false then pdevBars idev rounds (i + 1) pdev
    else
      let pdev := { pdev with
        baseSize := Function.update pdev.baseSize i (idev.bars i).barResponse
        baseAddress := Function.update pdev.baseAddress i ((idev.bars i).virtAddr.getD 0) }
      pdevBars idev rounds (i + if (idev.bars i).is64 then 2 else 1) pdev

/-- `pcie_make_pdev`, behind its `AllocMem`. -/
def pcieMakePdev (idev : PciDevice) : PciDev :=
  pdevBars idev idev.barsNum 0
    { devfn := BitVec.ofNat 8 (pciDev idev.devfn <<< 3 ||| pciFunc idev.devfn)
      vendor := idev.vendor
      device := idev.device
      devclass := idev.classCode
      irq := idev.intx.pinRouted.setWidth 32
      reserved := idev }

/-! ## The buses of a controller -/

/-- The buses behind `bridges` and the functions of their bus, in the order they were created. -/
def busesBehind (bridges : List PciDevice) : Forest ConfiguredFunction → List PciBus
  | .nil => []
  | .node f children siblings =>
    match f.secondary with
    | none => busesBehind bridges siblings
    | some bus =>
      { busNumber := bus.number
        busNumberLastSub := bus.lastSub
        bridges := f.dev :: bridges
        devices := children.roots.map ConfiguredFunction.dev } ::
      (busesBehind (f.dev :: bridges) children ++ busesBehind bridges siblings)

/-- `ctrl->buses` after a scan of the root bus. -/
def ctrlBuses (root : PciBus) (functions : Forest ConfiguredFunction) : List PciBus :=
  { root with devices := functions.roots.map ConfiguredFunction.dev } :: busesBehind [] functions

/-- `pci_get_bus`. -/
def pciGetBus (buses : List PciBus) (busnum : ℕ) : Option PciBus :=
  buses.find? fun bus => bus.busNumber = busnum

/-- `pci_get_bus_max`. -/
def pciGetBusMax (buses : List PciBus) : ℤ :=
  buses.foldl (fun ret bus => if ret < 0 ∨ ret < bus.busNumber then (bus.busNumber : ℤ) else ret) (-1)

/-! ## State -/

/-- What `pcie_hw_init` works on: the fields of `PCIELibBase` that stand for the controller. -/
structure HwState (σ : Type) where
  /-- The controller, with the machine and the memory behind it. -/
  rc : RcState σ
  /-- `ctrl` is not `NULL`. -/
  ctrl : Bool := false
  /-- `rootBus` is not `NULL`. -/
  rootBus : Bool := false
  /-- The list from `devListHead` on. -/
  devList : List PciDev := []
  ctrlReady : Bool := false
  /-- `dmaPool` is not `NULL`. -/
  dmaPool : Bool := false

/-- A phase of `pcie_hw_init`, which may fail; what it has changed by then stays changed. -/
abbrev HwM (σ : Type) : Type → Type := EStateM Errno (HwState σ)

/-- A call of the back-end on the controller. -/
def onCtrl {α : Type} (x : ProbeM σ α) : HwM σ α := zoom HwState.rc (fun rc s => { s with rc := rc }) x

/-- A call of the core on the controller. -/
def onScan {α : Type} (x : EnumM σ α) : HwM σ α :=
  zoom (fun s => ⟨s.rc.pcie, s.rc.memory⟩)
    (fun st s => { s with rc := { s.rc with pcie := st.pcie, memory := st.memory } }) x

/-- A block is allocated, or the phase fails. -/
def allocBlock (r : Resource) : ProbeM σ Unit := do
  let met ← acquire r
  require (met = true) .enomem

/-- A block is freed. -/
def HwState.free (r : Resource) (s : HwState σ) : HwState σ :=
  { s with rc := { s.rc with memory := s.rc.memory.release r } }

/-- A controller that has just been allocated: `MEMF_CLEAR`, in the machine as it is. -/
def RcState.cleared (rc : RcState σ) : RcState σ where
  pcie := { msi := ⟨0, fun _ => none, 0⟩, intr2 := rc.pcie.intr2, gic400 := rc.pcie.gic400 }
  regs := rc.regs
  memory := rc.memory

/-! ## The list of records -/

/-- A round of the inner loop of `pcie_build_dev_list`. -/
def addPdev (idev : PciDevice) : HwM σ Unit := do
  onCtrl (allocBlock .pciDev)
  modify fun s => { s with devList := s.devList ++ [pcieMakePdev idev] }

/-- `pcie_build_dev_list`, for an empty list. -/
def pcieBuildDevList (buses : List PciBus) : HwM σ Unit :=
  (List.range (pciGetBusMax buses + 1).toNat).forM fun busIndex =>
    match pciGetBus buses busIndex with
    | none => pure ()
    | some bus => bus.devices.forM addPdev

/-- `pcie_free_dev_list`. -/
def pcieFreeDevList (s : HwState σ) : HwState σ :=
  { s.devList.foldl (fun s _ => s.free .pciDev) s with devList := [] }

/-! ## The calls -/

/-- `ctrl` is freed. -/
def HwState.freeCtrl (s : HwState σ) : HwState σ := { s.free .controller with ctrl := false }

/-- `brcm_pcie_remove` of `ctrl`. -/
def HwState.removeCtrl [Gic400 σ] (plat : Platform) (s : HwState σ) : HwState σ :=
  { s with rc := brcmPcieRemove plat s.rc }

/-- `rootBus` is freed. -/
def HwState.freeRootBus (s : HwState σ) : HwState σ := { s.free .rootBus with rootBus := false }

/-- `dmaPool` is deleted, if there is one. -/
def HwState.deletePool (s : HwState σ) : HwState σ :=
  if s.dmaPool then { s.free .dmaPool with dmaPool := false } else s

/-- The label `err_dev_list`, up to the next. -/
def HwState.errDevList (s : HwState σ) : HwState σ := (pcieFreeDevList s).freeRootBus

/-- The label `err_dma_pool`, up to the next. -/
def HwState.errDmaPool (s : HwState σ) : HwState σ := { s with ctrlReady := false }

/-- The last phase: the DMA pool. -/
def createPool : HwM σ Unit := do
  modify fun s => { s with ctrlReady := true }
  onError HwState.errDmaPool do
    onCtrl (allocBlock .dmaPool)
    modify fun s => { s with dmaPool := true }

/-- The phases with a root bus: the scan and the list of records. The firmware of the VL805 is reloaded
in between, and whether that works is not asked. -/
def scanBuses (functions : Forest HwFunction) : HwM σ Unit := do
  let (root, configured) ← onScan (enumerate functions)
  pcieBuildDevList (ctrlBuses root configured)
  createPool

/-- The phases with a controller that runs; behind them is the label `err_dev_list`. -/
def createRootBus (functions : Forest HwFunction) : HwM σ Unit := do
  onCtrl (allocBlock .rootBus)
  modify fun s => { s with rootBus := true }
  onError HwState.errDevList (scanBuses functions)

/-- The phases with memory for a controller; behind them is the label `err_root_bus`. -/
def probeController [Gic400 σ] (plat : Platform) (functions : Forest HwFunction) : HwM σ Unit := do
  onCtrl (brcmPcieProbe plat 0)
  onError (HwState.removeCtrl plat) (createRootBus functions)

/-- All phases; behind them is the label `err_probe`. -/
def bringUp [Gic400 σ] (plat : Platform) (functions : Forest HwFunction) : HwM σ Unit := do
  onCtrl (allocBlock .controller)
  modify fun s => { s with rc := s.rc.cleared, ctrl := true }
  onError HwState.freeCtrl (probeController plat functions)

/-- `pcie_hw_init`, of a machine with these functions on its root bus. -/
def pcieHwInit [Gic400 σ] (plat : Platform) (functions : Forest HwFunction) (s : HwState σ) :
    ℤ × HwState σ :=
  match bringUp plat functions s with
  | .ok _ s => (0, s)
  | .error _ s => (-1, s)

/-- `pcie_hw_shutdown`. -/
def pcieHwShutdown [Gic400 σ] (plat : Platform) (s : HwState σ) : HwState σ :=
  let s := ((pcieFreeDevList s).removeCtrl plat).freeRootBus.freeCtrl.deletePool
  { s with ctrlReady := false }

end BcmPcie
