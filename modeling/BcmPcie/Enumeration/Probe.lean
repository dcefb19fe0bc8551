import BcmPcie.Enumeration.Bridge
import BcmPcie.Library.Forest
import BcmPcie.Library.Ledger

/-! # Enumeration

The scan of `pci_probe.c`, bus by bus: `pci_bind_bus_devices` looks at every address of a bus and
creates a record for every function that answers, `pci_auto_config_devices` sets the functions up one
after the other, and on the way recurses into the bus behind a bridge (`pciauto_config_device`,
`pci_probe_bus`).

The hardware is the forest of the functions on a bus and of those behind its bridges; the bus numbers
written to a bridge make its subtree answer, so a bus is probed by looking at the children of its
bridge. What is left of the core's records at the end is a forest as well.

* `EnumM` — the core's functions: a controller and a memory they change, an error they may return.
* `pciAutoConfigDevices`, `enumerate` — the scan of a bus and of everything behind it. -/

namespace BcmPcie

/-! ## Hardware -/

/-- A function as the hardware has it, before the scan. -/
structure HwFunction where
  /-- Its device and function number on the bus. -/
  device : ℕ
  function : ℕ
  cfg : RegisterFile 4096
  tableMem : ℕ → BitVec 32 := fun _ => 0
  /-- The link below it, if it is a port. -/
  link : LinkAnswers := {}

/-- `PCI_BDF`. -/
def pciBdf (bus device function : ℕ) : ℕ := bus * 65536 + (device * 2048 + function * 256)

/-- The function that answers configuration cycles to an address of a bus with these functions: on
bus 0 it is the root complex whatever the function number, and there and on the bus of its link no
other device is addressed. The link is up, or `brcm_pcie_probe` would have failed. -/
def respond (functions : List HwFunction) (busNumber device function : ℕ) : Option HwFunction :=
  if busNumber < 2 ∧ 0 < device then none
  else if busNumber = 0 then functions.head?
  else functions.find? fun f => f.device = device ∧ f.function = function

/-! ## Records and memory -/

/-- What the library and the core hold of the system's resources: memory blocks by what they are for,
an open library, a registered interrupt server. -/
inductive Resource
  | controller | regions | gic400 | demuxServer | rootBus | bus | device | pciDev | dmaPool
  deriving DecidableEq, Repr

/-- `pci_bus`: its bridges are the one it is behind and the ones above, the nearest first. -/
structure PciBus where
  busNumber : ℕ := 0
  /-- The highest bus number behind it. -/
  busNumberLastSub : ℕ := 0
  bridges : List PciDevice := []
  devices : List PciDevice := []

/-- The number of a bus, and the highest number behind it. -/
structure BusNumbers where
  number : ℕ
  lastSub : ℕ
  deriving DecidableEq, Repr

/-- A function at the end of the scan, with the numbers of the bus behind it if it is a bridge. -/
structure ConfiguredFunction where
  dev : PciDevice
  secondary : Option BusNumbers := none

/-- What the core works on while it scans. -/
structure EnumState (σ : Type) where
  pcie : PciController σ
  memory : Ledger Resource

/-- A function of the core that may fail; what it has changed by then stays changed. -/
abbrev EnumM (σ : Type) : Type → Type := EStateM Errno (EnumState σ)

variable {σ : Type}

/-- `AllocMem` of a block, or `-ENOMEM`. -/
def allocMem (r : Resource) : EnumM σ Unit := do
  let st ← get
  let (met, memory) := st.memory.acquire r
  set { st with memory := memory }
  if met then pure () else throw .enomem

/-- A change of the controller. -/
def modifyController (f : PciController σ → PciController σ) : EnumM σ Unit :=
  modify fun st => { st with pcie := f st.pcie }

/-! ## Finding the functions of a bus -/

/-- The BAR slots of a header type. -/
def headerBars (headerType : ℕ) : ℕ :=
  if headerType = pciHeaderTypeNormal then 6 else if headerType = pciHeaderTypeBridge then 2 else 0

/-- The record of a function that answers as `hw`, in `pci_create_device`. -/
def newDevice (hw : HwFunction) (bdf : ℕ) (vendor device : BitVec 16) (classCode : BitVec 32)
    (headerType : ℕ) : PciDevice :=
  let dev : PciDevice :=
    { cfg := hw.cfg, tableMem := hw.tableMem, bdf := bdf, devfn := pciMaskBus bdf, vendor := vendor,
      device := device, classCode := classCode, headerType := headerType,
      barsNum := headerBars headerType }
  { dev with
    revision := pciReadConfig8 dev pciRevisionId
    subsysVendor := pciReadConfig16 dev pciSubsystemVendorId
    subsysId := pciReadConfig16 dev pciSubsystemId }

/-- `pci_create_device`: the record goes to the end of the list of its bus. -/
def pciCreateDevice (hw : HwFunction) (bus : PciBus) (bdf : ℕ) (vendor device : BitVec 16)
    (classCode : BitVec 32) (headerType : ℕ) : EnumM σ PciBus := do
  allocMem .device
  pure { bus with
    devices := bus.devices ++ [newDevice hw bdf vendor device classCode headerType] }

/-- `pci_bus_find_devfn`. -/
def pciBusFindDevfn (bus : PciBus) (devfn : ℕ) : Option PciDevice :=
  bus.devices.find? fun dev => dev.devfn = devfn

/-- One round of the loop of `pci_bind_bus_devices`, for address `i` of the bus; `found_multi` says
whether the functions behind function 0 of the device are to be looked at. -/
def bindFunction (functions : List HwFunction) (st : Bool × PciBus) (i : ℕ) :
    EnumM σ (Bool × PciBus) := do
  let (foundMulti, bus) := st
  let device := i / 8
  let function := i % 8
  let bdf := pciBdf bus.busNumber device function
  let foundMulti := if function = 0 then false else foundMulti
  if function ≠ 0 ∧ foundMulti = false then pure (foundMulti, bus)
  else
    match respond functions bus.busNumber device function with
    | none => pure (foundMulti, bus)
    | some hw =>
      let vendor := hw.cfg.read 16 pciVendorId
      if vendor = 0xffff#16 ∨ vendor = 0 then pure (foundMulti, bus)
      else
        let headerType := (hw.cfg.read 8 pciHeaderType).toNat
        let foundMulti := if function = 0 then decide (128 ≤ headerType) else foundMulti
        let device := hw.cfg.read 16 pciDeviceId
        let classCode := hw.cfg.read 32 pciClassRevision >>> 8
        match pciBusFindDevfn bus (pciMaskBus bdf) with
        | some _ => pure (foundMulti, bus)
        | none => do
          let bus ← pciCreateDevice hw bus bdf vendor device classCode (headerType % 128)
          pure (foundMulti, bus)

/-- `pci_bind_bus_devices`: all 32 devices of a bus, with their 8 functions. -/
def pciBindBusDevices (functions : List HwFunction) (bus : PciBus) : EnumM σ PciBus := do
  let (_, bus) ← (List.range 256).foldlM (bindFunction functions) (false, bus)
  pure bus

/-! ## The recursion over the buses -/

/-- A bus number is given out. -/
def PciController.nextBus (pcie : PciController σ) : PciController σ :=
  { pcie with busNumberLast := pcie.busNumberLast + 1 }

/-- `pci_create_bus`, for the bus behind `bridge` on `parent`. -/
def pciCreateBus (parent : PciBus) (bridge : PciDevice) : EnumM σ PciBus := do
  allocMem .bus
  pure { bridges := bridge :: parent.bridges }

/-- `pci_probe_bus` of a new bus behind `bridge`, whose port is `hw`; `scan` is
`pci_auto_config_devices` on it. The bridges above have been activated on the way here. -/
def pciProbeBus {τ : Type} (hw : HwFunction) (functions : List HwFunction)
    (scan : PciBus → EnumM σ (PciBus × τ)) (bus : PciBus) (bridge : PciDevice) :
    EnumM σ (PciDevice × PciBus × τ) :=
  if (pciReadConfig8 bridge pciHeaderType).toNat % 128 ≠ pciHeaderTypeBridge then throw .einval
  else do
    modifyController PciController.nextBus
    let pcie := (← get).pcie
    let bus := { bus with busNumber := pcie.busNumberLast, busNumberLastSub := pcie.busNumberLast }
    let prescan :=
      pciautoPrescanSetupBridge pcie bus.busNumber hw.link { bridge with activated := true }
    modifyController fun _ => prescan.1
    let bus ← pciBindBusDevices functions bus
    let (bus, below) ← scan bus
    let pcie := (← get).pcie
    let postscan := pciautoPostscanSetupBridge pcie bus.busNumberLastSub prescan.2
    modifyController fun _ => postscan.1
    pure (postscan.2, bus, below)

/-- `pciauto_config_device` on `bus`: the function as configured, the highest bus number behind it and
what `scan` has found there. A CardBus bridge is set up like any other function. -/
def pciautoConfigDevice (hw : HwFunction) (functions : Forest HwFunction)
    (scan : PciBus → EnumM σ (PciBus × Forest ConfiguredFunction)) (bus : PciBus) (dev : PciDevice) :
    EnumM σ (ConfiguredFunction × ℕ × Forest ConfiguredFunction) := do
  let pcie := (← get).pcie
  let setup := pciautoSetupDevice pcie bus.bridges dev pcie.ptr
  modifyController fun _ => setup.1
  if pciReadConfig16 dev pciClassDevice = pciClassBridgePci then
    let secondary ← pciCreateBus bus setup.2
    let (bridge, secondary, below) ← pciProbeBus hw functions.roots scan secondary setup.2
    pure (⟨bridge, some ⟨secondary.busNumber, secondary.busNumberLastSub⟩⟩,
      secondary.busNumberLastSub, below)
  else pure (⟨setup.2, none⟩, bus.busNumber, .nil)

/-- The loop of `pci_auto_config_devices` over the records of a bus, in the order of their addresses;
`functions` are the functions on it. -/
def configDevices :
    (functions : Forest HwFunction) → (bus : PciBus) → EnumM σ (PciBus × Forest ConfiguredFunction)
  | .nil, bus => pure (bus, .nil)
  | .node hw children siblings, bus =>
    match pciBusFindDevfn bus (pciMaskBus (pciBdf bus.busNumber hw.device hw.function)) with
    | none => configDevices siblings bus
    | some dev => do
      let scan (bus : PciBus) := do
        modifyController pciautoConfigInit
        configDevices children bus
      let (function, subBus, below) ← pciautoConfigDevice hw children scan bus dev
      let bus := { bus with busNumberLastSub := max bus.busNumberLastSub subBus }
      let (bus, rest) ← configDevices siblings bus
      pure (bus, .node function below rest)

/-- `pci_auto_config_devices`. -/
def pciAutoConfigDevices (functions : Forest HwFunction) (bus : PciBus) :
    EnumM σ (PciBus × Forest ConfiguredFunction) := do
  modifyController pciautoConfigInit
  configDevices functions bus

/-- The scan of the root bus, as `pcie_hw_init` runs it on a new root bus. -/
def enumerate (functions : Forest HwFunction) : EnumM σ (PciBus × Forest ConfiguredFunction) := do
  let bus ← pciBindBusDevices functions.roots {}
  pciAutoConfigDevices functions bus

end BcmPcie
