import Mathlib.Logic.Function.Basic
import BcmPcie.Library.RegisterFile
import BcmPcie.Pci.Constants

/-! # Controllers, buses and functions

The records of `pci_types.h`. A C pointer that may be `NULL` is an `Option`; an array indexed by a
slot or a vector is a function of the index. Each record also carries the hardware behind it: a
function its configuration space and the memory its MSI-X table sits in, the root complex its INTR2
status and mask registers, so that a register access is a change of the same state the code's own
fields live in. Fields that no modelled function reads (list nodes, names for the log) are left out.

* `Errno` — the negative results of the core.
* `PciDevice` — one enumerated function, with `DeviceMsi`, `DeviceMsix`, `DeviceIntx`, `IrqAlloc`.
* `PciRegion` — an address window that BARs are taken from.
* `PciController` — the root complex, with its regions, the slot pool and the server table of its MSI
  demux. -/

namespace BcmPcie

/-- The core's failure results (`-EINVAL`, …); a C function that returns a count or one of these is
an `Except Errno`. -/
inductive Errno
  | einval | erange | ebusy | enospc | eio | enodev | enoent | enomem | etimedout
  deriving DecidableEq, Repr

/-- An Exec `struct Interrupt`, known to the code by its address alone. -/
structure Interrupt where
  /-- The address of the node; servers are compared as pointers. -/
  address : BitVec 32
  deriving DecidableEq, Repr

/-- The values of `pci_device.active.mode`. -/
inductive IrqMode
  | idle | intx | msi | msix
  deriving DecidableEq, Repr

/-- The `PCI_IRQ_*` value of a mode, 0 when there is no allocation. -/
def IrqMode.toBits : IrqMode → BitVec 32
  | .idle => 0
  | .intx => pciIrqIntx
  | .msi => pciIrqMsi
  | .msix => pciIrqMsix

/-- `PCI_REGION_MEM` or `PCI_REGION_IO`, the type of a BAR. -/
inductive BarType
  | mem | io
  deriving DecidableEq, Repr

/-- A BAR as auto-configuration left it. -/
structure PciBarInfo where
  present : Bool := false
  type : BarType := .mem
  is64 : Bool := false
  busAddr : BitVec 32 := 0
  size : BitVec 32 := 0
  barResponse : BitVec 32 := 0
  physAddr : BitVec 64 := 0
  virtAddr : Option (BitVec 32) := none
  deriving DecidableEq, Repr

namespace PciBarInfo

variable (bar : PciBarInfo)

/-- `virt_addr` as a number: 0 is `NULL`. -/
def pointer : BitVec 32 := bar.virtAddr.getD 0

/-- The BAR is present and the CPU has an address for it. -/
def Mapped : Prop := bar.present = true ∧ bar.pointer ≠ 0

instance : Decidable bar.Mapped := inferInstanceAs (Decidable (_ ∧ _))

end PciBarInfo

/-- The MSI capability, decoded at probe. -/
structure DeviceMsi where
  /-- Offset of the capability, 0 without one. -/
  capOffset : ℕ := 0
  /-- Shadow of the mask register. -/
  mask : BitVec 32 := 0
  addr64 : Bool := false
  maskable : Bool := false
  /-- log2 of the vectors the device can use. -/
  log2MaxVecs : ℕ := 0
  maskOffset : ℕ := 0
  deriving DecidableEq, Repr

/-- The MSI-X capability and its table, located at probe. -/
structure DeviceMsix where
  /-- Offset of the capability, 0 without one. -/
  capOffset : ℕ := 0
  tableSize : ℕ := 0
  /-- Virtual address of the table, `NULL` when it is unreachable. -/
  tableVirt : Option (BitVec 32) := none
  deriving DecidableEq, Repr

/-- INTx routing. -/
structure DeviceIntx where
  pin : BitVec 8 := 0
  pinRouted : BitVec 8 := 0
  /-- The GIC interrupt of the pin, 0 when it is not routed. -/
  gicIrq : BitVec 32 := 0
  /-- The hint of the obsolete `EnableMSI`. -/
  preferMsi : Bool := false
  deriving DecidableEq, Repr

/-- The live interrupt allocation of a device. -/
structure IrqAlloc where
  mode : IrqMode := .idle
  nvec : ℕ := 0
  /-- The demux slot of each vector (MSI and MSI-X). -/
  slots : ℕ → ℕ := fun _ => 0
  /-- The server registered on the INTx line. -/
  intxServer : Option Interrupt := none

/-- One enumerated function and the hardware it stands for. -/
structure PciDevice where
  /-- The function's configuration space. -/
  cfg : RegisterFile 4096
  /-- Device memory from the MSI-X table on, by byte offset. -/
  tableMem : ℕ → BitVec 32
  msi : DeviceMsi := {}
  msix : DeviceMsix := {}
  intx : DeviceIntx := {}
  active : IrqAlloc := {}
  /-- Bus, device and function: the bus from bit 16, the device from 11, the function from 8. -/
  bdf : ℕ := 0
  /-- The address on the bus: `bdf` without the bus. -/
  devfn : ℕ := 0
  vendor : BitVec 16 := 0
  device : BitVec 16 := 0
  /-- Base class, subclass and programming interface. -/
  classCode : BitVec 32 := 0
  revision : BitVec 8 := 0
  subsysVendor : BitVec 16 := 0
  subsysId : BitVec 16 := 0
  /-- `DM_FLAG_ACTIVATED`: the bus behind the bridge has been probed. -/
  activated : Bool := false
  headerType : ℕ := 0
  barsNum : ℕ := 0
  bars : ℕ → PciBarInfo := fun _ => {}

/-- The MSI demux of a controller: its doorbell, the server of each slot and the reserved slots. -/
structure PcieMsi where
  targetAddr : BitVec 32
  servers : ℕ → Option Interrupt
  /-- Bit `i` is set when slot `i` is reserved. -/
  used : BitVec 32

/-- The demux registers of the root complex. -/
structure Intr2 where
  /-- The latched messages, one bit a slot. -/
  status : BitVec 32
  /-- Bit `i` is set when slot `i` is masked. -/
  mask : BitVec 32
  deriving DecidableEq, Repr

namespace Intr2

/-- A write of `PCIE_MSI_INTR2_CLR`: the written ones clear their status bits. -/
def writeClr (r : Intr2) (v : BitVec 32) : Intr2 := { r with status := r.status &&& ~~~v }

/-- A write of `PCIE_MSI_INTR2_MASK_SET`. -/
def writeMaskSet (r : Intr2) (v : BitVec 32) : Intr2 := { r with mask := r.mask ||| v }

/-- A write of `PCIE_MSI_INTR2_MASK_CLR`. -/
def writeMaskClr (r : Intr2) (v : BitVec 32) : Intr2 := { r with mask := r.mask &&& ~~~v }

@[simp] theorem writeClr_mask (r : Intr2) (v : BitVec 32) : (r.writeClr v).mask = r.mask := rfl

@[simp] theorem writeMaskSet_status (r : Intr2) (v : BitVec 32) :
    (r.writeMaskSet v).status = r.status := rfl

@[simp] theorem writeMaskClr_status (r : Intr2) (v : BitVec 32) :
    (r.writeMaskClr v).status = r.status := rfl

end Intr2

/-- One address window of the controller: a span of bus addresses and where the CPU sees it. -/
structure PciRegion where
  busStart : BitVec 32
  physStart : BitVec 64
  size : BitVec 32
  flags : BitVec 32
  /-- The allocation pointer: the first bus address not handed out. -/
  busLower : BitVec 32 := 0
  deriving DecidableEq, Repr

/-- One PCIe controller. `σ` is the state of `gic400.library`, which it holds open. The three regions
that BARs are taken from are indices into `regions`. -/
structure PciController (σ : Type*) where
  msi : PcieMsi
  intr2 : Intr2
  gic400 : σ
  regions : List PciRegion := []
  pciIo : Option ℕ := none
  pciMem : Option ℕ := none
  pciPrefetch : Option ℕ := none
  busNumberBase : ℕ := 0
  /-- The highest bus number given out. -/
  busNumberLast : ℕ := 0
  /-- The aperture of the CPU onto PCI memory: where it is physically, and where it is mapped. -/
  mmioWindowPhys : BitVec 64 := 0
  mmioWindowVirtual : BitVec 32 := 0
  mmioWindowSize : BitVec 64 := 0
  /-- The GIC interrupt of each INTx pin, 0 when the pin is not connected. -/
  intXMapping : ℕ → BitVec 32 := fun _ => 0

end BcmPcie
