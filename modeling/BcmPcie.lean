import BcmPcie.Boards.Attrs
import BcmPcie.Boards.ClassSearch
import BcmPcie.Boards.DevList
import BcmPcie.Boards.Find
import BcmPcie.Boards.MemWindow
import BcmPcie.Boards.MemorySize
import BcmPcie.Boards.Owner
import BcmPcie.Boards.ReadBack
import BcmPcie.Boards.Reservation
import BcmPcie.Brcmstb.ConfigWindow
import BcmPcie.Brcmstb.DeviceTree
import BcmPcie.Brcmstb.Emu68Common
import BcmPcie.Brcmstb.InterruptMap
import BcmPcie.Brcmstb.Outbound
import BcmPcie.Brcmstb.Probe
import BcmPcie.Brcmstb.ProbeFrame
import BcmPcie.Brcmstb.RangesWalk
import BcmPcie.Brcmstb.RootComplex
import BcmPcie.Enumeration.BarAddresses
import BcmPcie.Enumeration.BarLayout
import BcmPcie.Enumeration.BarRounds
import BcmPcie.Enumeration.BarSizing
import BcmPcie.Enumeration.Bound
import BcmPcie.Enumeration.Bridge
import BcmPcie.Enumeration.BridgeWindows
import BcmPcie.Enumeration.BusNumbers
import BcmPcie.Enumeration.BusScan
import BcmPcie.Enumeration.DeviceBlocks
import BcmPcie.Enumeration.EveryBar
import BcmPcie.Enumeration.HeldRecords
import BcmPcie.Enumeration.InertBars
import BcmPcie.Enumeration.IntxRouting
import BcmPcie.Enumeration.LinkStable
import BcmPcie.Enumeration.MachineWindows
import BcmPcie.Enumeration.Placement
import BcmPcie.Enumeration.Probe
import BcmPcie.Enumeration.RegionCalls
import BcmPcie.Enumeration.RegionState
import BcmPcie.Enumeration.Regions
import BcmPcie.Enumeration.Restart
import BcmPcie.Enumeration.Scan
import BcmPcie.Enumeration.SetupDevice
import BcmPcie.Enumeration.Spans
import BcmPcie.Enumeration.WindowCover
import BcmPcie.Enumeration.WindowExact
import BcmPcie.Fabric.ConfigCycles
import BcmPcie.Fabric.CpuAccess
import BcmPcie.Fabric.Decode
import BcmPcie.Fabric.Delivery
import BcmPcie.Fabric.DuringScan
import BcmPcie.Fabric.Upstream
import BcmPcie.Irq.Attachment
import BcmPcie.Irq.Choice
import BcmPcie.Irq.Controller
import BcmPcie.Irq.DemuxMask
import BcmPcie.Irq.DemuxSteps
import BcmPcie.Irq.DeviceGate
import BcmPcie.Irq.Drivers
import BcmPcie.Irq.EnableBits
import BcmPcie.Irq.Failure
import BcmPcie.Irq.Frame
import BcmPcie.Irq.Intx
import BcmPcie.Irq.IntxGate
import BcmPcie.Irq.LibraryCalls
import BcmPcie.Irq.Msi
import BcmPcie.Irq.Msix
import BcmPcie.Irq.MsixTable
import BcmPcie.Irq.Rebind
import BcmPcie.Irq.Released
import BcmPcie.Irq.Routing
import BcmPcie.Irq.Servers
import BcmPcie.Irq.Service
import BcmPcie.Irq.ServiceRefinement
import BcmPcie.Irq.ServiceView
import BcmPcie.Irq.SlotOwnership
import BcmPcie.Irq.SlotPool
import BcmPcie.Irq.State
import BcmPcie.Irq.Vectors
import BcmPcie.Library.BitFields
import BcmPcie.Library.BitSet
import BcmPcie.Library.BumpAllocator
import BcmPcie.Library.Cells
import BcmPcie.Library.Computations
import BcmPcie.Library.CriticalSections
import BcmPcie.Library.Fabrics
import BcmPcie.Library.Forest
import BcmPcie.Library.Ledger
import BcmPcie.Library.LinkedLists
import BcmPcie.Library.Polling
import BcmPcie.Library.RegisterFile
import BcmPcie.Library.Runs
import BcmPcie.Library.Simulations
import BcmPcie.Library.TagLists
import BcmPcie.Library.Tasks
import BcmPcie.Library.Walks
import BcmPcie.Library.Windows
import BcmPcie.Lifecycle.CachedView
import BcmPcie.Lifecycle.FunctionReset
import BcmPcie.Lifecycle.HwBalance
import BcmPcie.Lifecycle.HwInit
import BcmPcie.Lifecycle.LibNode
import BcmPcie.Lifecycle.Library
import BcmPcie.Lifecycle.SetupView
import BcmPcie.Lifecycle.Shim
import BcmPcie.Lspci.EnhancedAllocation
import BcmPcie.Lspci.Listing
import BcmPcie.Lspci.ProbeDevice
import BcmPcie.Memory.AddressMap
import BcmPcie.Memory.DmaWindow
import BcmPcie.Memory.KnownRanges
import BcmPcie.Memory.Reach
import BcmPcie.Memory.RoundTrip
import BcmPcie.Memory.Translation
import BcmPcie.Pci.Capability
import BcmPcie.Pci.CapabilityWalk
import BcmPcie.Pci.ConfigCycles
import BcmPcie.Pci.ConfigProgram
import BcmPcie.Pci.Constants
import BcmPcie.Pci.Io
import BcmPcie.Pci.Types
