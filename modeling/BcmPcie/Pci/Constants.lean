import Mathlib.Algebra.Ring.Nat

/-! # Register offsets and fields of PCI configuration space

The constants of `pci_constants.h`, `pci.h` and `bcm2711.h` that the modelled functions use: byte
offsets are natural numbers, register values and masks are bit vectors of the register's width. All
are reducible, and unfold under `simp`. -/

namespace BcmPcie

/-! ## Standard header -/

@[simp] abbrev pciVendorId : ℕ := 0x00
@[simp] abbrev pciDeviceId : ℕ := 0x02
@[simp] abbrev pciCommand : ℕ := 0x04
@[simp] abbrev pciStatus : ℕ := 0x06
@[simp] abbrev pciClassRevision : ℕ := 0x08
@[simp] abbrev pciRevisionId : ℕ := 0x08
@[simp] abbrev pciClassDevice : ℕ := 0x0a
@[simp] abbrev pciCacheLineSize : ℕ := 0x0c
@[simp] abbrev pciLatencyTimer : ℕ := 0x0d
@[simp] abbrev pciHeaderType : ℕ := 0x0e
@[simp] abbrev pciBaseAddress0 : ℕ := 0x10
@[simp] abbrev pciSubsystemVendorId : ℕ := 0x2c
@[simp] abbrev pciSubsystemId : ℕ := 0x2e
/-- Expansion ROM register of a type 0 header. -/
@[simp] abbrev pciRomAddress : ℕ := 0x30
/-- Expansion ROM register of a type 1 header. -/
@[simp] abbrev pciRomAddress1 : ℕ := 0x38
@[simp] abbrev pciInterruptLine : ℕ := 0x3c
@[simp] abbrev pciInterruptPin : ℕ := 0x3d
@[simp] abbrev pciCapabilityList : ℕ := 0x34
@[simp] abbrev pciCbCapabilityList : ℕ := 0x14
@[simp] abbrev pciStdHeaderSizeof : ℕ := 64

@[simp] abbrev pciCommandIo : BitVec 16 := 0x0001#16
@[simp] abbrev pciCommandMemory : BitVec 16 := 0x0002#16
@[simp] abbrev pciCommandMaster : BitVec 16 := 0x0004#16
/-- INTx emulation disable. -/
@[simp] abbrev pciCommandIntxDisable : BitVec 16 := 0x0400#16
/-- The function has a capability list. -/
@[simp] abbrev pciStatusCapList : BitVec 16 := 0x0010#16
@[simp] abbrev pciHeaderTypeNormal : ℕ := 0
@[simp] abbrev pciHeaderTypeBridge : ℕ := 1
@[simp] abbrev pciHeaderTypeCardbus : ℕ := 2

@[simp] abbrev pciClassDisplayVga : BitVec 16 := 0x0300#16
@[simp] abbrev pciClassBridgePci : BitVec 16 := 0x0604#16

/-! ## Base addresses -/

/-- Set for I/O, clear for memory. -/
@[simp] abbrev pciBaseAddressSpace : BitVec 32 := 0x00000001#32
@[simp] abbrev pciBaseAddressMemTypeMask : BitVec 32 := 0x00000006#32
@[simp] abbrev pciBaseAddressMemType64 : BitVec 32 := 0x00000004#32
@[simp] abbrev pciBaseAddressMemPrefetch : BitVec 32 := 0x00000008#32
@[simp] abbrev pciBaseAddressMemMask : BitVec 32 := 0xfffffff0#32
@[simp] abbrev pciBaseAddressIoMask : BitVec 32 := 0xfffffffc#32

/-! ## PCI-to-PCI bridges -/

@[simp] abbrev pciPrimaryBus : ℕ := 0x18
@[simp] abbrev pciSecondaryBus : ℕ := 0x19
@[simp] abbrev pciSubordinateBus : ℕ := 0x1a
@[simp] abbrev pciIoBase : ℕ := 0x1c
@[simp] abbrev pciIoLimit : ℕ := 0x1d
@[simp] abbrev pciMemoryBase : ℕ := 0x20
@[simp] abbrev pciMemoryLimit : ℕ := 0x22
@[simp] abbrev pciPrefMemoryBase : ℕ := 0x24
@[simp] abbrev pciPrefMemoryLimit : ℕ := 0x26
@[simp] abbrev pciPrefBaseUpper32 : ℕ := 0x28
@[simp] abbrev pciPrefLimitUpper32 : ℕ := 0x2c
@[simp] abbrev pciIoBaseUpper16 : ℕ := 0x30
@[simp] abbrev pciIoLimitUpper16 : ℕ := 0x32

@[simp] abbrev pciIoRangeTypeMask : BitVec 8 := 0x0f#8
@[simp] abbrev pciIoRangeType32 : BitVec 8 := 0x01#8
@[simp] abbrev pciIoRangeMask : BitVec 32 := 0xfffffff0#32
@[simp] abbrev pciMemoryRangeMask : BitVec 32 := 0xfffffff0#32
@[simp] abbrev pciPrefRangeTypeMask : BitVec 16 := 0x000f#16
@[simp] abbrev pciPrefRangeType64 : BitVec 16 := 0x0001#16
@[simp] abbrev pciPrefRangeMask : BitVec 32 := 0xfffffff0#32

/-- Granularity of a bridge's memory windows. -/
@[simp] abbrev configPciBridgeMemAlignment : BitVec 32 := 0x100000#32

/-! ## Address regions -/

@[simp] abbrev pciRegionMem : BitVec 32 := 0x00000000#32
@[simp] abbrev pciRegionIo : BitVec 32 := 0x00000001#32
@[simp] abbrev pciRegionType : BitVec 32 := 0x00000001#32
@[simp] abbrev pciRegionPrefetch : BitVec 32 := 0x00000008#32
@[simp] abbrev pciRegionSysMemory : BitVec 32 := 0x00000100#32

/-! ## Capabilities -/

@[simp] abbrev pciCapIdMsi : ℕ := 0x05
@[simp] abbrev pciCapIdExp : ℕ := 0x10
@[simp] abbrev pciCapIdMsix : ℕ := 0x11
/-- Bound on the walk of the capability list. -/
@[simp] abbrev pciFindCapTtl : ℕ := 0x48

/-- Where the extended capabilities start, and where the space ends. -/
@[simp] abbrev pciCfgSpaceSize : ℕ := 0x100
@[simp] abbrev pciCfgSpaceExpSize : ℕ := 0x1000

/-! ## PCI Express -/

@[simp] abbrev pciExpFlags : ℕ := 0x02
@[simp] abbrev pciExpDevcap : ℕ := 0x04
@[simp] abbrev pciExpDevctl : ℕ := 0x08
@[simp] abbrev pciExpLnkcap : ℕ := 0x0c
@[simp] abbrev pciExpLnkctl : ℕ := 0x10
@[simp] abbrev pciExpLnksta : ℕ := 0x12
@[simp] abbrev pciExpLnkctl2 : ℕ := 0x30

/-- The function can be reset by itself. -/
@[simp] abbrev pciExpDevcapFlr : BitVec 32 := 0x10000000#32
/-- Starts a reset of the function. -/
@[simp] abbrev pciExpDevctlBcrFlr : BitVec 16 := 0x8000#16
@[simp] abbrev pciExpFlagsVers : BitVec 16 := 0x000f#16
@[simp] abbrev pciExpFlagsType : BitVec 16 := 0x00f0#16
@[simp] abbrev pciExpTypeRootPort : BitVec 16 := 0x4#16
@[simp] abbrev pciExpTypeDownstream : BitVec 16 := 0x6#16
@[simp] abbrev pciExpTypePcieBridge : BitVec 16 := 0x8#16
/-- Supported link speeds. -/
@[simp] abbrev pciExpLnkcapSls : BitVec 32 := 0x0000000f#32
@[simp] abbrev pciExpLnkcapSls25gb : BitVec 32 := 0x00000001#32
/-- Retrain link. -/
@[simp] abbrev pciExpLnkctlRl : BitVec 16 := 0x0020#16
/-- Link training. -/
@[simp] abbrev pciExpLnkstaLt : BitVec 16 := 0x0800#16
/-- Data link layer active. -/
@[simp] abbrev pciExpLnkstaDllla : BitVec 16 := 0x2000#16
/-- Bandwidth management status: the hardware has changed speed or width. -/
@[simp] abbrev pciExpLnkstaLbms : BitVec 16 := 0x4000#16
/-- Target link speed. -/
@[simp] abbrev pciExpLnkctl2Tls : BitVec 16 := 0x000f#16
@[simp] abbrev pciExpLnkctl2Tls25gt : BitVec 16 := 0x0001#16

/-- Root control and root capabilities, with their bits for CRS software visibility. -/
@[simp] abbrev pciExpRtctl : ℕ := 0x1c
@[simp] abbrev pciExpRtctlCrssve : BitVec 16 := 0x0010#16
@[simp] abbrev pciExpRtcap : ℕ := 0x1e
@[simp] abbrev pciExpRtcapCrsvis : BitVec 16 := 0x0001#16

/-! ## Message Signalled Interrupts -/

@[simp] abbrev pciMsiFlags : ℕ := 0x02
@[simp] abbrev pciMsiAddressLo : ℕ := 0x04
@[simp] abbrev pciMsiAddressHi : ℕ := 0x08
@[simp] abbrev pciMsiData32 : ℕ := 0x08
@[simp] abbrev pciMsiMask32 : ℕ := 0x0c
@[simp] abbrev pciMsiData64 : ℕ := 0x0c
@[simp] abbrev pciMsiMask64 : ℕ := 0x10

@[simp] abbrev pciMsiFlagsEnable : BitVec 16 := 0x0001#16
/-- Multiple Message Capable: log2 of the vectors the device can use. -/
@[simp] abbrev pciMsiFlagsQmask : BitVec 16 := 0x000e#16
/-- Multiple Message Enable: log2 of the vectors it has been given. -/
@[simp] abbrev pciMsiFlagsQsize : BitVec 16 := 0x0070#16
@[simp] abbrev pciMsiFlags64bit : BitVec 16 := 0x0080#16
@[simp] abbrev pciMsiFlagsMaskbit : BitVec 16 := 0x0100#16

/-! ## MSI-X -/

@[simp] abbrev pciMsixFlags : ℕ := 0x02
@[simp] abbrev pciMsixTable : ℕ := 0x04
@[simp] abbrev pciMsixFlagsQsize : BitVec 16 := 0x07ff#16
@[simp] abbrev pciMsixFlagsMaskall : BitVec 16 := 0x4000#16
@[simp] abbrev pciMsixFlagsEnable : BitVec 16 := 0x8000#16
@[simp] abbrev pciMsixTableBir : BitVec 32 := 0x00000007#32
@[simp] abbrev pciMsixTableOffset : BitVec 32 := 0xfffffff8#32

@[simp] abbrev pciMsixEntrySize : ℕ := 16
@[simp] abbrev pciMsixEntryLowerAddr : ℕ := 0x00
@[simp] abbrev pciMsixEntryUpperAddr : ℕ := 0x04
@[simp] abbrev pciMsixEntryData : ℕ := 0x08
@[simp] abbrev pciMsixEntryVectorCtrl : ℕ := 0x0c
@[simp] abbrev pciMsixEntryCtrlMaskbit : BitVec 32 := 0x00000001#32

/-! ## Interrupt types and the root complex -/

@[simp] abbrev pciIrqIntx : BitVec 32 := 0x1#32
@[simp] abbrev pciIrqMsi : BitVec 32 := 0x2#32
@[simp] abbrev pciIrqMsix : BitVec 32 := 0x4#32

/-- Width of the controller's MSI demux, and so of the slot pool. -/
@[simp] abbrev msiMaxVectors : ℕ := 32

/-- The doorbell's data filter: mask in the upper half, value in the lower. -/
@[simp] abbrev pcieMiscMsiDataConfigVal32 : BitVec 32 := 0xffe06540#32

/-- The doorbell address, where the root complex takes a memory write for a message. -/
@[simp] abbrev brcmMsiTargetAddrLt4gb : BitVec 32 := 0xfffffffc#32

/-! ## The root complex -/

/-- The root port's PCI Express capability. -/
@[simp] abbrev brcmPcieCapRegs : ℕ := 0x00ac
@[simp] abbrev pcieRcCfgVendorVendorSpecificReg1 : ℕ := 0x0188
@[simp] abbrev endianModeBar2Mask : BitVec 32 := 0xc#32
@[simp] abbrev vendorSpecificReg1LittleEndian : BitVec 32 := 0x0#32
@[simp] abbrev pcieRcCfgPriv1IdVal3 : ℕ := 0x043c
@[simp] abbrev idVal3ClassCodeMask : BitVec 32 := 0xffffff#32
@[simp] abbrev pcieRcCfgPriv1LinkCapability : ℕ := 0x04dc
@[simp] abbrev linkCapabilityAspmSupportMask : BitVec 32 := 0xc00#32

@[simp] abbrev pcieRcDlMdioAddr : ℕ := 0x1100
@[simp] abbrev pcieRcDlMdioWrData : ℕ := 0x1104
@[simp] abbrev mdioPort0 : BitVec 32 := 0x0#32
@[simp] abbrev mdioDataMask : BitVec 32 := 0x7fffffff#32
@[simp] abbrev mdioPortMask : BitVec 32 := 0xf0000#32
@[simp] abbrev mdioRegadMask : BitVec 32 := 0xffff#32
@[simp] abbrev mdioCmdMask : BitVec 32 := 0xfff00000#32
@[simp] abbrev mdioCmdRead : BitVec 32 := 0x1#32
@[simp] abbrev mdioCmdWrite : BitVec 32 := 0x0#32
@[simp] abbrev mdioDataDoneMask : BitVec 32 := 0x80000000#32
@[simp] abbrev sscRegsAddr : BitVec 16 := 0x1100#16
@[simp] abbrev setAddrOffset : BitVec 32 := 0x1f#32
@[simp] abbrev sscCntlOffset : BitVec 32 := 0x2#32
@[simp] abbrev sscCntlOvrdEnMask : BitVec 32 := 0x8000#32
@[simp] abbrev sscCntlOvrdValMask : BitVec 32 := 0x4000#32
@[simp] abbrev sscStatusOffset : BitVec 32 := 0x1#32
@[simp] abbrev sscStatusSscMask : BitVec 32 := 0x400#32
@[simp] abbrev sscStatusPllLockMask : BitVec 32 := 0x800#32

@[simp] abbrev pcieMiscMiscCtrl : ℕ := 0x4008
@[simp] abbrev miscCtrlScbAccessEnMask : BitVec 32 := 0x1000#32
@[simp] abbrev miscCtrlCfgReadUrModeMask : BitVec 32 := 0x2000#32
@[simp] abbrev miscCtrlMaxBurstSizeMask : BitVec 32 := 0x300000#32
@[simp] abbrev miscCtrlMaxBurstSize128 : BitVec 32 := 0x0#32
@[simp] abbrev miscCtrlScb0SizeMask : BitVec 32 := 0xf8000000#32
@[simp] abbrev miscCtrlPcieRcbMpsModeMask : BitVec 32 := 0x400#32
@[simp] abbrev miscCtrlPcieRcb64bModeMask : BitVec 32 := 0x80#32
@[simp] abbrev pcieMiscRcBar1ConfigLo : ℕ := 0x402c
@[simp] abbrev rcBar1ConfigLoSizeMask : BitVec 32 := 0x1f#32
@[simp] abbrev pcieMiscRcBar3ConfigLo : ℕ := 0x403c
@[simp] abbrev rcBar3ConfigLoSizeMask : BitVec 32 := 0x1f#32
@[simp] abbrev pcieMiscMsiBarConfigLo : ℕ := 0x4044
@[simp] abbrev pcieMiscMsiBarConfigHi : ℕ := 0x4048
@[simp] abbrev pcieMiscMsiDataConfig : ℕ := 0x404c
@[simp] abbrev statusPciePortMask : BitVec 32 := 0x80#32
@[simp] abbrev statusPcieDlActiveMask : BitVec 32 := 0x20#32
@[simp] abbrev statusPciePhylinkupMask : BitVec 32 := 0x10#32
@[simp] abbrev pcieMiscHardPcieHardDebug : ℕ := 0x4204
@[simp] abbrev pcieHardDebugSerdesIddqMask : BitVec 32 := 0x8000000#32
@[simp] abbrev pcieRgr1SwInit1 : ℕ := 0x9210
@[simp] abbrev pcieRgr1SwInit1InitMask : BitVec 32 := 0x2#32
@[simp] abbrev pcieRgr1SwInit1PerstMask : BitVec 32 := 0x1#32

@[simp] abbrev pcieMiscCpu2PcieMemWin0Lo : ℕ := 0x400c
@[simp] abbrev pcieMiscCpu2PcieMemWin0Hi : ℕ := 0x4010
@[simp] abbrev pcieMiscRcBar2ConfigLo : ℕ := 0x4034
@[simp] abbrev rcBar2ConfigLoSizeMask : BitVec 32 := 0x1f#32
@[simp] abbrev pcieMiscRcBar2ConfigHi : ℕ := 0x4038
@[simp] abbrev pcieMiscCpu2PcieMemWin0BaseLimit : ℕ := 0x4070
@[simp] abbrev memWin0BaseLimitLimitMask : BitVec 32 := 0xfff00000#32
@[simp] abbrev memWin0BaseLimitBaseMask : BitVec 32 := 0xfff0#32
@[simp] abbrev memWin0BaseLimitBaseHiShift : ℕ := 12
@[simp] abbrev pcieMiscCpu2PcieMemWin0BaseHi : ℕ := 0x4080
@[simp] abbrev memWin0BaseHiBaseMask : BitVec 32 := 0xff#32
@[simp] abbrev pcieMiscCpu2PcieMemWin0LimitHi : ℕ := 0x4084
@[simp] abbrev pcieMemWin0LimitHiLimitMask : BitVec 32 := 0xff#32
/-- Outbound windows of the controller. -/
@[simp] abbrev brcmNumPcieOutWins : ℕ := 4
/-- The oldest revision of the controller that is supported. -/
@[simp] abbrev brcmPcieHwRev33 : BitVec 32 := 0x0303#32
@[simp] abbrev sz1M : ℕ := 0x100000
@[simp] abbrev sz64M : BitVec 32 := 0x4000000#32

/-- Fast RAM regions that are told the address translation. -/
@[simp] abbrev configNrDramBanks : ℕ := 4
/-- The bus address of CPU address 0 in the inbound window, and the CPU address the window stops
at. -/
@[simp] abbrev pcieDmaWinBase : BitVec 64 := 0#64
@[simp] abbrev pcieDmaWinEnd : BitVec 64 := 0x80000000#64

/-! ## The device tree -/

/-- The attribute cell in front of a PCI address. -/
@[simp] abbrev dtPciAttrCells : ℕ := 1
@[simp] abbrev dtPciAttrSpace : BitVec 32 := 0x03000000#32
@[simp] abbrev dtPciSpaceIo : BitVec 32 := 0x01000000#32
@[simp] abbrev dtPciSpaceMem32 : BitVec 32 := 0x02000000#32
@[simp] abbrev dtPciSpaceMem64 : BitVec 32 := 0x03000000#32
@[simp] abbrev dtPciAttrPrefetch : BitVec 32 := 0x40000000#32
/-- The widest values of the library's address types. -/
@[simp] abbrev pciAddrMax : BitVec 64 := 0xffffffff#64
@[simp] abbrev physAddrMax : BitVec 64 := 0xffffffffffffffff#64
/-- Exec's attribute of Fast RAM. -/
@[simp] abbrev memfFast : BitVec 32 := 0x00000004#32

@[simp] abbrev pcieGicPriority : ℕ := 0
@[simp] abbrev pcieGicEdge : Bool := false

end BcmPcie
