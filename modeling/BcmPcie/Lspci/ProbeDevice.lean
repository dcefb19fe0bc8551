import BcmPcie.Enumeration.BridgeWindows
import BcmPcie.Lspci.EnhancedAllocation
import BcmPcie.Pci.CapabilityWalk

/-! # Probing a function

`probe_pci_device` of `lspci`: what the registers of a function hold, on a bridge also its bus numbers
and windows, and its capabilities. The library finds one capability by its id at a time, and the tool
asks for all ids there are.

* `dumpBridgeConfig`, `probePciDevice` — the functions.
* `probePciDevice_exact` — one line for each id that a walk of the capabilities comes to, at the place
  where it comes to it first; and the windows that a bridge decodes. -/

namespace BcmPcie

open Walks BitFields

/-! ## Bridges -/

def pciSecStatus : ℕ := 0x1e
def pciBridgeControl : ℕ := 0x3e

/-- What is printed of a bridge. -/
structure BridgeConfig where
  primary : BitVec 8
  secondary : BitVec 8
  subordinate : BitVec 8
  secLatency : BitVec 8
  ioType : BitVec 8
  ioBaseAddr : BitVec 32
  ioLimitAddr : BitVec 32
  ioUpper : Option (BitVec 16 × BitVec 16)
  memBaseAddr : BitVec 32
  memLimitAddr : BitVec 32
  prefBaseLow : BitVec 32
  prefLimitLow : BitVec 32
  /-- The upper halves, printed of a window of 64 bits. -/
  prefUpper : Option (BitVec 32 × BitVec 32)
  secStatus : BitVec 16
  bridgeCtrl : BitVec 16
  deriving DecidableEq, Repr

/-- `dump_bridge_config`. -/
def dumpBridgeConfig (dev : PciDevice) : BridgeConfig :=
  let buses := pciReadConfig32 dev pciPrimaryBus
  let ioBase := pciReadConfig8 dev pciIoBase
  let ioLimit := pciReadConfig8 dev pciIoLimit
  let ioBaseUpper := pciReadConfig16 dev pciIoBaseUpper16
  let ioLimitUpper := pciReadConfig16 dev pciIoLimitUpper16
  let memBase := pciReadConfig16 dev pciMemoryBase
  let memLimit := pciReadConfig16 dev pciMemoryLimit
  let prefMemBase := pciReadConfig16 dev pciPrefMemoryBase
  let prefMemLimit := pciReadConfig16 dev pciPrefMemoryLimit
  let prefBaseUpper := pciReadConfig32 dev pciPrefBaseUpper32
  let prefLimitUpper := pciReadConfig32 dev pciPrefLimitUpper32
  let ioBaseAddr := (ioBase &&& 0xf0).setWidth 32 <<< 8
  let ioLimitAddr := (ioLimit &&& 0xf0).setWidth 32 <<< 8 ||| 0xfff
  let io32 := ioBase &&& pciIoRangeTypeMask = pciIoRangeType32
  { primary := (buses &&& 0xff).setWidth 8
    secondary := (buses >>> 8 &&& 0xff).setWidth 8
    subordinate := (buses >>> 16 &&& 0xff).setWidth 8
    secLatency := (buses >>> 24 &&& 0xff).setWidth 8
    ioType := ioBase &&& pciIoRangeTypeMask
    ioBaseAddr := if io32 then ioBaseAddr ||| ioBaseUpper.setWidth 32 <<< 16 else ioBaseAddr
    ioLimitAddr :=
      if io32 then ioLimitUpper.setWidth 32 <<< 16 ||| (ioLimit &&& 0xf0).setWidth 32 <<< 8 ||| 0xfff
      else ioLimitAddr
    ioUpper := if io32 then some (ioBaseUpper, ioLimitUpper) else none
    memBaseAddr := (memBase.setWidth 32 &&& pciMemoryRangeMask) <<< 16
    memLimitAddr := (memLimit.setWidth 32 &&& pciMemoryRangeMask) <<< 16 ||| 0xfffff
    prefBaseLow := (prefMemBase.setWidth 32 &&& pciPrefRangeMask) <<< 16
    prefLimitLow := (prefMemLimit.setWidth 32 &&& pciPrefRangeMask) <<< 16 ||| 0xfffff
    prefUpper :=
      if prefMemBase &&& pciPrefRangeTypeMask = pciPrefRangeType64 then
        some (prefBaseUpper, prefLimitUpper)
      else none
    secStatus := pciReadConfig16 dev pciSecStatus
    bridgeCtrl := pciReadConfig16 dev pciBridgeControl }

/-! ## Capabilities -/

def pciCapIdMax : ℕ := 0x14
def pciExtCapIdMax : ℕ := 0x1f
def pciCapIdEa : ℕ := 0x14
def pciCapListNext : ℕ := 1

/-- `pci_capability_name`. -/
def pciCapabilityName (capId : ℕ) : String :=
  match capId with
  | 0x01 => "Power Management"
  | 0x02 => "AGP"
  | 0x03 => "VPD"
  | 0x04 => "Slot Identification"
  | 0x05 => "MSI"
  | 0x06 => "Hot Swap"
  | 0x07 => "PCI-X"
  | 0x08 => "HyperTransport"
  | 0x09 => "Vendor-Specific"
  | 0x0a => "Debug"
  | 0x0c => "Hot-Plug"
  | 0x0d => "Subsystem ID"
  | 0x10 => "PCI Express"
  | 0x11 => "MSI-X"
  | 0x12 => "SATA"
  | 0x13 => "Advanced Features"
  | 0x14 => "Enhanced Allocation"
  | _ => "Unknown"

/-- `pcie_ext_capability_name`. -/
def pcieExtCapabilityName (capId : ℕ) : String :=
  match capId with
  | 0x01 => "Advanced Error Reporting"
  | 0x02 => "Virtual Channel"
  | 0x03 => "Device Serial Number"
  | 0x04 => "Power Budgeting"
  | 0x05 => "RC Link Declaration"
  | 0x06 => "RC Internal Link"
  | 0x07 => "RC Event Collector"
  | 0x08 => "Multi-Function VC"
  | 0x0b => "Vendor-Specific"
  | 0x0d => "Access Control Services"
  | 0x0e => "Alternate Routing ID"
  | 0x0f => "Address Translation Services"
  | 0x10 => "SR-IOV"
  | 0x11 => "MR-IOV"
  | 0x13 => "Page Request Interface"
  | 0x15 => "Resizable BAR"
  | 0x16 => "Dynamic Power Allocation"
  | 0x17 => "TPH Requester"
  | 0x18 => "Latency Tolerance Reporting"
  | 0x1b => "PASID"
  | 0x1d => "Downstream Port Containment"
  | 0x1e => "L1 PM Substates"
  | 0x1f => "Precision Time Measurement"
  | _ => "Unknown"

/-- `pci_header_type_name`. -/
def pciHeaderTypeName (headerType : ℕ) : String :=
  match headerType with
  | 0 => "Endpoint"
  | 1 => "PCI-to-PCI Bridge"
  | 2 => "CardBus Bridge"
  | _ => "Unknown"

/-- What is printed of a capability that the tool knows. -/
inductive CapDetail
  | other
  | msi (msgCtl : BitVec 16) (addrLo : BitVec 32)
  | msix (msgCtl : BitVec 16) (table pba : BitVec 32)
  | exp (flags : BitVec 16)
  | ea (dump : EaDump)
  deriving DecidableEq, Repr

/-- The line of a capability, with its first two words and what is said of its kind. -/
structure CapLine where
  offset : ℕ
  capId : ℕ
  name : String
  next : BitVec 8
  dword0 : BitVec 32
  dword1 : BitVec 32
  detail : CapDetail
  deriving DecidableEq, Repr

/-- The line of an extended capability. -/
structure ExtCapLine where
  offset : ℕ
  capId : ℕ
  name : String
  version : BitVec 32
  next : BitVec 32
  dword0 : BitVec 32
  dword1 : BitVec 32
  deriving DecidableEq, Repr

/-- The body of the loop over the ids, for a capability that was found. Register numbers are cut to a
byte. -/
def capLine (dev : PciDevice) (headerLayout capId offset : ℕ) : CapLine where
  offset := offset
  capId := capId
  name := pciCapabilityName capId
  next := pciReadConfig8 dev ((offset + pciCapListNext) % 256)
  dword0 := readConfigLong dev offset
  dword1 := readConfigLong dev (offset + 4)
  detail :=
    let msgCtl := pciReadConfig16 dev ((offset + pciMsiFlags) % 256)
    if capId = pciCapIdMsi then .msi msgCtl (readConfigLong dev (offset + pciMsiAddressLo))
    else if capId = pciCapIdMsix then
      .msix msgCtl (readConfigLong dev (offset + 4)) (readConfigLong dev (offset + 8))
    else if capId = pciCapIdExp then .exp (pciReadConfig16 dev ((offset + pciExpFlags) % 256))
    else if capId = pciCapIdEa then .ea (dumpEaCapability dev offset headerLayout)
    else .other

/-- The same for an extended capability. -/
def extCapLine (dev : PciDevice) (capId offset : ℕ) : ExtCapLine where
  offset := offset
  capId := capId
  name := pcieExtCapabilityName capId
  version := pciReadConfig32 dev offset >>> 16 &&& 0xf
  next := pciReadConfig32 dev offset >>> 20 &&& 0xffc
  dword0 := pciReadConfig32 dev offset
  dword1 := pciReadConfig32 dev (offset + 4)

/-- A loop over the ids from 1 on: a line for each that is found, and 0 is nowhere. -/
def foundLines {α : Type} (capIdMax : ℕ) (find : ℕ → ℕ) (line : ℕ → ℕ → α) : List α :=
  (List.range' 1 capIdMax).filterMap fun capId =>
    if find capId = 0 then none else some (line capId (find capId))

/-! ## The function -/

/-- What is printed of the registers of a function; `caps` is none if the status register says that
there is no list. -/
structure ProbeOutput where
  baseClass : BitVec 8
  subClass : BitVec 8
  progIf : BitVec 8
  revision : BitVec 8
  command : BitVec 16
  status : BitVec 16
  capabilityPointer : BitVec 8
  interruptLine : BitVec 8
  interruptPin : BitVec 8
  headerType : BitVec 8
  headerDesc : String
  multiFunction : Bool
  bridge : Option BridgeConfig
  caps : Option (List CapLine)
  extCaps : List ExtCapLine
  deriving DecidableEq, Repr

def pciClassProg : ℕ := 0x09

/-- The extended capability with an id, if it is found inside the configuration space. -/
def probedExtCapability (dev : PciDevice) (capId : ℕ) : ℕ :=
  let offset := ((ConfigProgram.pciFindExtCapability capId).run dev.cfg).1
  if offset = 0 ∨ pciCfgSpaceExpSize ≤ offset then 0 else offset

/-- `probe_pci_device`. -/
def probePciDevice (dev : PciDevice) : ProbeOutput :=
  let status := pciReadConfig16 dev pciStatus
  let headerType := pciReadConfig8 dev pciHeaderType
  let headerLayout := (headerType &&& 0x7f).toNat
  { baseClass := pciReadConfig8 dev (pciClassDevice + 1)
    subClass := pciReadConfig8 dev pciClassDevice
    progIf := pciReadConfig8 dev pciClassProg
    revision := pciReadConfig8 dev pciRevisionId
    command := pciReadConfig16 dev pciCommand
    status := status
    capabilityPointer := pciReadConfig8 dev pciCapabilityList
    interruptLine := pciReadConfig8 dev pciInterruptLine
    interruptPin := pciReadConfig8 dev pciInterruptPin
    headerType := headerType
    headerDesc := pciHeaderTypeName headerLayout
    multiFunction := decide (headerType &&& 0x80 ≠ 0)
    bridge := if headerLayout = pciHeaderTypeBridge then some (dumpBridgeConfig dev) else none
    caps :=
      if status &&& pciStatusCapList = 0 then none
      else some (foundLines pciCapIdMax (pciFindCapability dev) (capLine dev headerLayout))
    extCaps := foundLines pciExtCapIdMax (probedExtCapability dev) (extCapLine dev) }

/-! ## What is found -/

section Found

variable {α : Type} {capIdMax : ℕ} {find : ℕ → ℕ} {line : ℕ → ℕ → α} {key : α → ℕ × ℕ}

/-- The lines are in the order of their ids, with one line at most for each. -/
theorem pairwise_foundLines (hkey : ∀ capId pos, key (line capId pos) = (capId, pos)) :
    (foundLines capIdMax find line).Pairwise fun l l' => (key l).1 < (key l').1 := by
  unfold foundLines
  refine List.pairwise_filterMap.2 ((List.pairwise_lt_range' 1 (by decide)).imp fun {c d} hlt l hl l' hl' => ?_)
  obtain ⟨-, hl⟩ := Option.ite_none_left_eq_some.1 hl
  obtain ⟨-, hl'⟩ := Option.ite_none_left_eq_some.1 hl'
  rw [← Option.some.inj hl, ← Option.some.inj hl', hkey, hkey]
  exact hlt

/-- The lines printed are those of the capabilities that were found. -/
theorem mem_foundLines (hkey : ∀ capId pos, key (line capId pos) = (capId, pos)) {capId pos : ℕ} :
    (capId, pos) ∈ (foundLines capIdMax find line).map key ↔
      capId ∈ Set.Icc 1 capIdMax ∧ find capId = pos ∧ pos ≠ 0 := by
  unfold foundLines
  rw [List.map_filterMap]
  constructor
  · intro h
    obtain ⟨c, hc, hsome⟩ := List.mem_filterMap.1 h
    obtain ⟨l, hl, hpos⟩ := Option.map_eq_some_iff.1 hsome
    obtain ⟨hne, hl⟩ := Option.ite_none_left_eq_some.1 hl
    rw [← Option.some.inj hl, hkey] at hpos
    obtain ⟨rfl, rfl⟩ := Prod.mk.inj hpos
    rw [List.mem_range'_1] at hc
    exact ⟨⟨hc.1, by omega⟩, rfl, hne⟩
  · rintro ⟨⟨hlow, hhigh⟩, rfl, hne⟩
    refine List.mem_filterMap.2 ⟨capId, List.mem_range'_1.2 ⟨hlow, by omega⟩, ?_⟩
    rw [if_neg hne, Option.map_some, hkey]

end Found

/-- A search that finds the first position or 0 finds a position if and only if it is the first. -/
theorem FirstOrZero.eq_iff {next : ℕ → Option ℕ} {start : Option ℕ} {p : ℕ → Bool} {found pos : ℕ}
    (h : FirstOrZero next start p found) (hpos : ∀ q, OnChain next start q → q ≠ 0) :
    (found = pos ∧ pos ≠ 0) ↔ FirstOnChain next start p pos := by
  constructor
  · rintro ⟨rfl, hne⟩
    exact h.first hne
  · intro hfirst
    have hne : found ≠ 0 := by
      intro hzero
      obtain ⟨k, hk, hp, -⟩ := hfirst
      have hnot := h.none hzero pos ⟨k, hk⟩
      rw [hp] at hnot
      cases hnot
    exact ⟨(h.first hne).unique hfirst, hpos pos hfirst.onChain⟩

/-- What is found lies inside the configuration space. -/
theorem probedExtCapability_eq (dev : PciDevice) {cap : ℕ} (hcap : cap ≠ 0) :
    probedExtCapability dev cap = ((ConfigProgram.pciFindExtCapability cap).run dev.cfg).1 := by
  have hfound := onExtChain_of_found dev hcap
  unfold probedExtCapability
  dsimp only
  generalize ((ConfigProgram.pciFindExtCapability cap).run dev.cfg).1 = pos at hfound ⊢
  by_cases hpos : pos = 0
  · rw [if_pos (Or.inl hpos), hpos]
  · obtain ⟨-, hle, -⟩ := extPosition_of_onExtChain (hfound hpos).1
    rw [if_neg]
    dsimp only [pciCfgSpaceExpSize]
    omega

/-! ## What is decoded -/

/-- The megabytes that a register of a memory window counts. -/
theorem windowField_eq (value : BitVec 16) :
    windowField value = (extract value 4 12).toNat * 2 ^ 20 := by
  have hmask : ∀ i : Fin 16, (0xfff0#16).getLsbD i = decide (4 ≤ i.val) := by decide
  have hfield : value &&& 0xfff0#16 = extract value 4 12 ++ 0#4 := by
    unfold extract
    apply BitVec.eq_of_getLsbD_eq
    intro i hi
    rw [BitVec.getLsbD_and, hmask ⟨i, hi⟩, BitVec.getLsbD_append, BitVec.getLsbD_extractLsb']
    by_cases hlow : i < 4
    · simp [hlow, Nat.not_le.2 hlow]
    · simp [hlow, Nat.not_lt.1 hlow, show 4 + (i - 4) = i by omega, show i - 4 < 12 by omega]
  unfold windowField
  rw [hfield, BitVec.toNat_append, Nat.shiftLeft_eq]
  simp only [BitVec.toNat_ofNat, Nat.zero_mod, Nat.or_zero]
  omega

/-- What is printed of it. -/
theorem window_eq_append (value : BitVec 16) (fill : BitVec 20) :
    (value.setWidth 32 &&& pciMemoryRangeMask) <<< 16 ||| fill.setWidth 32
      = extract value 4 12 ++ fill := by
  have hmask : ∀ i : Fin 32, pciMemoryRangeMask.getLsbD i = decide (4 ≤ i.val) := by decide
  unfold extract
  apply BitVec.eq_of_getLsbD_eq
  intro i hi
  rw [BitVec.getLsbD_or, BitVec.getLsbD_shiftLeft, BitVec.getLsbD_and, BitVec.getLsbD_setWidth,
    BitVec.getLsbD_setWidth, BitVec.getLsbD_append, BitVec.getLsbD_extractLsb', hmask ⟨i - 16, by omega⟩]
  by_cases hlow : i < 20
  · simp [hlow, hi, show ¬ 4 ≤ i - 16 by omega]
  · simp [hlow, hi, show ¬ i < 16 by omega, show 4 ≤ i - 16 by omega, show 4 + (i - 20) = i - 16 by omega,
      show i - 20 < 12 by omega, show i - 16 < 32 by omega, BitVec.getLsbD_of_ge fill i (by omega)]

/-- The base of a window, as it is printed. -/
theorem toNat_window (value : BitVec 16) :
    ((value.setWidth 32 &&& pciMemoryRangeMask) <<< 16).toNat = windowField value := by
  have h := window_eq_append value 0#20
  rw [show (0#20).setWidth 32 = 0#32 by decide, BitVec.or_zero] at h
  rw [h, BitVec.toNat_append, windowField_eq, Nat.shiftLeft_eq]
  exact Nat.or_zero _

/-- The limit of a window is the last byte of its megabyte. -/
theorem toNat_windowLimit (value : BitVec 16) :
    ((value.setWidth 32 &&& pciMemoryRangeMask) <<< 16 ||| 0xfffff).toNat + 1
      = windowField value + 0x100000 := by
  have h := window_eq_append value 0xfffff#20
  rw [show (0xfffff#20).setWidth 32 = (0xfffff : BitVec 32) by decide] at h
  have hfill : (0xfffff#20).toNat = 0xfffff := by decide
  have hsum : ((value.setWidth 32 &&& pciMemoryRangeMask) <<< 16 ||| 0xfffff).toNat
      = windowField value + (0xfffff#20).toNat := by
    rw [h, BitVec.toNat_append, windowField_eq, ← Nat.shiftLeft_add_eq_or_of_lt (BitVec.isLt _),
      Nat.shiftLeft_eq]
  omega

namespace BridgeConfig

variable (b : BridgeConfig)

/-- The ends of the prefetchable window, as they are printed. -/
def prefBase : ℕ := (b.prefUpper.map fun upper => upper.1.toNat).getD 0 * 2 ^ 32 + b.prefBaseLow.toNat
def prefLimit : ℕ := (b.prefUpper.map fun upper => upper.2.toNat).getD 0 * 2 ^ 32 + b.prefLimitLow.toNat

/-- What is printed is what the bridge decodes, if both prefetchable registers are of one type. -/
structure Decoded (dev : PciDevice) : Prop where
  primary : b.primary = pciReadConfig8 dev pciPrimaryBus
  secondary : b.secondary = pciReadConfig8 dev pciSecondaryBus
  subordinate : b.subordinate = pciReadConfig8 dev pciSubordinateBus
  memBase : b.memBaseAddr.toNat = memoryBase dev
  memLimit : b.memLimitAddr.toNat + 1 = memoryEnd dev
  prefBase : b.prefBase = prefetchBase dev
  prefLimit : pciReadConfig16 dev pciPrefMemoryLimit &&& pciPrefRangeTypeMask
      = pciReadConfig16 dev pciPrefMemoryBase &&& pciPrefRangeTypeMask →
    b.prefLimit + 1 = prefetchEnd dev

end BridgeConfig

/-- What is printed of a bridge is what its registers say. -/
theorem decoded_dumpBridgeConfig (dev : PciDevice) : (dumpBridgeConfig dev).Decoded dev where
  primary := dev.cfg.read_byte pciPrimaryBus (by decide : 0 < 4)
  secondary := dev.cfg.read_byte pciPrimaryBus (by decide : 1 < 4)
  subordinate := dev.cfg.read_byte pciPrimaryBus (by decide : 2 < 4)
  memBase := toNat_window _
  memLimit := toNat_windowLimit _
  prefBase := by
    unfold BridgeConfig.prefBase prefetchBase upperHalf dumpBridgeConfig
    dsimp only
    rw [← toNat_window]
    split <;> exact Nat.add_comm _ _
  prefLimit htype := by
    have hlow : (dumpBridgeConfig dev).prefLimitLow.toNat + 1
        = windowField (pciReadConfig16 dev pciPrefMemoryLimit) + 0x100000 := toNat_windowLimit _
    have hupper : ((dumpBridgeConfig dev).prefUpper.map fun upper => upper.2.toNat).getD 0 * 2 ^ 32
        = upperHalf dev pciPrefMemoryLimit pciPrefLimitUpper32 := by
      unfold upperHalf dumpBridgeConfig
      dsimp only
      rw [htype]
      split
      · rfl
      · exact Nat.zero_mul _
    unfold BridgeConfig.prefLimit prefetchEnd
    rw [hupper]
    omega

/-! ## The function as a whole -/

/-- What a line is of: an id and a place. -/
def CapLine.key (l : CapLine) : ℕ × ℕ := (l.capId, l.offset)
def ExtCapLine.key (l : ExtCapLine) : ℕ × ℕ := (l.capId, l.offset)

/-- What is printed of a function is what it has. -/
structure ProbeExact (dev : PciDevice) (out : ProbeOutput) : Prop where
  /-- One line for each id, in their order. -/
  capsOrder : (out.caps.getD []).Pairwise fun l l' => l.key.1 < l'.key.1
  caps : ∀ capId pos, (capId, pos) ∈ (out.caps.getD []).map CapLine.key ↔
    capId ∈ Set.Icc 1 pciCapIdMax ∧ FirstOnChain (capNext dev) (capStart dev) (hasCapId dev capId) pos
  extCapsOrder : out.extCaps.Pairwise fun l l' => l.key.1 < l'.key.1
  extCapsThere : ∀ l ∈ out.extCaps, OnExtChain dev l.offset ∧ extCapId dev l.offset = l.capId
  extCaps : ∀ size, ExtApart dev size → ∀ capId pos,
    (capId, pos) ∈ out.extCaps.map ExtCapLine.key ↔ capId ∈ Set.Icc 1 pciExtCapIdMax ∧
      FirstOnChain (extCapNext dev) (some 0x100) (hasExtCapId dev capId) pos
  bridge : ∀ b, out.bridge = some b → b.Decoded dev

/-- **A probe** of a function, whatever its registers hold: it prints one line for each of the ids it
knows that the walk of the capabilities comes to, with the place where the walk comes to it first; the
same of the extended capabilities, if they do not overlap, and in any case none that is not there; and
of a bridge the bus numbers and the windows that it decodes. -/
theorem probePciDevice_exact (dev : PciDevice) : ProbeExact dev (probePciDevice dev) where
  capsOrder := by
    unfold probePciDevice
    dsimp only
    split
    · exact List.Pairwise.nil
    · exact pairwise_foundLines fun _ _ => rfl
  caps capId pos := by
    have hpos : ∀ q, OnChain (capNext dev) (capStart dev) q → q ≠ 0 := by
      intro q hq
      obtain ⟨hlow, -⟩ := isCapOffset_of_onChain hq
      omega
    rw [← (pciFindCapability_firstOrZero dev capId).eq_iff hpos]
    unfold probePciDevice
    dsimp only
    split
    · -- there is no list to find anything in
      rename_i hstatus
      have hzero : pciFindCapability dev capId = 0 := by
        unfold pciFindCapability
        rw [if_pos hstatus]
      refine iff_of_false List.not_mem_nil fun h => ?_
      obtain ⟨-, hfound, hne⟩ := h
      exact hne (hfound.symm.trans hzero)
    · exact mem_foundLines fun _ _ => rfl
  extCapsOrder := pairwise_foundLines fun _ _ => rfl
  extCapsThere l hl := by
    have hkey : (l.capId, l.offset) ∈ (probePciDevice dev).extCaps.map ExtCapLine.key :=
      List.mem_map_of_mem hl
    obtain ⟨⟨hlow, -⟩, hfound, hne⟩ := (mem_foundLines fun _ _ => rfl).1 hkey
    have hid : l.capId ≠ 0 := Nat.one_le_iff_ne_zero.1 hlow
    rw [probedExtCapability_eq dev hid] at hfound
    rw [← hfound] at hne ⊢
    exact onExtChain_of_found dev hid hne
  extCaps size hsize capId pos := by
    refine (mem_foundLines fun _ _ => rfl).trans (and_congr_right fun hid => ?_)
    have hid : capId ≠ 0 := Nat.one_le_iff_ne_zero.1 hid.1
    rw [probedExtCapability_eq dev hid]
    refine (extCapability_firstOrZero dev hid hsize).eq_iff fun q hq => ?_
    obtain ⟨hlow, -⟩ := extPosition_of_onExtChain hq
    omega
  bridge b hb := by
    unfold probePciDevice at hb
    dsimp only at hb
    obtain ⟨-, hb⟩ := Option.ite_none_right_eq_some.1 hb
    rw [← Option.some.inj hb]
    exact decoded_dumpBridgeConfig dev

end BcmPcie
