import BcmPcie.Brcmstb.RootComplex
import BcmPcie.Enumeration.SetupDevice

/-! # The window to configuration space

The calls of the library that read and write configuration space, down to the registers of the
controller. The root complex has its own configuration space at the first 4 KiB of them; the function
that `PCIE_EXT_CFG_INDEX` selects is seen through the 4 KiB at `PCIE_EXT_CFG_DATA`, and the register
behind this window is `PCIE_EXT_CFG_INDEX` itself.

* `ConfigPort.brcmPcieReadConfig`, `ConfigPort.brcmPcieWriteConfig` — the accesses of the controller.
* `LibConfigCall` — the calls of the library.
* `ConfigCycle.touched` — the bytes an access reaches.
* `configConfined_iff` — which calls stay in the configuration space of their function.
* `ConfigPort.value_pciReadConfig` — what they read there is in the record of the function. -/

namespace BcmPcie

@[simp] abbrev pcieExtCfgIndex : ℕ := 0x9000
@[simp] abbrev pcieExtCfgData : ℕ := 0x8000

/-- `enum pci_size_t`. -/
inductive PciSize
  | size8 | size16 | size32
  deriving DecidableEq, Repr

/-- The bytes of an access. -/
def PciSize.bytes : PciSize → ℕ
  | .size8 => 1
  | .size16 => 2
  | .size32 => 4

/-- `pci_get_ff`. -/
def pciGetFf : PciSize → BitVec 32
  | .size8 => 0xff
  | .size16 => 0xffff
  | .size32 => 0xffffffff

/-- `pci_conv_32_to_size`. -/
def pciConv32ToSize (value : BitVec 32) (offset : ℕ) : PciSize → BitVec 32
  | .size8 => value >>> (offset % 4 * 8) &&& 0xff
  | .size16 => value >>> (offset / 2 % 2 * 16) &&& 0xffff
  | .size32 => value

/-- `PCIE_ECAM_OFFSET`. -/
def pcieEcamOffset (bus dev func reg : ℕ) : BitVec 32 :=
  BitVec.ofNat 32 ((bus % 256) <<< 20 ||| (dev % 32) <<< 15 ||| (func % 8) <<< 12 ||| reg % 4096)

/-- The fields of an ECAM offset do not overlap. -/
theorem toNat_pcieEcamOffset (bus dev func reg : ℕ) :
    (pcieEcamOffset bus dev func reg).toNat
      = bus % 256 * 2 ^ 20 + (dev % 32 * 2 ^ 15 + (func % 8 * 2 ^ 12 + reg % 4096)) := by
  have hreg : reg % 4096 < 2 ^ 12 := by omega
  have hfunc : (func % 8) <<< 12 + reg % 4096 < 2 ^ 15 := by rw [Nat.shiftLeft_eq]; omega
  have hdev : (dev % 32) <<< 15 + ((func % 8) <<< 12 + reg % 4096) < 2 ^ 20 := by
    rw [Nat.shiftLeft_eq, Nat.shiftLeft_eq]
    omega
  unfold pcieEcamOffset
  rw [Nat.or_assoc, Nat.or_assoc, ← Nat.shiftLeft_add_eq_or_of_lt hreg,
    ← Nat.shiftLeft_add_eq_or_of_lt hfunc, ← Nat.shiftLeft_add_eq_or_of_lt hdev, BitVec.toNat_ofNat,
    Nat.shiftLeft_eq, Nat.shiftLeft_eq, Nat.shiftLeft_eq]
  omega

/-! ## The accesses of the controller -/

/-- An access to the registers of the controller, by its offset from their base. -/
structure MmioAccess where
  address : ℕ
  bytes : ℕ
  /-- The value that is written. -/
  write : Option (BitVec 32) := none
  deriving DecidableEq

/-- What a configuration access does with the controller, after it has read
`PCIE_MISC_PCIE_STATUS` where it asks for the link. -/
structure ConfigCycle where
  /-- The value that is written to `PCIE_EXT_CFG_INDEX` first. -/
  index : Option (BitVec 32) := none
  access : Option MmioAccess := none
  deriving DecidableEq

/-- The controller as a configuration access finds it. -/
structure ConfigPort where
  /-- The values of `PCIE_EXT_CFG_INDEX` and `PCIE_MISC_PCIE_STATUS`. -/
  index : BitVec 32
  status : BitVec 32
  /-- What it answers to a read. -/
  answer : ConfigCycle → BitVec 32

/-- The outcome of a read: the error, and the value it leaves. -/
structure ConfigRead where
  cycle : ConfigCycle
  ret : Option Errno := none
  value : BitVec 32

/-- The outcome of a write. -/
structure ConfigWrite where
  cycle : ConfigCycle
  ret : Option Errno := none

namespace ConfigPort

variable (port : ConfigPort)

/-- `brcm_pcie_config_address`: the address of a byte of a configuration space, once the index register
is written with `index`. -/
def brcmPcieConfigAddress (bdf offset : ℕ) : Except Errno (Option (BitVec 32) × ℕ) :=
  if pciBus bdf < 2 ∧ 0 < pciDev bdf then .error .einval
  else if pciBus bdf = 0 then .ok (none, offset)
  else if brcmPcieLinkUp port.status = false then .error .einval
  else .ok (some (pcieEcamOffset (pciBus bdf) (pciDev bdf) (pciFunc bdf) 0), pcieExtCfgData + offset)

/-- `brcm_pcie_read_config`. -/
def brcmPcieReadConfig (bdf offset : ℕ) (size : PciSize) : ConfigRead :=
  if 4096 ≤ offset then
    { cycle := {}, ret := some .einval, value := pciConv32ToSize 0 offset size }
  else
    match port.brcmPcieConfigAddress bdf offset with
    | .error _ => { cycle := {}, value := pciGetFf size }
    | .ok (index, address) =>
      let cycle := { index := index, access := some { address := address, bytes := size.bytes } }
      { cycle := cycle, value := port.answer cycle &&& pciGetFf size }

/-- `brcm_pcie_write_config`. -/
def brcmPcieWriteConfig (bdf offset : ℕ) (value : BitVec 32) (size : PciSize) : ConfigWrite :=
  if 4096 ≤ offset then { cycle := {}, ret := some .einval }
  else
    match port.brcmPcieConfigAddress bdf offset with
    | .error _ => { cycle := {} }
    | .ok (index, address) =>
      { cycle :=
          { index := index
            access := some
              { address := address, bytes := size.bytes, write := some (value &&& pciGetFf size) } } }

/-- `pci_read_config8`, `pci_read_config16` and `pci_read_config32`: a read that fails gives all
ones. -/
def pciReadConfig (size : PciSize) (dev : PciDevice) (offset : ℕ) : ConfigRead :=
  let read := port.brcmPcieReadConfig dev.bdf offset size
  if read.ret.isSome then { read with value := pciGetFf size } else read

/-- `pci_write_config8`, `pci_write_config16` and `pci_write_config32`. -/
def pciWriteConfig (size : PciSize) (dev : PciDevice) (offset : ℕ) (value : BitVec 32) : ConfigWrite :=
  port.brcmPcieWriteConfig dev.bdf offset value size

/-! ## The calls of the library -/

/-- The body of the calls that read: no device gives all ones. -/
def libRead (size : PciSize) (reg : ℕ) : Option PciDevice → ConfigCycle × BitVec 32
  | none => ({}, pciGetFf size)
  | some dev => ((port.pciReadConfig size dev reg).cycle, (port.pciReadConfig size dev reg).value)

/-- The body of the calls that write: no device, no write. -/
def libWrite (size : PciSize) (reg : ℕ) (value : BitVec 32) : Option PciDevice → ConfigCycle
  | none => {}
  | some dev => (port.pciWriteConfig size dev reg value).cycle

def libReadConfigByte (reg : BitVec 8) := port.libRead .size8 reg.toNat
def libReadConfigWord (reg : BitVec 8) := port.libRead .size16 reg.toNat
def libReadConfigLong (reg : BitVec 8) := port.libRead .size32 reg.toNat
def libWriteConfigByte (reg value : BitVec 8) := port.libWrite .size8 reg.toNat (value.setWidth 32)
def libWriteConfigWord (reg : BitVec 8) (value : BitVec 16) :=
  port.libWrite .size16 reg.toNat (value.setWidth 32)
def libWriteConfigLong (reg : BitVec 8) (value : BitVec 32) := port.libWrite .size32 reg.toNat value
def libReadExtConfigByte (reg : BitVec 32) := port.libRead .size8 reg.toNat
def libReadExtConfigWord (reg : BitVec 32) := port.libRead .size16 reg.toNat
def libReadExtConfigLong (reg : BitVec 32) := port.libRead .size32 reg.toNat
def libWriteExtConfigByte (reg : BitVec 32) (value : BitVec 8) :=
  port.libWrite .size8 reg.toNat (value.setWidth 32)
def libWriteExtConfigWord (reg : BitVec 32) (value : BitVec 16) :=
  port.libWrite .size16 reg.toNat (value.setWidth 32)
def libWriteExtConfigLong (reg value : BitVec 32) := port.libWrite .size32 reg.toNat value

end ConfigPort

/-- A call of the library that accesses configuration space, but for its device. -/
inductive LibConfigCall
  | readConfigByte (reg : BitVec 8)
  | readConfigWord (reg : BitVec 8)
  | readConfigLong (reg : BitVec 8)
  | writeConfigByte (reg value : BitVec 8)
  | writeConfigWord (reg : BitVec 8) (value : BitVec 16)
  | writeConfigLong (reg : BitVec 8) (value : BitVec 32)
  | readExtConfigByte (reg : BitVec 32)
  | readExtConfigWord (reg : BitVec 32)
  | readExtConfigLong (reg : BitVec 32)
  | writeExtConfigByte (reg : BitVec 32) (value : BitVec 8)
  | writeExtConfigWord (reg : BitVec 32) (value : BitVec 16)
  | writeExtConfigLong (reg value : BitVec 32)

namespace LibConfigCall

/-- The width of a call. -/
def size : LibConfigCall → PciSize
  | readConfigByte _ | writeConfigByte _ _ | readExtConfigByte _ | writeExtConfigByte _ _ => .size8
  | readConfigWord _ | writeConfigWord _ _ | readExtConfigWord _ | writeExtConfigWord _ _ => .size16
  | readConfigLong _ | writeConfigLong _ _ | readExtConfigLong _ | writeExtConfigLong _ _ => .size32

/-- The register of a call. -/
def reg : LibConfigCall → ℕ
  | readConfigByte reg | readConfigWord reg | readConfigLong reg => reg.toNat
  | writeConfigByte reg _ | writeConfigWord reg _ | writeConfigLong reg _ => reg.toNat
  | readExtConfigByte reg | readExtConfigWord reg | readExtConfigLong reg => reg.toNat
  | writeExtConfigByte reg _ | writeExtConfigWord reg _ | writeExtConfigLong reg _ => reg.toNat

variable (port : ConfigPort) (dev : Option PciDevice)

/-- What a call does with the controller, and what it returns if it reads. -/
def outcome : LibConfigCall → ConfigCycle × Option (BitVec 32)
  | readConfigByte reg => (port.libReadConfigByte reg dev).map id some
  | readConfigWord reg => (port.libReadConfigWord reg dev).map id some
  | readConfigLong reg => (port.libReadConfigLong reg dev).map id some
  | writeConfigByte reg value => (port.libWriteConfigByte reg value dev, none)
  | writeConfigWord reg value => (port.libWriteConfigWord reg value dev, none)
  | writeConfigLong reg value => (port.libWriteConfigLong reg value dev, none)
  | readExtConfigByte reg => (port.libReadExtConfigByte reg dev).map id some
  | readExtConfigWord reg => (port.libReadExtConfigWord reg dev).map id some
  | readExtConfigLong reg => (port.libReadExtConfigLong reg dev).map id some
  | writeExtConfigByte reg value => (port.libWriteExtConfigByte reg value dev, none)
  | writeExtConfigWord reg value => (port.libWriteExtConfigWord reg value dev, none)
  | writeExtConfigLong reg value => (port.libWriteExtConfigLong reg value dev, none)

/-- What a call does to the registers, and what it returns. -/
def cycle (call : LibConfigCall) : ConfigCycle := (call.outcome port dev).1
def value (call : LibConfigCall) : Option (BitVec 32) := (call.outcome port dev).2

end LibConfigCall

/-! ## What an access reaches -/

/-- A byte behind the registers of the controller. -/
inductive PortByte
  /-- Of the configuration space of the root complex. -/
  | rootComplex (offset : ℕ)
  /-- Of the configuration space of a function behind the link. -/
  | function (bus dev func offset : ℕ)
  /-- Of a register. -/
  | register (address : ℕ)
  deriving DecidableEq

/-- The byte that the controller has at an address, with the value of `PCIE_EXT_CFG_INDEX`. -/
def portByte (index : BitVec 32) (address : ℕ) : PortByte :=
  if address < 4096 then .rootComplex address
  else if pcieExtCfgData ≤ address ∧ address < pcieExtCfgData + 4096 then
    .function (index.toNat / 2 ^ 20 % 256) (index.toNat / 2 ^ 15 % 32) (index.toNat / 2 ^ 12 % 8)
      (address - pcieExtCfgData)
  else .register address

/-- The bytes that the access of a cycle reaches. -/
def ConfigCycle.touched (port : ConfigPort) (cycle : ConfigCycle) : List PortByte :=
  match cycle.access with
  | none => []
  | some access =>
    (List.range access.bytes).map fun i =>
      portByte (cycle.index.getD port.index) (access.address + i)

/-- A byte of the configuration space of a function; on bus 0 there is the root complex alone. -/
def functionByte (bdf offset : ℕ) : PortByte :=
  if pciBus bdf = 0 then .rootComplex offset
  else .function (pciBus bdf) (pciDev bdf) (pciFunc bdf) offset

/-- The controller reaches the function: buses 0 and 1 have one device each, and behind the root
complex the link must be up. -/
def Reachable (port : ConfigPort) (bdf : ℕ) : Prop :=
  ¬ (pciBus bdf < 2 ∧ 0 < pciDev bdf) ∧ (pciBus bdf = 0 ∨ brcmPcieLinkUp port.status = true)

instance (port : ConfigPort) (bdf : ℕ) : Decidable (Reachable port bdf) :=
  inferInstanceAs (Decidable (_ ∧ _))

/-- Where the bytes of a function are. -/
theorem brcmPcieConfigAddress_of_reachable {port : ConfigPort} {bdf : ℕ} (h : Reachable port bdf)
    (offset : ℕ) : ∃ index base, port.brcmPcieConfigAddress bdf offset = .ok (index, base + offset) ∧
      ∀ i < 4096, portByte (index.getD port.index) (base + i) = functionByte bdf i := by
  obtain ⟨hone, hlink⟩ := h
  unfold ConfigPort.brcmPcieConfigAddress functionByte
  rw [if_neg hone]
  by_cases hbus : pciBus bdf = 0
  · rw [if_pos hbus]
    refine ⟨none, 0, by rw [Nat.zero_add], fun i hi => ?_⟩
    unfold portByte
    rw [Nat.zero_add, if_pos hi, if_pos hbus]
  · have hup : ¬ brcmPcieLinkUp port.status = false := by
      rw [Bool.not_eq_false]
      exact hlink.resolve_left hbus
    rw [if_neg hbus, if_neg hup]
    refine ⟨_, _, rfl, fun i hi => ?_⟩
    have hlow : ¬ pcieExtCfgData + i < 4096 := by
      show ¬ 0x8000 + i < 4096
      omega
    have hbuslt : pciBus bdf < 256 := Nat.mod_lt _ (by decide)
    have hdevlt : pciDev bdf < 32 := Nat.mod_lt _ (by decide)
    have hfunclt : pciFunc bdf < 8 := Nat.mod_lt _ (by decide)
    unfold portByte
    rw [if_neg hlow, if_pos ⟨Nat.le_add_right _ _, Nat.add_lt_add_left hi _⟩, if_neg hbus,
      Option.getD_some, toNat_pcieEcamOffset, Nat.add_sub_cancel_left]
    congr 1 <;> omega

/-- What the controller cannot reach has no address. -/
theorem brcmPcieConfigAddress_of_not_reachable {port : ConfigPort} {bdf : ℕ}
    (h : ¬ Reachable port bdf) (offset : ℕ) :
    port.brcmPcieConfigAddress bdf offset = .error .einval := by
  unfold ConfigPort.brcmPcieConfigAddress
  by_cases hone : pciBus bdf < 2 ∧ 0 < pciDev bdf
  · rw [if_pos hone]
  · rw [if_neg hone]
    by_cases hbus : pciBus bdf = 0
    · exact absurd ⟨hone, Or.inl hbus⟩ h
    · have hdown : brcmPcieLinkUp port.status = false := by
        rw [← Bool.not_eq_true]
        exact fun hup => h ⟨hone, Or.inr hup⟩
      rw [if_neg hbus, if_pos hdown]

/-! ## The calls -/

namespace LibConfigCall

/-- The value a call writes. -/
def data : LibConfigCall → Option (BitVec 32)
  | readConfigByte _ | readConfigWord _ | readConfigLong _ => none
  | readExtConfigByte _ | readExtConfigWord _ | readExtConfigLong _ => none
  | writeConfigByte _ value | writeExtConfigByte _ value => some (value.setWidth 32)
  | writeConfigWord _ value | writeExtConfigWord _ value => some (value.setWidth 32)
  | writeConfigLong _ value | writeExtConfigLong _ value => some value

/-- A call without data is a read. -/
theorem outcome_of_read {call : LibConfigCall} (h : call.data = none) (port : ConfigPort)
    (dev : Option PciDevice) :
    call.outcome port dev = (port.libRead call.size call.reg dev).map id some := by
  cases call <;> first | rfl | cases h

/-- A call with data is a write. -/
theorem outcome_of_write {call : LibConfigCall} {value : BitVec 32} (h : call.data = some value)
    (port : ConfigPort) (dev : Option PciDevice) :
    call.outcome port dev = (port.libWrite call.size call.reg value dev, none) := by
  cases call <;> cases h <;> rfl

end LibConfigCall

/-- The call is rejected: it makes no access, does not write the index register, and reads all ones. -/
structure Rejected (port : ConfigPort) (dev : Option PciDevice) (call : LibConfigCall) : Prop where
  index : (call.cycle port dev).index = none
  access : (call.cycle port dev).access = none
  value : (call.value port dev).getD (pciGetFf call.size) = pciGetFf call.size

/-- The call stays below 4096, and its access reaches its bytes of the device's configuration space. -/
structure Inside (port : ConfigPort) (dev : PciDevice) (call : LibConfigCall) : Prop where
  below : call.reg + call.size.bytes ≤ 4096
  touched : (call.cycle port (some dev)).touched port
    = (List.range call.size.bytes).map fun i => functionByte dev.bdf (call.reg + i)

/-- The call stays in the configuration space of its function, or is rejected. -/
def ConfigConfined (port : ConfigPort) (dev : Option PciDevice) (call : LibConfigCall) : Prop :=
  (∃ d, dev = some d ∧ Inside port d call) ∨ Rejected port dev call

section

variable {port : ConfigPort} {call : LibConfigCall}

/-- A call without a device is rejected. -/
theorem rejected_none : Rejected port none call := by
  cases call <;> exact ⟨rfl, rfl, rfl⟩

/-- A call past the end of the space, or to a function that is not reached, is rejected. -/
theorem rejected_of_refused {dev : PciDevice}
    (h : 4096 ≤ call.reg ∨ ¬ Reachable port dev.bdf) : Rejected port (some dev) call := by
  have hread : (port.libRead call.size call.reg (some dev)) = ({}, pciGetFf call.size) := by
    unfold ConfigPort.libRead ConfigPort.pciReadConfig ConfigPort.brcmPcieReadConfig
    dsimp only
    by_cases hpast : 4096 ≤ call.reg
    · rw [if_pos hpast]
      rfl
    · rw [if_neg hpast, brcmPcieConfigAddress_of_not_reachable (h.resolve_left hpast)]
      rfl
  have hwrite : ∀ value, port.libWrite call.size call.reg value (some dev) = {} := by
    intro value
    unfold ConfigPort.libWrite ConfigPort.pciWriteConfig ConfigPort.brcmPcieWriteConfig
    dsimp only
    by_cases hpast : 4096 ≤ call.reg
    · rw [if_pos hpast]
    · rw [if_neg hpast, brcmPcieConfigAddress_of_not_reachable (h.resolve_left hpast)]
  cases hdata : call.data with
  | none =>
    have houtcome := LibConfigCall.outcome_of_read hdata port (some dev)
    rw [hread] at houtcome
    exact ⟨by rw [LibConfigCall.cycle, houtcome]; rfl, by rw [LibConfigCall.cycle, houtcome]; rfl,
      by rw [LibConfigCall.value, houtcome]; rfl⟩
  | some value =>
    have houtcome := LibConfigCall.outcome_of_write hdata port (some dev)
    rw [hwrite] at houtcome
    exact ⟨by rw [LibConfigCall.cycle, houtcome], by rw [LibConfigCall.cycle, houtcome],
      by rw [LibConfigCall.value, houtcome]; rfl⟩

/-- Any other call makes its access. -/
theorem cycle_of_accepted {dev : PciDevice} (hreg : call.reg < 4096)
    (hdev : Reachable port dev.bdf) : ∃ index base access,
      call.cycle port (some dev) = { index := index, access := some access } ∧
        access.address = base + call.reg ∧ access.bytes = call.size.bytes ∧
        ∀ i < 4096, portByte (index.getD port.index) (base + i) = functionByte dev.bdf i := by
  obtain ⟨index, base, haddress, hbytes⟩ := brcmPcieConfigAddress_of_reachable hdev call.reg
  have hpast : ¬ 4096 ≤ call.reg := Nat.not_le.2 hreg
  cases hdata : call.data with
  | none =>
    refine ⟨index, base, ⟨base + call.reg, call.size.bytes, none⟩, ?_, rfl, rfl, hbytes⟩
    rw [LibConfigCall.cycle, LibConfigCall.outcome_of_read hdata]
    show (port.pciReadConfig call.size dev call.reg).cycle = _
    unfold ConfigPort.pciReadConfig ConfigPort.brcmPcieReadConfig
    rw [if_neg hpast, haddress]
    rfl
  | some value =>
    refine ⟨index, base, ⟨base + call.reg, call.size.bytes, some (value &&& pciGetFf call.size)⟩, ?_,
      rfl, rfl, hbytes⟩
    rw [LibConfigCall.cycle, LibConfigCall.outcome_of_write hdata]
    show (port.pciWriteConfig call.size dev call.reg value).cycle = _
    unfold ConfigPort.pciWriteConfig ConfigPort.brcmPcieWriteConfig
    rw [if_neg hpast, haddress]

/-- A call that ends below 4096 reaches its bytes. -/
theorem inside_of_below {dev : PciDevice} (hbelow : call.reg + call.size.bytes ≤ 4096)
    (hreg : call.reg < 4096) (hdev : Reachable port dev.bdf) : Inside port dev call := by
  obtain ⟨index, base, access, hcycle, haddress, hbytes, hport⟩ := cycle_of_accepted hreg hdev
  refine ⟨hbelow, ?_⟩
  unfold ConfigCycle.touched
  rw [hcycle]
  dsimp only
  rw [hbytes, haddress]
  refine List.map_congr_left fun i hi => ?_
  have hlt := List.mem_range.1 hi
  rw [Nat.add_assoc]
  exact hport (call.reg + i) (by omega)

end

/-- **A call stays in its configuration space** or is rejected, unless it begins in the space of a
function that is reached and ends behind it: the offset is checked, the width is not. -/
theorem configConfined_iff (port : ConfigPort) (dev : Option PciDevice) (call : LibConfigCall) :
    ConfigConfined port dev call ↔
      ∀ d, dev = some d → Reachable port d.bdf → call.reg < 4096 →
        call.reg + call.size.bytes ≤ 4096 := by
  constructor
  · rintro (⟨d, -, hinside⟩ | hrejected) d' hd hreach hreg
    · exact hinside.below
    · subst hd
      obtain ⟨index, base, access, hcycle, -⟩ := cycle_of_accepted hreg hreach
      have hnone := hrejected.access
      rw [hcycle] at hnone
      cases hnone
  · intro h
    cases dev with
    | none => exact Or.inr rejected_none
    | some d =>
      by_cases hrefused : 4096 ≤ call.reg ∨ ¬ Reachable port d.bdf
      · exact Or.inr (rejected_of_refused hrefused)
      · rw [not_or, Nat.not_le, not_not] at hrefused
        obtain ⟨hreg, hreach⟩ := hrefused
        exact Or.inl ⟨d, rfl, inside_of_below (h d rfl hreach hreg) hreg hreach⟩

/-- A call that stays in its configuration space reaches no register, the index register among them. -/
theorem ConfigConfined.not_mem_register {port : ConfigPort} {dev : Option PciDevice}
    {call : LibConfigCall} (h : ConfigConfined port dev call) (address : ℕ) :
    .register address ∉ (call.cycle port dev).touched port := by
  rcases h with ⟨d, rfl, hinside⟩ | hrejected
  · rw [hinside.touched]
    intro hmem
    obtain ⟨i, -, hbyte⟩ := List.mem_map.1 hmem
    unfold functionByte at hbyte
    split at hbyte <;> cases hbyte
  · unfold ConfigCycle.touched
    rw [hrejected.access]
    exact List.not_mem_nil

/-! ## The record of a function

The other models read a function's registers from its record. -/

/-- The controller answers reads that stay in the space of a function with its registers. -/
def AnswersAs (port : ConfigPort) (dev : PciDevice) : Prop :=
  ∀ index base offset size, offset + size.bytes ≤ 4096 →
    port.brcmPcieConfigAddress dev.bdf offset = .ok (index, base) →
      port.answer { index := index, access := some { address := base, bytes := size.bytes } } &&&
        pciGetFf size = (dev.cfg.read (8 * size.bytes) offset).setWidth 32

/-- A read of a function that is reached is one of its record. -/
theorem ConfigPort.value_pciReadConfig {port : ConfigPort} {dev : PciDevice} {size : PciSize}
    {offset : ℕ} (hport : AnswersAs port dev) (hdev : Reachable port dev.bdf)
    (h : offset + size.bytes ≤ 4096 ∨ 4096 ≤ offset) :
    (port.pciReadConfig size dev offset).value
      = (BcmPcie.pciReadConfig (8 * size.bytes) dev offset).setWidth 32 := by
  unfold ConfigPort.pciReadConfig ConfigPort.brcmPcieReadConfig BcmPcie.pciReadConfig
  dsimp only
  by_cases hpast : 4096 ≤ offset
  · rw [if_pos hpast, if_pos hpast]
    cases size <;> rfl
  · obtain ⟨index, base, haddress, -⟩ := brcmPcieConfigAddress_of_reachable hdev offset
    rw [if_neg hpast, if_neg hpast, haddress]
    exact hport index _ offset size (h.resolve_right hpast) haddress

/-- A controller with the link up, and the function behind its root port. -/
def upPort : ConfigPort := ⟨0, 0x30, fun _ => 0⟩
def endpoint : PciDevice := { cfg := ⟨0, 0⟩, tableMem := fun _ => 0, bdf := 0x10000 }

/-- The last longword that a call may begin reaches into the index register. -/
theorem not_configConfined_writeExtConfigLong :
    .register pcieExtCfgIndex ∈ ((LibConfigCall.writeExtConfigLong 0xfff 0).cycle upPort
      (some endpoint)).touched upPort ∧
    ¬ ConfigConfined upPort (some endpoint) (.writeExtConfigLong 0xfff 0) := by
  refine ⟨by decide +kernel, ?_⟩
  rintro (⟨d, -, hinside⟩ | hrejected)
  · exact absurd hinside.below (by decide)
  · exact absurd hrejected.access (by decide +kernel)

end BcmPcie
