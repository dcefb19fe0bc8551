import BcmPcie.Enumeration.Scan
import BcmPcie.Lifecycle.SetupView

/-! # The view of a machine

Enumeration leaves every function so that its registers hold what its record says, and no interrupt call
changes that. A function level reset does: the registers are as after power-on then, and the record is
not.

* `ConformingFunction` — what the view of a function rests on.
* `configured_of_enumerate` — the functions of a machine, behind enumeration.
* `cachedView_run` — the view of a function, as long as it is not reset. -/

namespace BcmPcie

open Runs

variable {ι : Type*} {σ : Type}

/-! ## Functions -/

/-- A function has the BARs of `layout` and can decode them, its capabilities share no byte, and their
mask and enable bits are implemented; a bridge has the header of one. -/
structure ConformingFunction {barsNum : ℕ} (layout : BarLayout barsNum) (dev : PciDevice) : Prop where
  slots : dev.barsNum = barsNum
  bars : LaidOut dev.cfg layout
  decode : ∀ slot, ∀ b ∈ layout.bar slot, CanDecode dev b.decoder
  apart : CapsApart dev
  mask : MaskWritable dev
  enables : EnablesWritable dev
  bridge : pciReadConfig16 dev pciClassDevice = pciClassBridgePci →
    dev.headerType = pciHeaderTypeBridge ∧ ExpApart dev

/-- What registers answer is a matter of what is implemented. -/
theorem LaidOut.congr {cfg cfg' : RegisterFile 4096} {barsNum : ℕ} {layout : BarLayout barsNum}
    (h : LaidOut cfg layout) (hcfg : cfg.SameDevice cfg') : LaidOut cfg' layout := by
  refine ⟨fun hb => ⟨fun v => ?_, fun h64 v => ?_⟩, fun hslot hnone hupper => ?_⟩
  · rw [hcfg.response]
    exact (h.bar hb).low v
  · rw [hcfg.response]
    exact (h.bar hb).high h64 v
  · rw [barResponse, hcfg.response]
    exact h.empty hslot hnone hupper

/-- Writes to registers, and `activated`, leave what a function conforms to. -/
theorem ConformingFunction.congr {barsNum : ℕ} {layout : BarLayout barsNum} {dev dev' : PciDevice}
    (h : ConformingFunction layout dev)
    (hrecord : dev' = { dev with cfg := dev'.cfg, activated := dev'.activated })
    (hcfg : dev.cfg.SameDevice dev'.cfg)
    (hclass : pciReadConfig16 dev' pciClassDevice = pciReadConfig16 dev pciClassDevice) :
    ConformingFunction layout dev' := by
  have hsame : SameFunction dev dev' := by
    refine ⟨hcfg.1, ?_, ?_, ?_⟩ <;> rw [hrecord]
  refine ⟨?_, h.bars.congr hcfg, fun slot b hb => ?_, hsame.capsApart h.apart,
    hsame.maskWritable h.mask, hsame.enablesWritable h.enables, fun hbridge => ?_⟩
  · rw [hrecord]
    exact h.slots
  · unfold CanDecode
    rw [hcfg.response]
    exact h.decode slot b hb
  · obtain ⟨hheader, hexp⟩ := h.bridge (hclass.symm.trans hbridge)
    generalize dev'.cfg = cfg' at hrecord hcfg
    generalize dev'.activated = activated at hrecord
    subst hrecord
    exact ⟨hheader, fun cfg hdev => hexp cfg (hcfg.trans hdev)⟩

/-! ## Enumeration -/

/-- A function is as enumeration leaves it: nothing is allocated, its capabilities are decoded, and its
registers hold what its record says. -/
structure Configured (dev : PciDevice) : Prop where
  slots : dev.barsNum = headerBars dev.headerType
  active : dev.active = {}
  msi : MsiDecoded dev
  msix : MsixDecoded dev
  view : ∀ {barsNum : ℕ} {layout : BarLayout barsNum}, ConformingFunction layout dev →
    CachedView layout dev

/-- A configured record has at most six BARs. -/
theorem Configured.barsNum_le {dev : PciDevice} (h : Configured dev) : dev.barsNum ≤ 6 := by
  rw [h.slots]
  exact headerBars_le dev.headerType

section Configured

variable {pcie pcie₁ : PciController σ} {bridges : List PciDevice} {hw : HwFunction} {b : ℕ}
  {dev : PciDevice}

/-- A function behind its set-up. -/
theorem configured_setup
    (hsetup : pciautoSetupDevice pcie bridges (hw.record b) pcie.ptr = (pcie₁, dev)) :
    Configured dev := by
  have hnum := record_barsNum hw b
  have hframe := (pciautoSetupDevice_frame pcie bridges hnum pcie.ptr).2
  have hprobed := @deviceProbed_setup _ (hw.record b) pcie bridges hnum rfl rfl rfl pcie.ptr
  have hheader := @headerView_setup _ pcie (hw.record b) pcie.ptr bridges hnum
  rw [hsetup] at hframe hprobed hheader
  have hrecord : dev = { hw.record b with
      cfg := dev.cfg, bars := dev.bars, intx := dev.intx, msi := dev.msi, msix := dev.msix } :=
    hframe.record
  have hslots : dev.barsNum = (hw.record b).barsNum := by rw [hrecord]
  obtain ⟨hactive, hmsi, hmsix⟩ := hprobed.decoded
  refine ⟨by rw [hrecord]; rfl, hactive, hmsi, hmsix, fun hconf => ⟨?_, ?_, ?_⟩⟩
  · refine hheader (hslots.symm.trans hconf.slots) (hconf.bars.congr hframe.device.symm)
      (fun _ => rfl) fun slot b hb => ?_
    unfold CanDecode
    rw [← hframe.device.response]
    exact hconf.decode slot b hb
  · exact hprobed.maskSynced hconf.apart
  · exact hprobed.enablesAgree hconf.apart hconf.mask hconf.enables

/-- A bridge behind the scan of its bus. -/
theorem configured_scanned (pcie₂ : PciController σ) (lastSub : ℕ) (hclass : hw.isBridge = true)
    (hsetup : pciautoSetupDevice pcie bridges (hw.record b) pcie.ptr = (pcie₁, dev)) :
    Configured (scannedBridge pcie₁.nextBus pcie₂ pcie₁.nextBus.busNumberLast lastSub hw.link
      { dev with activated := true }) := by
  have hdev := configured_setup hsetup
  have hwritten := @scannedBridge_rewritten _ pcie₁.nextBus pcie₂ pcie₁.nextBus.busNumberLast lastSub
    hw.link { dev with activated := true }
  have hbridge := isBridge_scanned hsetup hclass pcie₁.nextBus pcie₂ pcie₁.nextBus.busNumberLast
    lastSub hw.link none
  have hview {barsNum : ℕ} {layout : BarLayout barsNum} (hnum : barsNum ≤ 2)
      (h : CachedView layout dev) (hgate : GateHardware dev) (hexp : ExpApart dev) :=
    @CachedView.scanned _ pcie₁.nextBus pcie₂ pcie₁.nextBus.busNumberLast lastSub hw.link
      { dev with activated := true } _ layout hnum ⟨⟨h.bars, h.memory⟩, h.mask, ⟨h.enables.msi, h.enables.msix⟩⟩
      ⟨hgate.msi, hgate.msix, hgate.apart, hgate.writable⟩ hexp
  have hclass' : pciReadConfig16 dev pciClassDevice = pciClassBridgePci :=
    (setup_record hsetup).1.trans (of_decide_eq_true hclass)
  generalize scannedBridge pcie₁.nextBus pcie₂ pcie₁.nextBus.busNumberLast lastSub hw.link
    { dev with activated := true } = final at hwritten hbridge hview ⊢
  have hrecord : final = { dev with activated := true, cfg := final.cfg } := hwritten.record
  have hsame : SameFunction dev final := by
    refine ⟨hwritten.device.1, ?_, ?_, ?_⟩ <;> rw [hrecord]
  refine ⟨?_, ?_, hsame.msiDecoded hdev.msi, hsame.msixDecoded hdev.msix,
    fun {barsNum layout} hconf => ?_⟩
  · rw [hrecord]
    exact hdev.slots
  · rw [hrecord]
    exact hdev.active
  · -- it conformed before the scan already, when the view was that of its set-up
    have hconf' : ConformingFunction layout dev := by
      refine hconf.congr ?_ hwritten.device.symm (hclass'.trans hbridge.symm)
      rw [hrecord]
    obtain ⟨hheader, hexp⟩ := hconf'.bridge hclass'
    refine hview ?_ (hdev.view hconf') ⟨hdev.msi, hdev.msix, hconf'.apart, hconf'.mask⟩ hexp
    rw [← hconf'.slots, hdev.slots, hheader]
    decide

end Configured

/-- **Every function of a machine** is as enumeration leaves it. -/
theorem configured_of_enumerate {functions : Forest HwFunction} {bus : PciBus}
    {configured : Forest ConfiguredFunction} {e e' : EnumState σ} (htopology : Topology functions)
    (h : enumerate functions e = .ok (bus, configured) e') :
    ∀ f ∈ configured.toList, Configured f.dev :=
  (scan_of_enumerate htopology h).forall_functions (fun _ hsetup => configured_setup hsetup)
    fun pcie₂ lastSub hclass hsetup => configured_scanned pcie₂ lastSub hclass hsetup

/-! ## Runs -/

/-- The functions of a machine behind enumeration, on a controller with every slot free. -/
structure Started (configured : Forest ConfiguredFunction) (s : IrqState ι σ) : Prop where
  used : s.pcie.msi.used = 0
  servers : ∀ j, s.pcie.msi.servers j = none
  devs : ∀ i, ∃ f ∈ configured.toList, s.devs i = f.dev

section Runs

variable {functions : Forest HwFunction} {bus : PciBus} {configured : Forest ConfiguredFunction}
  {e e' : EnumState σ} {s : IrqState ι σ} {barsNum : ι → ℕ} {layout : ∀ i, BarLayout (barsNum i)}

/-- Before the first call, the view of every function can be carried. -/
theorem cachedReady_of_started (hdevs : ∀ i, Configured (s.devs i)) (hused : s.pcie.msi.used = 0)
    (hservers : ∀ j, s.pcie.msi.servers j = none)
    (hconf : ∀ i, ConformingFunction (layout i) (s.devs i)) (i : ι) : CachedReady (layout i) s i := by
  have hready : GatesReady s :=
    ⟨slotsOwned_of_fresh hused hservers fun i => (hdevs i).active,
      fun i => ⟨(hdevs i).msi, (hdevs i).msix, (hconf i).apart, (hconf i).mask⟩,
      fun i hmode => absurd ((hdevs i).active ▸ hmode) (by decide)⟩
  have hview := (hdevs i).view (hconf i)
  refine ⟨hready, (hconf i).enables, DeviceGate.of_not_usesSlots hview.mask ?_, hview.toHeaderView,
    hview.enables⟩
  rw [(hdevs i).active]
  decide

/-- **The registers of a function and its record.** In every state that interrupt calls and resets lead
to after enumeration, the registers of a conforming function hold what its record says, if it has not
been reset. -/
theorem cachedView_run [DecidableEq ι] [Gic400 σ] (htopology : Topology functions)
    (henum : enumerate functions e = .ok (bus, configured) e') (hs : Started configured s)
    (hconf : ∀ i, ConformingFunction (layout i) (s.devs i)) {reset : ι → PciDevice → PciDevice}
    (hreset : ∀ j dev, PoweredOn dev (reset j dev)) (cs : List (DeviceCall ι)) (i : ι)
    (hnot : EveryStep (deviceStep reset) (fun s c => ¬ c.Resets s i) s cs) :
    CachedView (layout i) ((run (deviceStep reset) s cs).devs i) := by
  have hdevs : ∀ i, Configured (s.devs i) := fun i => by
    obtain ⟨f, hf, heq⟩ := hs.devs i
    rw [heq]
    exact configured_of_enumerate htopology henum f hf
  have hnum : barsNum i ≤ 6 := (hconf i).slots ▸ (hdevs i).barsNum_le
  have hready := cachedReady_of_started hdevs hs.used hs.servers hconf i
  exact (cachedReady_run hnum hreset hready cs hnot).view

end Runs

/-! ## A small machine

Two functions behind a bridge, each with a BAR of 4 KiB, an MSI capability of 32 maskable vectors and a
PCI Express capability that says it can be reset. -/

/-- Such a function. -/
@[irreducible] def flrEndpoint (device : ℕ) : HwFunction where
  device := device
  function := 0
  cfg :=
    { regs := packRegisters [(pciVendorId, 0x34831106), (pciClassRevision, 0x0c033000),
        (pciStatus, 0x10), (pciCapabilityList, 0x50), (0x50, 0x018a7005), (0x70, 0x00020010),
        (0x70 + pciExpDevcap, 0x10000000)]
      rw := packRegisters [(pciCommand, 0xffff), (pciBaseAddress0, 0xfffff000),
        (0x50 + pciMsiFlags, 0x71), (0x50 + pciMsiAddressLo, 0xfffffffc),
        (0x50 + pciMsiAddressHi, 0xffffffff), (0x50 + pciMsiData64, 0xffff),
        (0x50 + pciMsiMask64, 0xffffffff), (0x70 + pciExpDevctl, 0xffff)] }

/-- Two such functions behind a bridge. -/
@[irreducible] def flrMachine : Forest HwFunction :=
  .node (sampleBridge false) (.node (sampleBridge false)
    (.node (flrEndpoint 0) .nil (.node (flrEndpoint 1) .nil .nil)) .nil) .nil

/-- The controller of `sampleState` with the memory of `sampleController`. -/
def flrEnum : EnumState GicTable where
  pcie := { sampleState.pcie with regions := sampleController.regions }
  memory := {}

/-- The functions that a scan has configured. -/
def scannedFunctions :
    EStateM.Result Errno (EnumState σ) (PciBus × Forest ConfiguredFunction) → List ConfiguredFunction
  | .ok r _ => r.2.toList
  | .error _ _ => []

/-- The two functions behind enumeration. -/
@[irreducible] def flrDevice (second : Bool) : PciDevice :=
  ((scannedFunctions (enumerate flrMachine flrEnum))[if second then 3 else 2]?.map
    ConfiguredFunction.dev).getD ((flrEndpoint 0).record 0)

example : (flrDevice true).msi = ⟨0x50, 0, true, true, 5, 0x60⟩ := by decide +kernel

example : FlrCapable (flrDevice true) := by decide +kernel

/-- The controller and the two functions before any call. -/
def flrState : IrqState Bool GicTable where
  pcie := flrEnum.pcie
  devs := flrDevice

/-- The BAR of such a function. -/
def flrLayout : BarLayout 6 where
  bar
    | 0 => some ⟨.mem32 false, 12, by decide, by decide⟩
    | _ => none
  lt {slot b} h := by
    cases slot with
    | zero => decide
    | succ slot => cases h
  upper {slot b} h h64 := by
    cases slot with
    | zero =>
      obtain rfl := Option.some.inj h
      cases h64
    | succ slot => cases h

/-- The functions of the machine stand where functions can stand. -/
theorem flrMachine_topology : Topology flrMachine := by
  decide +kernel

/-- The enumeration of the machine succeeds. -/
theorem flrMachine_ok : ∃ bus configured e',
    enumerate flrMachine flrEnum = .ok (bus, configured) e' :=
  exists_of_scanOk (by decide +kernel)

/-- The state is that after the enumeration. -/
theorem flrState_started {bus : PciBus} {configured : Forest ConfiguredFunction}
    {e' : EnumState GicTable} (h : enumerate flrMachine flrEnum = .ok (bus, configured) e') :
    Started configured flrState := by
  refine ⟨rfl, fun _ => rfl, fun second => ?_⟩
  have hsome : (scannedFunctions (enumerate flrMachine flrEnum))[if second then 3 else 2]?.isSome
      = true := by
    revert second
    decide +kernel
  obtain ⟨f, hf⟩ := Option.isSome_iff_exists.1 hsome
  refine ⟨f, ?_, ?_⟩
  · rw [h] at hf
    exact List.mem_of_getElem? hf
  · show flrDevice second = f.dev
    unfold flrDevice
    rw [hf]
    rfl

/-- Its functions implement the layout. -/
theorem laidOut_flrDevice (second : Bool) : LaidOut (flrDevice second).cfg flrLayout := by
  have hbar : Implements (flrDevice second).cfg 0 ⟨.mem32 false, 12, by decide, by decide⟩ := by
    revert second
    decide +kernel
  have hempty : ∀ slot < 6, slot ≠ 0 → barResponse (flrDevice second).cfg slot = 0 := by
    revert second
    decide +kernel
  refine ⟨fun {slot b} hb => ?_, fun hlt hnone _ => hempty _ hlt ?_⟩
  · cases slot with
    | zero =>
      obtain rfl := Option.some.inj hb
      exact hbar
    | succ slot => cases hb
  · rintro rfl
    cases hnone

/-- And are conforming. -/
theorem flrDevice_conforming (second : Bool) : ConformingFunction flrLayout (flrDevice second) where
  slots := by
    revert second
    decide +kernel
  bars := laidOut_flrDevice second
  decode slot b hb := by
    have hdecode : CanDecode (flrDevice second) (.mem32 false) := by
      revert second
      decide +kernel
    cases slot with
    | zero =>
      obtain rfl := Option.some.inj hb
      exact hdecode
    | succ slot => cases hb
  apart := by
    revert second
    unfold CapsApart
    decide +kernel
  mask := by
    revert second
    unfold MaskWritable RegisterFile.Writable
    decide +kernel
  enables := by
    have hmsi : ∀ second, (flrDevice second).cfg.Writable 16
        ((flrDevice second).msi.capOffset + pciMsiFlags) pciMsiFlagsEnable := by
      unfold RegisterFile.Writable
      decide +kernel
    have hmsix : ∀ second, (flrDevice second).msix.capOffset = 0 := by
      decide +kernel
    exact ⟨fun _ => hmsi second, fun hcap => absurd (hmsix second) hcap⟩
  bridge hclass := by
    have hnot : pciReadConfig16 (flrDevice second) pciClassDevice ≠ pciClassBridgePci := by
      revert second
      decide +kernel
    exact absurd hclass hnot

/-- Hardware that clears every register on a reset. -/
def clearRegisters (dev : PciDevice) : PciDevice := { dev with cfg := dev.cfg.write (8 * 4096) 0 0 }

/-- Registers cleared are registers as after power-on. -/
theorem poweredOn_clearRegisters (dev : PciDevice) : PoweredOn dev (clearRegisters dev) := by
  refine ⟨rfl, RegisterFile.sameDevice_write .., fun r _ => ?_⟩
  apply BitVec.eq_of_getLsbD_eq
  intro i hi
  show ((dev.cfg.write (8 * 4096) 0 0).read r.1 r.2).getLsbD i = _
  rw [RegisterFile.getLsbD_read_write _ _ _ _ _ _ _ hi, RegisterFile.getLsbD_response _ _ _ _ hi]
  by_cases hrw : dev.cfg.rw.getLsbD (8 * r.2 + i) = true
  · have hlt := BitVec.lt_of_getLsbD hrw
    rw [if_pos ⟨hrw, by omega, by omega⟩, if_pos hrw]
    simp
  · rw [if_neg fun h => hrw h.1, if_neg hrw]

/-- A block of MSI vectors of the second function, of which one gets a server, around a reset of the
first. -/
theorem cachedView_run_sample :
    CachedView flrLayout ((run (deviceStep fun _ => clearRegisters) flrState
      [.irq (.vector (.allocIntVectors (some true) 4 4 pciIrqMsi)), .flr (some false),
        .irq (.vector (.addIntVectorServer (some true) 1 (some ⟨0x1000⟩)))]).devs true) := by
  obtain ⟨bus, configured, e', henum⟩ := flrMachine_ok
  exact cachedView_run flrMachine_topology henum (flrState_started henum) flrDevice_conforming
    (fun _ => poweredOn_clearRegisters) _ true
    ⟨id, fun h => Bool.false_ne_true h.1, id, trivial⟩

/-- **A reset** of a function that has vectors. Its BAR and mask registers are cleared, and its record
still has the address and the mask. -/
theorem cachedView_fails : ∃ bus configured e',
    enumerate flrMachine flrEnum = .ok (bus, configured) e' ∧ Started configured flrState ∧
      (∀ i, ConformingFunction flrLayout (flrState.devs i)) ∧
      (∀ dev, PoweredOn dev (clearRegisters dev)) ∧
      let dev := (run (deviceStep fun _ => clearRegisters) flrState
        [.irq (.vector (.allocIntVectors (some true) 4 4 pciIrqMsi)), .flr (some true)]).devs true
      ¬ HeaderView flrLayout dev ∧ ¬ MaskSynced dev := by
  obtain ⟨bus, configured, e', henum⟩ := flrMachine_ok
  refine ⟨bus, configured, e', henum, flrState_started henum, flrDevice_conforming,
    poweredOn_clearRegisters, fun h => ?_, fun h => ?_⟩
  · have hpresent : (((run (deviceStep fun _ => clearRegisters) flrState
        [.irq (.vector (.allocIntVectors (some true) 4 4 pciIrqMsi)), .flr (some true)]).devs
          true).bars 0).present = true := by
      decide +kernel
    have hheld := h.bars 0 _ rfl hpresent fun hio => by cases hio
    revert hheld
    decide +kernel
  · have hmaskable : ((run (deviceStep fun _ => clearRegisters) flrState
        [.irq (.vector (.allocIntVectors (some true) 4 4 pciIrqMsi)), .flr (some true)]).devs
          true).msi.maskable = true := by
      decide +kernel
    have hsynced := h hmaskable
    revert hsynced
    decide +kernel

end BcmPcie
