import BcmPcie.Enumeration.BusNumbers
import BcmPcie.Enumeration.Spans

/-! # Enumerating a machine again

The library can be removed and loaded again, and it then finds the registers of the functions as it and
the drivers have left them: addresses in the BARs, windows open, buses numbered. What the enumeration
makes of a machine depends on the hardware alone, on what registers answer and on what is hard-wired, so
it comes to the same again.

* `SameHardware` — two functions that differ in what their registers hold.
* `Alike` — two records of such functions that agree in what the set-up finds out.
* `sameLayout_of_enumerate` — enumerated again, a machine gets the same buses, addresses and windows. -/

namespace BcmPcie

variable {σ : Type}

/-! ## Hardware -/

/-- The fields a function is known by: its number of bits and its offset. -/
def identityFields : List (ℕ × ℕ) :=
  [(16, pciVendorId), (16, pciDeviceId), (32, pciClassRevision), (8, pciRevisionId),
    (16, pciClassDevice), (8, pciHeaderType), (8, pciInterruptPin)]

/-- The fields a function is known by are hard-wired. -/
def IdentityFixed (cfg : RegisterFile 4096) : Prop := ∀ p ∈ identityFields, cfg.Hardwired p.1 p.2

instance (cfg : RegisterFile 4096) : Decidable (IdentityFixed cfg) :=
  inferInstanceAs (Decidable (∀ p ∈ identityFields, _))

/-- An identity field reads the same after any writes. -/
theorem IdentityFixed.read {cfg cfg' : RegisterFile 4096} (hfixed : IdentityFixed cfg)
    (h : cfg.SameDevice cfg') {w offset : ℕ} (hfield : (w, offset) ∈ identityFields) :
    cfg'.read w offset = cfg.read w offset :=
  h.read (hfixed _ hfield)

/-- The identity of a device stays fixed after any writes. -/
theorem IdentityFixed.of_sameDevice {cfg cfg' : RegisterFile 4096} (hfixed : IdentityFixed cfg)
    (h : cfg.SameDevice cfg') : IdentityFixed cfg' := by
  intro p hp i hi
  rw [h.1]
  exact hfixed p hp i hi

/-- One function at two times: whatever its registers hold. -/
structure SameHardware (hw hw' : HwFunction) : Prop where
  device : hw'.device = hw.device
  function : hw'.function = hw.function
  cfg : hw.cfg.SameDevice hw'.cfg
  fixed : IdentityFixed hw.cfg

namespace SameHardware

variable {hw hw' : HwFunction} (h : SameHardware hw hw')

include h

/-- The two reads of an identity field agree. -/
theorem read {w offset : ℕ} (hfield : (w, offset) ∈ identityFields) :
    hw'.cfg.read w offset = hw.cfg.read w offset :=
  h.fixed.read h.cfg hfield

/-- What has been written to a function does not decide whether it answers. -/
theorem answers : hw'.answers = hw.answers := by
  unfold HwFunction.answers
  rw [h.read (by decide)]

/-- Nor does it decide whether its device has more functions. -/
theorem multi : hw'.multi = hw.multi := by
  unfold HwFunction.multi
  rw [h.read (by decide)]

/-- The layout of its header is the same. -/
theorem headerType : hw'.headerType = hw.headerType := by
  unfold HwFunction.headerType
  rw [h.read (by decide)]

/-- A bridge stays a bridge. -/
theorem isBridge : hw'.isBridge = hw.isBridge := by
  unfold HwFunction.isBridge
  rw [h.read (by decide)]

end SameHardware

/-- On the same bus the same functions are found. -/
theorem found_eq_of_same {level level' : List HwFunction} {hw hw' : HwFunction}
    (hlevel : List.Forall₂ SameHardware level level') (h : SameHardware hw hw') :
    found level' hw' = found level hw := by
  have hany : (level'.any fun f => decide (f.device = hw'.device ∧ f.function = 0) && f.answers && f.multi)
      = level.any fun f => decide (f.device = hw.device ∧ f.function = 0) && f.answers && f.multi := by
    induction hlevel with
    | nil => rfl
    | cons hf _ ih =>
      rw [List.any_cons, List.any_cons, ih, hf.device, hf.function, hf.answers, hf.multi, h.device]
  unfold found
  rw [hany, h.answers, h.function]

/-- The functions that are found are the same before and after, bus by bus. -/
theorem matches_visibleAmong {functions functions' : Forest HwFunction}
    (h : functions.Matches SameHardware functions') {level level' : List HwFunction}
    (hlevel : List.Forall₂ SameHardware level level') :
    (visibleAmong level functions).Matches SameHardware (visibleAmong level' functions') := by
  induction h generalizing level level' with
  | nil => exact .nil
  | @node hw hw' children children' siblings siblings' hvalue hchildren _ ihc ihs =>
    rw [visibleAmong, visibleAmong, found_eq_of_same hlevel hvalue, hvalue.isBridge]
    split
    · refine .node hvalue ?_ (ihs hlevel)
      split
      · exact ihc hchildren.roots
      · exact .nil
    · exact ihs hlevel

/-- The scan of the same machine goes through the same functions. -/
theorem matches_visible {functions functions' : Forest HwFunction}
    (h : functions.Matches SameHardware functions') :
    (visible functions).Matches SameHardware (visible functions') :=
  matches_visibleAmong h h.roots

/-! ## Records -/

/-- Two records of a function at two times: they differ in what the registers hold, in what is kept of
its MSI capabilities, and in the subsystem, which on a bridge is read from a window register. -/
structure Alike (dev dev' : PciDevice) : Prop where
  record : dev' = { dev with
    cfg := dev'.cfg, tableMem := dev'.tableMem, msi := dev'.msi, msix := dev'.msix,
    subsysVendor := dev'.subsysVendor, subsysId := dev'.subsysId }
  device : dev.cfg.SameDevice dev'.cfg
  fixed : IdentityFixed dev.cfg

namespace Alike

variable {dev dev' : PciDevice} (h : Alike dev dev')

include h

/-- Records that are alike have room for as many BARs. -/
theorem barsNum : dev'.barsNum = dev.barsNum := by rw [h.record]

/-- Records that are alike are of the same header type. -/
theorem headerType : dev'.headerType = dev.headerType := by rw [h.record]

/-- Records that are alike are of the same device and function. -/
theorem devfn : dev'.devfn = dev.devfn := by rw [h.record]

/-- Records that are alike have the same address on the buses. -/
theorem bdf : dev'.bdf = dev.bdf := by rw [h.record]

/-- Whatever is written to the registers of both. -/
theorem rewritten {ranges ranges' : List (ℕ × ℕ)} {dev₁ dev₁' : PciDevice}
    (h₁ : Rewritten ranges dev dev₁) (h₁' : Rewritten ranges' dev' dev₁') : Alike dev₁ dev₁' := by
  refine ⟨?_, (h₁.device.symm.trans h.device).trans h₁'.device, h.fixed.of_sameDevice h₁.device⟩
  rw [h₁'.record, h₁.record, h.record]

/-- Whatever is written to one register. -/
theorem write {w offset : ℕ} (value value' : BitVec w) :
    Alike (pciWriteConfig w dev offset value) (pciWriteConfig w dev' offset value') := by
  unfold pciWriteConfig
  split
  · exact h
  · refine ⟨?_, ((RegisterFile.sameDevice_write _ _ _ _).symm.trans h.device).trans
      (RegisterFile.sameDevice_write _ _ _ _), h.fixed⟩
    rw [h.record]

/-- An identity field is read alike through both records. -/
theorem read {w offset : ℕ} (hfield : (w, offset) ∈ identityFields) :
    pciReadConfig w dev' offset = pciReadConfig w dev offset := by
  unfold pciReadConfig
  rw [h.fixed.read h.device hfield]

/-- Records that are alike stay so when both are activated. -/
theorem activated : Alike { dev with activated := true } { dev' with activated := true } := by
  refine ⟨?_, h.device, h.fixed⟩
  rw [h.record]

/-- A BAR of both is placed. -/
theorem placed (slot : ℕ) (bar : PciBarInfo) :
    Alike { dev with bars := Function.update dev.bars slot bar }
      { dev' with bars := Function.update dev'.bars slot bar } := by
  refine ⟨?_, h.device, h.fixed⟩
  rw [h.record]

end Alike

/-- The records of a function that the scan of a bus makes. -/
theorem SameHardware.record {hw hw' : HwFunction} (h : SameHardware hw hw') (b : ℕ) :
    Alike (hw.record b) (hw'.record b) := by
  have hvendor := @SameHardware.read _ _ h 16 pciVendorId (by decide)
  have hdevice := @SameHardware.read _ _ h 16 pciDeviceId (by decide)
  have hclass := @SameHardware.read _ _ h 32 pciClassRevision (by decide)
  have hrevision : hw'.cfg.read 8 pciRevisionId = hw.cfg.read 8 pciRevisionId := h.read (by decide)
  refine ⟨?_, h.cfg, h.fixed⟩
  unfold HwFunction.record newDevice pciReadConfig8 pciReadConfig16 pciReadConfig
  dsimp only
  rw [h.device, h.function, h.headerType, hvendor, hdevice, hclass, hrevision]

/-! ## The set-up of a function -/

/-- The set-up has come to the same. -/
structure AlikeSetup (st st' : SetupState σ) : Prop where
  pcie : st'.pcie = st.pcie
  dev : Alike st.dev st'.dev

section Setup

variable {st st' : SetupState σ} (regions : RegionKind → Option ℕ)

/-- A round of the loop over the BARs: what is done next depends on what the register answers and on
where the pointers stand. -/
theorem AlikeSetup.setupBar (h : AlikeSetup st st') {slot : ℕ} (hslot : slot < 7) :
    AlikeSetup (setupBar regions st slot).1 (setupBar regions st' slot).1 ∧
      (BcmPcie.setupBar regions st' slot).2 = (BcmPcie.setupBar regions st slot).2 := by
  have hresponse : barResponse st'.dev.cfg slot = barResponse st.dev.cfg slot :=
    h.dev.device.response 32 _ _
  obtain ⟨dev, hdev, hround⟩ := setupBar_round regions st hslot rfl
  obtain ⟨dev', hdev', hround'⟩ := setupBar_round regions st' hslot hresponse
  have hpcie := h.pcie
  have halike := h.dev.rewritten hdev hdev'
  rw [hpcie] at hround'
  rcases hround with ⟨hnone, heq⟩ | ⟨hbar, hfailed, heq⟩ | ⟨hbar, addr, pcie, halloc, -, heq⟩
  · obtain ⟨-, heq'⟩ | ⟨hbar, -⟩ | ⟨hbar, -⟩ := hround'
    · rw [heq, heq']
      exact ⟨⟨rfl, halike⟩, rfl⟩
    · exact absurd hnone hbar
    · exact absurd hnone hbar
  · obtain ⟨hnone, -⟩ | ⟨-, -, heq'⟩ | ⟨-, addr, pcie, halloc, -⟩ := hround'
    · exact absurd hnone hbar
    · rw [heq, heq']
      exact ⟨⟨rfl, halike⟩, rfl⟩
    · rw [hfailed] at halloc
      cases halloc
  · obtain ⟨hnone, -⟩ | ⟨-, hfailed, -⟩ | ⟨-, addr', pcie', halloc', -, heq'⟩ := hround'
    · exact absurd hnone hbar
    · rw [halloc] at hfailed
      cases hfailed
    · rw [halloc] at halloc'
      obtain ⟨rfl, rfl⟩ := Prod.mk.inj (Option.some.inj halloc')
      rw [heq, heq', ← hdev.bars, ← hdev'.bars]
      exact ⟨⟨rfl, halike.placed slot _⟩, rfl⟩

/-- The loop over the BARs takes the same turns for both records, whatever was left in their
registers. -/
theorem AlikeSetup.setupBars (h : AlikeSetup st st') {barsNum : ℕ} (hnum : barsNum ≤ 6)
    (rounds slot : ℕ) : AlikeSetup (setupBars regions barsNum rounds slot st)
      (BcmPcie.setupBars regions barsNum rounds slot st') := by
  induction rounds generalizing slot st st' with
  | zero => exact h
  | succ rounds ih =>
    rw [BcmPcie.setupBars, BcmPcie.setupBars]
    split
    · rename_i hslot
      obtain ⟨hround, hnext⟩ := h.setupBar regions (show slot < 7 by omega)
      dsimp only
      rw [hnext]
      exact ih hround _
    · exact h

/-- The expansion ROM is placed alike for both records. -/
theorem AlikeSetup.setupRom (h : AlikeSetup st st') :
    AlikeSetup (setupRom regions st) (setupRom regions st') := by
  have hresponse : romResponse st'.dev.cfg st'.dev.headerType
      = romResponse st.dev.cfg st.dev.headerType := by
    rw [h.dev.headerType]
    unfold romResponse
    split
    · rfl
    · exact h.dev.device.response 32 _ _
  obtain ⟨dev, hdev, hcases⟩ := setupRom_cases regions st rfl
  obtain ⟨dev', hdev', hcases'⟩ := setupRom_cases regions st' hresponse
  have hpcie := h.pcie
  have halike := h.dev.rewritten hdev hdev'
  rw [hpcie] at hcases'
  rcases hcases with ⟨hnone, heq⟩ | ⟨hrom, hfailed, command, heq⟩ | ⟨hrom, addr, pcie, command, halloc, heq⟩
  · obtain ⟨-, heq'⟩ | ⟨hrom, -⟩ | ⟨hrom, -⟩ := hcases'
    · rw [heq, heq']
      exact ⟨rfl, halike⟩
    · exact absurd hnone hrom
    · exact absurd hnone hrom
  · obtain ⟨hnone, -⟩ | ⟨-, -, command', heq'⟩ | ⟨-, addr, pcie, command', halloc, -⟩ := hcases'
    · exact absurd hnone hrom
    · rw [heq, heq']
      exact ⟨rfl, halike⟩
    · rw [hfailed] at halloc
      cases halloc
  · obtain ⟨hnone, -⟩ | ⟨-, hfailed, -⟩ | ⟨-, addr', pcie', command', halloc', heq'⟩ := hcases'
    · exact absurd hnone hrom
    · rw [halloc] at hfailed
      cases hfailed
    · rw [halloc] at halloc'
      obtain ⟨rfl, rfl⟩ := Prod.mk.inj (Option.some.inj halloc')
      rw [heq, heq']
      exact ⟨rfl, halike⟩

end Setup

/-- Behind bridges at the same device numbers a pin is wired to the same pin of the root port. -/
theorem swizzleToRoot_congr {bridges bridges' : List PciDevice} {dev dev' : PciDevice}
    (hbridges : bridges'.map PciDevice.devfn = bridges.map PciDevice.devfn)
    (hdev : dev'.devfn = dev.devfn) (pin : ℕ) :
    swizzleToRoot bridges' dev' pin = swizzleToRoot bridges dev pin := by
  induction bridges generalizing bridges' dev dev' pin with
  | nil =>
    obtain rfl := List.map_eq_nil_iff.1 hbridges
    rfl
  | cons bridge bridges ih =>
    obtain ⟨bridge', rest, rfl, hbridge, hrest⟩ := List.map_eq_cons_iff.1 hbridges
    rw [swizzleToRoot, swizzleToRoot, pciSwizzleInterruptPin, pciSwizzleInterruptPin, hdev]
    exact ih hrest hbridge _

/-- The INTx line depends on the pin and on where the device stands, so it is the same. -/
theorem Alike.pciAssignIrq {dev dev' : PciDevice} (h : Alike dev dev')
    {bridges bridges' : List PciDevice}
    (hbridges : bridges'.map PciDevice.devfn = bridges.map PciDevice.devfn) (pcie : PciController σ) :
    Alike (pciAssignIrq pcie bridges dev) (pciAssignIrq pcie bridges' dev') := by
  have hintx (intx : DeviceIntx) : Alike { dev with intx := intx } { dev' with intx := intx } := by
    refine ⟨?_, h.device, h.fixed⟩
    rw [h.record]
  have hsame : dev'.intx = dev.intx := by rw [h.record]
  have hpin : pciReadConfig8 dev' pciInterruptPin = pciReadConfig8 dev pciInterruptPin :=
    h.read (by decide)
  have hroot (intx : DeviceIntx) (pin : ℕ) : swizzleToRoot bridges' { dev' with intx := intx } pin
      = swizzleToRoot bridges { dev with intx := intx } pin :=
    swizzleToRoot_congr hbridges (by exact h.devfn) pin
  unfold BcmPcie.pciAssignIrq
  dsimp only
  rw [hpin, hsame]
  generalize (if 4 < (pciReadConfig8 dev pciInterruptPin).toNat then 1
    else (pciReadConfig8 dev pciInterruptPin).toNat) = pin
  split
  · exact hintx _
  · rw [hroot]
    exact (hintx _).write _ _

/-- The set-up of the MSI capability changes what is kept of it. -/
theorem Alike.pciMsiInit {dev dev' : PciDevice} (h : Alike dev dev') :
    Alike (pciMsiInit dev) (pciMsiInit dev') := by
  have hmsi (dev : PciDevice) : BcmPcie.pciMsiInit dev
      = { dev with cfg := (BcmPcie.pciMsiInit dev).cfg, msi := (BcmPcie.pciMsiInit dev).msi } := by
    unfold BcmPcie.pciMsiInit
    dsimp only
    split <;> rfl
  refine ⟨?_, ((pciMsiInit_frame dev).1.device.symm.trans h.device).trans
    (pciMsiInit_frame dev').1.device, h.fixed.of_sameDevice (pciMsiInit_frame dev).1.device⟩
  rw [hmsi dev', hmsi dev, h.record]

/-- The MSI-X table is found in the same place. -/
theorem Alike.pciMsixInit {dev dev' : PciDevice} (h : Alike dev dev') :
    Alike (pciMsixInit dev) (pciMsixInit dev') := by
  have hmsix (dev : PciDevice) : BcmPcie.pciMsixInit dev
      = { dev with cfg := (BcmPcie.pciMsixInit dev).cfg, msix := (BcmPcie.pciMsixInit dev).msix } := by
    unfold BcmPcie.pciMsixInit
    dsimp only
    repeat' split
    all_goals rfl
  refine ⟨?_, ((pciMsixInit_frame dev).1.device.symm.trans h.device).trans
    (pciMsixInit_frame dev').1.device, h.fixed.of_sameDevice (pciMsixInit_frame dev).1.device⟩
  rw [hmsix dev', hmsix dev, h.record]

/-- **The set-up of a function** comes to the same whatever its registers held. -/
theorem alike_setup {pcie pcie₁ pcie₁' : PciController σ} {bridges bridges' : List PciDevice}
    {hw hw' : HwFunction} {b : ℕ} {dev dev' : PciDevice} (hsame : SameHardware hw hw')
    (hbridges : bridges'.map PciDevice.devfn = bridges.map PciDevice.devfn)
    (h : pciautoSetupDevice pcie bridges (hw.record b) pcie.ptr = (pcie₁, dev))
    (h' : pciautoSetupDevice pcie bridges' (hw'.record b) pcie.ptr = (pcie₁', dev')) :
    pcie₁' = pcie₁ ∧ Alike dev dev' := by
  have hrecord := hsame.record b
  unfold pciautoSetupDevice at h h'
  dsimp only at h h'
  rw [hrecord.barsNum] at h'
  generalize (pciReadConfig16 (hw.record b) pciCommand &&& _ ||| _) = command at h
  generalize (pciReadConfig16 (hw'.record b) pciCommand &&& _ ||| _) = command' at h'
  have hstart : AlikeSetup (⟨pcie, hw.record b, command⟩ : SetupState σ)
      ⟨pcie, hw'.record b, command'⟩ := ⟨rfl, hrecord⟩
  have hset := (hstart.setupBars pcie.ptr (record_barsNum hw b) (hw.record b).barsNum 0).setupRom pcie.ptr
  generalize setupRom pcie.ptr (setupBars pcie.ptr _ _ 0 ⟨pcie, hw.record b, command⟩) = st at h hset
  generalize setupRom pcie.ptr (setupBars pcie.ptr _ _ 0 ⟨pcie, hw'.record b, command'⟩) = st' at h' hset
  obtain ⟨rfl, rfl⟩ := Prod.mk.inj h
  obtain ⟨rfl, rfl⟩ := Prod.mk.inj h'
  refine ⟨hset.pcie, ?_⟩
  rw [hset.pcie]
  exact ((((hset.dev.write _ _).write _ _).write _ _).pciAssignIrq hbridges st.pcie).pciMsiInit.pciMsixInit

/-! ## The scan -/

/-- What was made of a function is the same: its record, and on a bridge the numbers of the bus behind
it and the window of memory. -/
structure SameLayout (f f' : ConfiguredFunction) : Prop where
  secondary : f'.secondary = f.secondary
  record : Alike f.dev f'.dev
  numbers : f.secondary.isSome → ∀ r ∈ [pciPrimaryBus, pciSecondaryBus, pciSubordinateBus],
    pciReadConfig8 f'.dev r = pciReadConfig8 f.dev r
  window : f.secondary.isSome → memoryBase f'.dev = memoryBase f.dev ∧ memoryEnd f'.dev = memoryEnd f.dev

/-- What the bridges implement of the numbers and the windows. -/
def BridgesConform (functions : Forest HwFunction) : Prop :=
  ∀ hw ∈ functions.toList, hw.isBridge = true → BusNumberRegisters hw.cfg ∧ ConformingBridge hw.cfg

/-- Functions that are no bridges have the same layout if their records are alike. -/
theorem sameLayout_leaf {dev dev' : PciDevice} (h : Alike dev dev') :
    SameLayout ⟨dev, none⟩ ⟨dev', none⟩ where
  secondary := rfl
  record := h
  numbers hsome := by cases hsome
  window hsome := by cases hsome

/-- A bridge once its windows were opened and closed. -/
theorem alike_scannedBridge {pcie pcie' : PciController σ} {busNumber lastSub : ℕ}
    {link link' : LinkAnswers} {dev dev' : PciDevice} (h : Alike dev dev') :
    Alike (scannedBridge pcie pcie' busNumber lastSub link dev)
      (scannedBridge pcie pcie' busNumber lastSub link' dev') :=
  h.rewritten (scannedBridge_rewritten pcie pcie' busNumber lastSub link dev)
    (scannedBridge_rewritten pcie pcie' busNumber lastSub link' dev')

/-- A bridge has the same layout after its scan, as its bus numbers and windows are written by the
scan. -/
theorem sameLayout_scannedBridge {pcie pcie' : PciController σ} {busNumber lastSub : ℕ}
    {link link' : LinkAnswers} {dev dev' : PciDevice} {secondary : Option BusNumbers}
    (h : Alike dev dev') (hnumbers : BusNumberRegisters dev.cfg) (hwindows : ConformingBridge dev.cfg)
    {res res' : PciRegion} (hres : pcie.chosen .mem = some res) (hres' : pcie'.chosen .mem = some res') :
    SameLayout ⟨scannedBridge pcie pcie' busNumber lastSub link dev, secondary⟩
      ⟨scannedBridge pcie pcie' busNumber lastSub link' dev', secondary⟩ where
  secondary := rfl
  record := alike_scannedBridge h
  numbers _ r hr := by
    obtain ⟨hprimary, hsecondary, hsub⟩ := @scanned_busNumbers _ pcie pcie' busNumber lastSub link _ hnumbers
    obtain ⟨hprimary', hsecondary', hsub'⟩ := @scanned_busNumbers _ pcie pcie' busNumber lastSub link' _
      (hnumbers.of_sameDevice h.device)
    rw [h.bdf] at hprimary'
    rcases List.mem_cons.1 hr with rfl | hr
    · exact hprimary'.trans hprimary.symm
    · rcases List.mem_cons.1 hr with rfl | hr
      · exact hsecondary'.trans hsecondary.symm
      · rcases List.mem_singleton.1 hr with rfl
        exact hsub'.trans hsub.symm
  window _ := by
    have hregisters : ∀ r ∈ [pciMemoryBase, pciMemoryLimit], dev.cfg.Writable 16 r 0xfff0#16 := fun r hr =>
      hwindows.windows r (List.mem_append_left [pciPrefMemoryBase, pciPrefMemoryLimit] hr)
    obtain ⟨hbase, hend⟩ := @scanned_memoryWindow_pointer _ _ _ busNumber lastSub link dev _ _ hres hres'
      hregisters
    obtain ⟨hbase', hend'⟩ := @scanned_memoryWindow_pointer _ _ _ busNumber lastSub link' dev' _ _ hres
      hres' fun r hr => h.device.writable.2 (hregisters r hr)
    exact ⟨hbase'.trans hbase.symm, hend'.trans hend.symm⟩

/-- **A scan of the same machine comes to the same.** -/
theorem Scan.sameLayout {b last last' last'' : ℕ} {bridges bridges' : List PciDevice}
    {pcie pcie' pcie'' : PciController σ} {functions functions' : Forest HwFunction}
    {configured configured' : Forest ConfiguredFunction}
    (h : Scan b bridges pcie last functions configured pcie' last')
    (h' : Scan b bridges' pcie last functions' configured' pcie'' last'')
    (hsame : functions.Matches SameHardware functions')
    (hbridges : bridges'.map PciDevice.devfn = bridges.map PciDevice.devfn)
    (hconf : BridgesConform functions) (hsel : pcie.Selected) (hmem : pcie.ptr .mem ≠ none) :
    pcie'' = pcie' ∧ last'' = last' ∧ configured.Matches SameLayout configured' := by
  -- on the scan: one step of the other scan belongs to each of its steps
  induction h generalizing bridges' functions' configured' pcie'' last'' with
  | nil =>
    cases hsame
    cases h'
    exact ⟨rfl, rfl, .nil⟩
  | @leaf b bridges pcie last hw siblings rest pcie₁ dev pcie' last' hclass hsetup _ ih =>
    obtain ⟨⟩ | ⟨hvalue, hchildren, hsiblings⟩ := hsame
    cases hchildren
    have hchoice := sameChoice_setup hsel hsetup
    cases h' with
    | leaf hclass' hsetup' hrest' =>
      obtain ⟨rfl, hdev⟩ := alike_setup hvalue hbridges hsetup hsetup'
      obtain ⟨hpcie, hlast, hrest⟩ := ih hrest' hsiblings hbridges
        (fun g hg => hconf g (List.mem_cons_of_mem _ hg)) hchoice.selected (by rwa [hchoice.ptr])
      exact ⟨hpcie, hlast, .node (sameLayout_leaf hdev) .nil hrest⟩
    | bridge hclass' _ _ _ =>
      rw [hvalue.isBridge, hclass] at hclass'
      cases hclass'
  | @bridge b bridges pcie last hw children siblings below rest pcie₁ dev pcie₂ lastSub pcie' last'
      hclass hsetup hscan _ ihb ihr =>
    obtain ⟨⟩ | ⟨hvalue, hchildren, hsiblings⟩ := hsame
    have hchoice₁ := sameChoice_setup hsel hsetup
    have hchoice₂ := hchoice₁.trans (sameChoice_into hchoice₁.selected)
    have hchoice₃ := hchoice₂.trans (hscan.sameChoice hchoice₂.selected)
    have hchoice₄ := hchoice₃.trans ((onlyRegions_alignWindows pcie₂).sameChoice hchoice₃.selected)
    cases h' with
    | leaf hclass' _ _ =>
      rw [hvalue.isBridge, hclass] at hclass'
      cases hclass'
    | bridge hclass' hsetup' hscan' hrest' =>
      obtain ⟨rfl, hdev⟩ := alike_setup hvalue hbridges hsetup hsetup'
      obtain ⟨rfl, rfl, hbelow⟩ := ihb hscan' hchildren
        (by rw [List.map_cons, List.map_cons, hdev.devfn, hbridges])
        (fun g hg => hconf g (List.mem_cons_of_mem _ (List.mem_append_left _ hg))) hchoice₂.selected
        (by rwa [hchoice₂.ptr])
      obtain ⟨hpcie, hlast, hrest⟩ := ihr hrest' hsiblings hbridges
        (fun g hg => hconf g (List.mem_cons_of_mem _ (List.mem_append_right _ hg))) hchoice₄.selected
        (by rwa [hchoice₄.ptr])
      refine ⟨hpcie, hlast, .node ?_ hbelow hrest⟩
      -- the windows of the bridge are opened and closed at the same pointers
      have hnext := hchoice₁.trans (sameChoice_nextBus hchoice₁.selected)
      obtain ⟨res, hres⟩ := Option.ne_none_iff_exists'.1 fun hnone =>
        hmem ((hnext.ptr _).symm.trans (ptr_eq_none_of_chosen hnext.selected hnone))
      obtain ⟨res', hres'⟩ := Option.ne_none_iff_exists'.1 fun hnone =>
        hmem ((hchoice₃.ptr _).symm.trans (ptr_eq_none_of_chosen hchoice₃.selected hnone))
      obtain ⟨hnumbers, hwindows⟩ := hconf hw List.mem_cons_self hclass
      have hdevice := (setup_record hsetup).2.2
      have hactivated : Alike { dev with activated := true } _ := hdev.activated
      exact sameLayout_scannedBridge hactivated (hnumbers.of_sameDevice hdevice)
        (hwindows.of_sameDevice hdevice) hres hres'

/-! ## The same machine -/

/-- The functions stand at the same address of their bus. -/
theorem SameHardware.address {hw hw' : HwFunction} (h : SameHardware hw hw') :
    hw'.address = hw.address := by
  unfold HwFunction.address
  rw [h.device, h.function]

/-- The same functions can be on the same bus. -/
theorem OnBus.of_same {n : ℕ} {level level' : List HwFunction} (h : OnBus n level)
    (hsame : List.Forall₂ SameHardware level level') : OnBus n level' := by
  have haddress : level'.map HwFunction.address = level.map HwFunction.address := by
    clear h
    induction hsame with
    | nil => rfl
    | cons hf _ ih => rw [List.map_cons, List.map_cons, hf.address, ih]
  have hmem {g : HwFunction} (hg : g ∈ level') := Forest.exists_rel_of_mem hsame hg
  have hsorted : (level'.map HwFunction.address).Pairwise (· < ·) := by
    rw [haddress]
    exact List.pairwise_map.2 h.sorted
  refine ⟨List.pairwise_map.1 hsorted, fun g hg => ?_, fun g hg => ?_, fun hn g hg => ?_,
    fun hn g hg => ?_⟩
  · obtain ⟨f, hf, hfg⟩ := hmem hg
    rw [hfg.device]
    exact h.device_lt f hf
  · obtain ⟨f, hf, hfg⟩ := hmem hg
    rw [hfg.function]
    exact h.function_lt f hf
  · obtain ⟨f, hf, hfg⟩ := hmem hg
    rw [hfg.device]
    exact h.link hn f hf
  · obtain ⟨f, hf, hfg⟩ := hmem hg
    rw [hfg.function, hfg.multi]
    exact h.root hn f hf

/-- The buses and devices have the same order. -/
theorem Topology.of_same {functions functions' : Forest HwFunction} (h : Topology functions)
    (hsame : functions.Matches SameHardware functions') : Topology functions' := by
  have hbelow : functions'.All fun _ children => OnBus 2 children.roots := by
    have hall := h.below
    clear h
    induction hsame with
    | nil => trivial
    | node _ hchildren _ ihc ihs => exact ⟨hall.1.of_same hchildren.roots, ihc hall.2.1, ihs hall.2.2⟩
  have hlink : ∀ p ∈ functions'.level, OnBus 1 p.2.roots := by
    have hlevel := h.link
    clear h hbelow
    induction hsame with
    | nil =>
      intro p hp
      cases hp
    | node _ hchildren _ _ ihs =>
      intro p hp
      rcases List.mem_cons.1 hp with rfl | hp
      · exact (hlevel _ List.mem_cons_self).of_same hchildren.roots
      · exact ihs (fun p hp => hlevel p (List.mem_cons_of_mem _ hp)) p hp
  exact ⟨h.root.of_same hsame.roots, hlink, hbelow⟩

/-- **Enumerated again, a machine gets the same buses, addresses and windows**, whatever the registers
of its functions hold by then: the records of the functions agree in what was found out and in the
addresses of the BARs, the pins are wired to the same interrupts, the bridges have the same numbers and
windows of memory, and the controller is left the same. -/
theorem sameLayout_of_enumerate {functions functions' : Forest HwFunction} {pcie : PciController σ}
    {memory memory' : Ledger Resource} {bus bus' : PciBus}
    {configured configured' : Forest ConfiguredFunction} {s s' : EnumState σ}
    (htopology : Topology functions) (hconf : BridgesConform functions)
    (hmem : pcie.select.ptr .mem ≠ none) (hsame : functions.Matches SameHardware functions')
    (h : enumerate functions ⟨pcie, memory⟩ = .ok (bus, configured) s)
    (h' : enumerate functions' ⟨pcie, memory'⟩ = .ok (bus', configured') s') :
    s'.pcie = s.pcie ∧ bus'.busNumberLastSub = bus.busNumberLastSub ∧
      configured.Matches SameLayout configured' := by
  obtain ⟨hsel, hptr, -⟩ := pciautoConfigInit_spec pcie
  have hscan : Scan 0 [] (pciautoConfigInit pcie) 0 (visible functions) configured s.pcie
      bus.busNumberLastSub := scan_of_enumerate htopology h
  have hscan' : Scan 0 [] (pciautoConfigInit pcie) 0 (visible functions') configured' s'.pcie
      bus'.busNumberLastSub := scan_of_enumerate (htopology.of_same hsame) h'
  refine hscan.sameLayout hscan' (matches_visible hsame) rfl
    (fun hw hhw => hconf hw ((toList_visibleAmong _ _).subset hhw)) hsel ?_
  rw [hptr]
  exact hmem

/-! ## A machine that has been used -/

/-- A function after a register of it was written. -/
def HwFunction.written (hw : HwFunction) (w offset : ℕ) (value : BitVec w) : HwFunction :=
  { hw with cfg := hw.cfg.write w offset value }

/-- A write to the registers of a function leaves its hardware as it is. -/
theorem sameHardware_written {hw : HwFunction} (hfixed : IdentityFixed hw.cfg) (w offset : ℕ)
    (value : BitVec w) : SameHardware hw (hw.written w offset value) :=
  ⟨rfl, rfl, RegisterFile.sameDevice_write _ _ _ _, hfixed⟩

/-- The sample machine with addresses in its BARs and a window open. -/
def usedMachine : Forest HwFunction :=
  .node ((sampleBridge false).written 16 pciMemoryBase 0x1230)
    (.node ((sampleBridge true).written 32 pciBaseAddress0 0xc0100000)
      (.node ((sampleEndpoint 0).written 32 pciBaseAddress0 0xdead1000) .nil .nil) .nil) .nil

/-- The sample machine after some use is the same hardware. -/
theorem sampleMachine_matches : sampleMachine.Matches SameHardware usedMachine := by
  have hbridge (bar : Bool) : IdentityFixed (sampleBridge bar).cfg := by
    cases bar <;> decide +kernel
  have hendpoint : IdentityFixed (sampleEndpoint 0).cfg := by
    decide +kernel
  unfold sampleMachine usedMachine
  exact .node (sameHardware_written (hbridge false) _ _ _) (.node
    (sameHardware_written (hbridge true) _ _ _) (.node (sameHardware_written hendpoint _ _ _) .nil .nil)
    .nil) .nil

/-- The bridges of the sample machine have the registers that bridges must have. -/
theorem sampleMachine_bridgesConform : BridgesConform sampleMachine := by
  have hall : ∀ hw ∈ sampleMachine.toList, hw.isBridge = true → BusNumberRegisters hw.cfg ∧
      (∀ r ∈ [pciMemoryBase, pciMemoryLimit, pciPrefMemoryBase, pciPrefMemoryLimit],
        hw.cfg.Writable 16 r 0xfff0#16) ∧
      ∀ r ∈ [pciPrefBaseUpper32, pciPrefLimitUpper32], hw.cfg.response 32 r 0 = 0 := by
    unfold BusNumberRegisters RegisterFile.Writable
    decide +kernel
  intro hw hhw hbridge
  obtain ⟨hnumbers, hwindows, hupper⟩ := hall hw hhw hbridge
  exact ⟨hnumbers, hwindows, hupper⟩

/-- The sample machine, used and enumerated again. -/
theorem sameLayout_sample : ∃ bus configured s bus' configured' s',
    enumerate sampleMachine sampleEnum = .ok (bus, configured) s ∧
      enumerate usedMachine sampleEnum = .ok (bus', configured') s' ∧
      s'.pcie = s.pcie ∧ bus'.busNumberLastSub = bus.busNumberLastSub ∧
      configured.Matches SameLayout configured' := by
  obtain ⟨bus, configured, s, h⟩ := sampleMachine_ok
  obtain ⟨bus', configured', s', h'⟩ :=
    @exists_of_scanOk _ usedMachine sampleEnum (by decide +kernel)
  exact ⟨bus, configured, s, bus', configured', s', h, h', sameLayout_of_enumerate sampleMachine_topology
    sampleMachine_bridgesConform (by decide +kernel) sampleMachine_matches h h'⟩

end BcmPcie
