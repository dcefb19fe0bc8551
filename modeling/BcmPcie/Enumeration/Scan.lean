import BcmPcie.Enumeration.Bound
import BcmPcie.Enumeration.BridgeWindows
import BcmPcie.Enumeration.DeviceBlocks

/-! # A successful scan

What `pci_auto_config_devices` has done when it returns with success, as a derivation: function by
function along a bus, into the bus behind each bridge and out of it again (`Scan`). It goes through
the functions that are found and the bridges among them (`visible`); which memory it got, and what
the records looked like in between, is not part of it.

* `Scan.configures` — such a derivation leaves the tree it went through.
* `scan_of_ok` — a scan that succeeds has such a derivation.
* `scan_of_enumerate` — and so has the scan of the root bus. -/

namespace BcmPcie

open Computations

variable {σ : Type}

/-! ## The functions a scan goes through -/

/-- Of the functions on a bus whose functions are `level`, the ones that are found, with what is
behind the bridges among them. -/
def visibleAmong (level : List HwFunction) : Forest HwFunction → Forest HwFunction
  | .nil => .nil
  | .node hw children siblings =>
    if found level hw then
      .node hw (if hw.isBridge then visibleAmong children.roots children else .nil)
        (visibleAmong level siblings)
    else visibleAmong level siblings

/-- The functions of a bus that are found, and all that is found behind them. -/
def visible (functions : Forest HwFunction) : Forest HwFunction :=
  visibleAmong functions.roots functions

/-- The functions a scan goes through are among those of the machine. -/
theorem toList_visibleAmong (functions : Forest HwFunction) (level : List HwFunction) :
    ((visibleAmong level functions).toList).Sublist functions.toList := by
  induction functions generalizing level with
  | nil => exact List.Sublist.refl _
  | node hw children siblings ihc ihs =>
    rw [visibleAmong, Forest.toList_node]
    have hrest := (ihs level).trans (List.sublist_append_right children.toList siblings.toList)
    split
    · rw [Forest.toList_node]
      refine List.Sublist.cons_cons hw ?_
      split
      · exact (ihc children.roots).append (ihs level)
      · exact hrest
    · exact hrest.cons hw

/-- Every function of a machine is found: it has a valid vendor, and function 0 of its device announces it
if it is not function 0 itself; and there is nothing behind a function that is no bridge. -/
structure AllFound (functions : Forest HwFunction) : Prop where
  root : ∀ hw ∈ functions.roots, found functions.roots hw = true
  below : functions.All fun hw children => (hw.isBridge = false → children = .nil) ∧
    ∀ f ∈ children.roots, found children.roots f = true

instance (functions : Forest HwFunction) : Decidable (AllFound functions) :=
  decidable_of_iff ((∀ hw ∈ functions.roots, found functions.roots hw = true) ∧
      functions.All fun hw children => (hw.isBridge = false → children = .nil) ∧
        ∀ f ∈ children.roots, found children.roots f = true)
    ⟨fun ⟨hroot, hbelow⟩ => ⟨hroot, hbelow⟩, fun h => ⟨h.root, h.below⟩⟩

/-- Of such a machine a scan goes through every function. -/
theorem visibleAmong_of_found {functions : Forest HwFunction} {level : List HwFunction}
    (hroots : ∀ hw ∈ functions.roots, found level hw = true)
    (hbelow : functions.All fun hw children => (hw.isBridge = false → children = .nil) ∧
      ∀ f ∈ children.roots, found children.roots f = true) :
    visibleAmong level functions = functions := by
  induction functions generalizing level with
  | nil => rfl
  | node hw children siblings ihc ihs =>
    obtain ⟨⟨hleaf, hchildren⟩, hbelow, hrest⟩ := hbelow
    have hsiblings := ihs (fun f hf => hroots f (List.mem_cons_of_mem _ hf)) hrest
    rw [visibleAmong, if_pos (hroots hw List.mem_cons_self), hsiblings]
    by_cases hclass : hw.isBridge = true
    · rw [if_pos hclass, ihc hchildren hbelow]
    · rw [if_neg hclass, hleaf (Bool.eq_false_iff.2 hclass)]

/-- Where every function is found all of them are visible. -/
theorem AllFound.visible_eq {functions : Forest HwFunction} (h : AllFound functions) :
    visible functions = functions :=
  visibleAmong_of_found h.root h.below

/-- Where the functions of a machine can stand: the root complex on bus 0, a single device on the bus
of its link, and on every bus functions in the order of their addresses. -/
structure Topology (functions : Forest HwFunction) : Prop where
  root : OnBus 0 functions.roots
  link : ∀ p ∈ functions.level, OnBus 1 p.2.roots
  below : functions.All fun _ children => OnBus 2 children.roots

instance (functions : Forest HwFunction) : Decidable (Topology functions) :=
  decidable_of_iff (OnBus 0 functions.roots ∧ (∀ p ∈ functions.level, OnBus 1 p.2.roots) ∧
      functions.All fun _ children => OnBus 2 children.roots)
    ⟨fun ⟨hroot, hlink, hbelow⟩ => ⟨hroot, hlink, hbelow⟩, fun h => ⟨h.root, h.link, h.below⟩⟩

/-- What can stand on bus 2 can stand on any bus behind it: nothing special holds of either. -/
theorem OnBus.of_two {functions : List HwFunction} (h : OnBus 2 functions) {n : ℕ} (hn : 2 ≤ n) :
    OnBus n functions :=
  ⟨h.sorted, h.device_lt, h.function_lt, fun hlt => by omega, fun h0 => by omega⟩

/-- What can stand on bus 1 can stand on any bus behind it. -/
theorem OnBus.of_one {functions : List HwFunction} (h : OnBus 1 functions) {n : ℕ} (hn : 1 ≤ n) :
    OnBus n functions :=
  ⟨h.sorted, h.device_lt, h.function_lt, fun _ => h.link (by decide), fun h0 => by omega⟩

/-! ## Derivations -/

/-- The functions on bus `b` behind `bridges` have been configured, one after the other: the
controller and the highest number behind the bus go from `pcie` and `last` to `pcie'` and `last'`,
and the functions and what is behind them are `configured`. -/
inductive Scan : (b : ℕ) → (bridges : List PciDevice) → (pcie : PciController σ) → (last : ℕ) →
    (functions : Forest HwFunction) → (configured : Forest ConfiguredFunction) →
    (pcie' : PciController σ) → (last' : ℕ) → Prop
  | nil {b bridges pcie last} : Scan b bridges pcie last .nil .nil pcie last
  | leaf {b bridges pcie last hw siblings rest pcie₁ dev pcie' last'} (hclass : hw.isBridge = false)
      (hsetup : pciautoSetupDevice pcie bridges (hw.record b) pcie.ptr = (pcie₁, dev))
      (hrest : Scan b bridges pcie₁ (max last b) siblings rest pcie' last') :
      Scan b bridges pcie last (.node hw .nil siblings) (.node ⟨dev, none⟩ .nil rest) pcie' last'
  | bridge {b bridges pcie last hw children siblings below rest pcie₁ dev pcie₂ lastSub pcie' last'}
      (hclass : hw.isBridge = true)
      (hsetup : pciautoSetupDevice pcie bridges (hw.record b) pcie.ptr = (pcie₁, dev))
      (hbelow : Scan pcie₁.nextBus.busNumberLast (dev :: bridges)
        (pciautoConfigInit pcie₁.nextBus.alignWindows) pcie₁.nextBus.busNumberLast children below pcie₂
        lastSub)
      (hrest : Scan b bridges pcie₂.alignWindows (max last lastSub) siblings rest pcie' last') :
      Scan b bridges pcie last (.node hw children siblings)
        (.node ⟨scannedBridge pcie₁.nextBus pcie₂ pcie₁.nextBus.busNumberLast lastSub hw.link
            { dev with activated := true }, some ⟨pcie₁.nextBus.busNumberLast, lastSub⟩⟩ below rest)
        pcie' last'

/-! ## What keeps the bus numbers -/

/-- A change of the regions leaves the last bus number given out. -/
theorem OnlyRegions.busNumberLast {pcie pcie' : PciController σ} (h : OnlyRegions pcie pcie') :
    pcie'.busNumberLast = pcie.busNumberLast := by rw [h.record]

/-- A change of the regions leaves the first bus number. -/
theorem OnlyRegions.busNumberBase {pcie pcie' : PciController σ} (h : OnlyRegions pcie pcie') :
    pcie'.busNumberBase = pcie.busNumberBase := by rw [h.record]

/-- `pciauto_config_init` touches the regions only. -/
theorem onlyRegions_configInit (pcie : PciController σ) (h : pcie.Selected) :
    OnlyRegions pcie (pciautoConfigInit pcie) := by
  refine ⟨?_, fun _ => (pciautoConfigInit_spec pcie).1⟩
  rw [pciautoConfigInit_eq, h.select_eq]
  unfold PciController.updateRegion
  repeat' split
  all_goals rfl

/-- `pciauto_config_init` gives out no bus number. -/
theorem busNumberLast_configInit (pcie : PciController σ) :
    (pciautoConfigInit pcie).busNumberLast = pcie.busNumberLast := by
  rw [pciautoConfigInit_eq]
  unfold PciController.updateRegion
  repeat' split
  all_goals rfl

/-- No header has more than six BARs. -/
theorem headerBars_le (headerType : ℕ) : headerBars headerType ≤ 6 := by
  unfold headerBars
  split
  · exact le_rfl
  · split <;> decide

/-- The record of a function has room for at most six BARs. -/
theorem record_barsNum (hw : HwFunction) (b : ℕ) : (hw.record b).barsNum ≤ 6 :=
  headerBars_le hw.headerType

/-- The record of a function is that of a bridge if and only if the function is one. -/
theorem record_isBridge (hw : HwFunction) (b : ℕ) :
    pciReadConfig16 (hw.record b) pciClassDevice = pciClassBridgePci ↔ hw.isBridge = true := by
  unfold HwFunction.isBridge
  rw [decide_eq_true_eq]
  rfl

/-- Setting up a function gives out no bus number. -/
theorem busNumberLast_setup {pcie pcie₁ : PciController σ} {bridges : List PciDevice}
    {hw : HwFunction} {b : ℕ} {dev : PciDevice}
    (h : pciautoSetupDevice pcie bridges (hw.record b) pcie.ptr = (pcie₁, dev)) :
    pcie₁.busNumberLast = pcie.busNumberLast := by
  have hframe := (pciautoSetupDevice_frame pcie bridges (record_barsNum hw b) pcie.ptr).1
  rw [h] at hframe
  exact hframe.busNumberLast

/-- A scan gives out bus numbers upwards. -/
theorem Scan.busNumberLast_le {b : ℕ} {bridges : List PciDevice} {pcie pcie' : PciController σ}
    {last last' : ℕ} {functions : Forest HwFunction} {configured : Forest ConfiguredFunction}
    (h : Scan b bridges pcie last functions configured pcie' last') :
    pcie.busNumberLast ≤ pcie'.busNumberLast := by
  induction h with
  | nil => exact le_rfl
  | leaf _ hdev _ ih => rw [← busNumberLast_setup hdev]; exact ih
  | bridge _ hdev _ _ ihb ihr =>
    rw [busNumberLast_configInit, (onlyRegions_alignWindows _).busNumberLast] at ihb
    rw [(onlyRegions_alignWindows _).busNumberLast] at ihr
    rw [← busNumberLast_setup hdev]
    exact ((Nat.le_succ _).trans ihb).trans ihr

/-! ## Bridges -/

/-- The function is a PCI-to-PCI bridge. -/
def ConfiguredFunction.IsBridge (f : ConfiguredFunction) : Prop :=
  pciReadConfig16 f.dev pciClassDevice = pciClassBridgePci

instance (f : ConfiguredFunction) : Decidable f.IsBridge := inferInstanceAs (Decidable (_ = _))

/-- Reading through the record of a function reads the function's registers. -/
theorem pciReadConfig_record (hw : HwFunction) (b : ℕ) {w offset : ℕ} (hoff : offset < 4096) :
    pciReadConfig w (hw.record b) offset = hw.cfg.read w offset :=
  if_neg (Nat.not_le.2 hoff)

/-- The set-up of a conforming function leaves the registers that are not for its BARs, its ROM, its
command and the like. -/
theorem setup_read {pcie pcie₁ : PciController σ} {bridges : List PciDevice} {hw : HwFunction}
    {b w offset : ℕ} {dev : PciDevice}
    (h : pciautoSetupDevice pcie bridges (hw.record b) pcie.ptr = (pcie₁, dev))
    (hconf : ConformingBars hw.cfg hw.headerType (headerBars hw.headerType))
    (hap : ∀ r ∈ setupRanges (headerBars hw.headerType), RegisterFile.Apart (8 * r.2) r.1 w offset) :
    pciReadConfig w dev offset = pciReadConfig w (hw.record b) offset := by
  have hframe := (@pciautoSetupDevice_frame_of _ pcie bridges (hw.record b) _ le_rfl
    ((record_barsNum hw b).trans (by decide)) (fun _ => hconf.next_of_mem64) pcie.ptr).2
  rw [h] at hframe
  exact hframe.read hap

/-- The set-up of a function on bus `b` leaves its class, its address and what it implements. -/
theorem setup_record {pcie pcie₁ : PciController σ} {bridges : List PciDevice} {hw : HwFunction}
    {b : ℕ} {dev : PciDevice}
    (h : pciautoSetupDevice pcie bridges (hw.record b) pcie.ptr = (pcie₁, dev)) :
    pciReadConfig16 dev pciClassDevice = hw.cfg.read 16 pciClassDevice ∧
      dev.bdf = pciBdf b hw.device hw.function ∧ hw.cfg.SameDevice dev.cfg := by
  have hframe := (pciautoSetupDevice_frame pcie bridges (record_barsNum hw b) pcie.ptr).2
  rw [h] at hframe
  exact ⟨hframe.read (by decide), congrArg PciDevice.bdf hframe.record, hframe.device⟩

section

variable {pcie pcie₁ : PciController σ} {bridges : List PciDevice} {hw : HwFunction} {b : ℕ}
  {dev : PciDevice}
  (hsetup : pciautoSetupDevice pcie bridges (hw.record b) pcie.ptr = (pcie₁, dev))

include hsetup

/-- A function that was only set up is no bridge. -/
theorem not_isBridge_leaf (hclass : hw.isBridge = false) :
    ¬ (⟨dev, none⟩ : ConfiguredFunction).IsBridge := by
  intro hbridge
  rw [HwFunction.isBridge, decide_eq_false_iff_not] at hclass
  exact hclass ((setup_record hsetup).1.symm.trans hbridge)

/-- What a scanned bridge leaves behind is a bridge. -/
theorem isBridge_scanned (hclass : hw.isBridge = true) (pcie' pcie'' : PciController σ)
    (busNumber lastSub : ℕ) (link : LinkAnswers) (secondary : Option BusNumbers) :
    (⟨scannedBridge pcie' pcie'' busNumber lastSub link { dev with activated := true }, secondary⟩ :
      ConfiguredFunction).IsBridge :=
  ((scannedBridge_rewritten pcie' pcie'' busNumber lastSub link { dev with activated := true }).read
    (by decide)).trans ((setup_record hsetup).1.trans (of_decide_eq_true hclass))

end

/-- **What holds of every function of a scan**: of a function behind its set-up, and of a bridge behind
the scan of its bus. -/
theorem Scan.forall_functions {P : ConfiguredFunction → Prop}
    (hleaf : ∀ {pcie pcie₁ : PciController σ} {bridges b dev} {hw : HwFunction}, hw.isBridge = false →
      pciautoSetupDevice pcie bridges (hw.record b) pcie.ptr = (pcie₁, dev) → P ⟨dev, none⟩)
    (hbridge : ∀ {pcie pcie₁ : PciController σ} {bridges b dev} {hw : HwFunction}
      (pcie₂ : PciController σ) (lastSub : ℕ), hw.isBridge = true →
      pciautoSetupDevice pcie bridges (hw.record b) pcie.ptr = (pcie₁, dev) →
      P ⟨scannedBridge pcie₁.nextBus pcie₂ pcie₁.nextBus.busNumberLast lastSub hw.link
        { dev with activated := true }, some ⟨pcie₁.nextBus.busNumberLast, lastSub⟩⟩)
    {b : ℕ} {bridges : List PciDevice} {pcie pcie' : PciController σ}
    {last last' : ℕ} {functions : Forest HwFunction} {configured : Forest ConfiguredFunction}
    (h : Scan b bridges pcie last functions configured pcie' last') :
    ∀ f ∈ configured.toList, P f := by
  induction h with
  | nil =>
    intro f hf
    cases hf
  | leaf hclass hsetup _ ih =>
    intro f hf
    rcases List.mem_cons.1 hf with rfl | hf
    · exact hleaf hclass hsetup
    · exact ih f hf
  | bridge hclass hsetup _ _ ihb ihr =>
    intro f hf
    rcases List.mem_cons.1 hf with rfl | hf
    · exact hbridge _ _ hclass hsetup
    · rcases List.mem_append.1 hf with hf | hf
      · exact ihb f hf
      · exact ihr f hf

/-- The functions with a bus behind them are the bridges. -/
theorem Scan.isBridge_iff {b : ℕ} {bridges : List PciDevice} {pcie pcie' : PciController σ}
    {last last' : ℕ} {functions : Forest HwFunction} {configured : Forest ConfiguredFunction}
    (h : Scan b bridges pcie last functions configured pcie' last') :
    ∀ f ∈ configured.toList, f.IsBridge ↔ f.secondary.isSome :=
  h.forall_functions
    (fun hclass hsetup => ⟨fun hbridge => absurd hbridge (not_isBridge_leaf hsetup hclass),
      fun hsome => by cases hsome⟩)
    fun _ _ hclass hsetup => ⟨fun _ => rfl, fun _ => isBridge_scanned hsetup hclass _ _ _ _ _ _⟩

/-- A function of the hardware and what a scan has made of it: the record has its address and all it was
made with, the registers are those of the same hardware, and there is a bus behind a bridge. -/
structure Configures (hw : HwFunction) (f : ConfiguredFunction) : Prop where
  record : ∃ b, f.dev = { hw.record b with
    cfg := f.dev.cfg, bars := f.dev.bars, intx := f.dev.intx, msi := f.dev.msi, msix := f.dev.msix,
    activated := f.dev.activated }
  device : hw.cfg.SameDevice f.dev.cfg
  bridge : f.IsBridge ↔ hw.isBridge = true
  secondary : f.secondary.isSome = hw.isBridge

section

variable {pcie pcie₁ : PciController σ} {bridges : List PciDevice} {hw : HwFunction} {b : ℕ}
  {dev : PciDevice}
  (hsetup : pciautoSetupDevice pcie bridges (hw.record b) pcie.ptr = (pcie₁, dev))

include hsetup

/-- A function that is no bridge, behind its set-up. -/
theorem configures_setup (hclass : hw.isBridge = false) : Configures hw ⟨dev, none⟩ := by
  have hframe := (pciautoSetupDevice_frame pcie bridges (record_barsNum hw b) pcie.ptr).2
  rw [hsetup] at hframe
  have hnot := not_isBridge_leaf hsetup hclass
  refine ⟨⟨b, ?_⟩, hframe.device, iff_of_false hnot (by rw [hclass]; decide), hclass.symm⟩
  have hrecord := hframe.record
  generalize dev.cfg = cfg, dev.bars = bars, dev.intx = intx, dev.msi = msi, dev.msix = msix at hrecord
  subst hrecord
  rfl

/-- A bridge behind the scan of its bus. -/
theorem configures_scanned (hclass : hw.isBridge = true) (pcie' pcie'' : PciController σ)
    (busNumber lastSub : ℕ) (link : LinkAnswers) (numbers : BusNumbers) :
    Configures hw ⟨scannedBridge pcie' pcie'' busNumber lastSub link { dev with activated := true },
      some numbers⟩ := by
  have hframe := (pciautoSetupDevice_frame pcie bridges (record_barsNum hw b) pcie.ptr).2
  rw [hsetup] at hframe
  have hbridge := isBridge_scanned hsetup hclass pcie' pcie'' busNumber lastSub link (some numbers)
  have hwritten :=
    scannedBridge_rewritten pcie' pcie'' busNumber lastSub link { dev with activated := true }
  refine ⟨⟨b, ?_⟩, hframe.device.trans hwritten.device, iff_of_true hbridge hclass, hclass.symm⟩
  have hrecord := hframe.record
  have hfinal := hwritten.record
  generalize scannedBridge pcie' pcie'' busNumber lastSub link { dev with activated := true } = final
    at hfinal
  generalize final.cfg = cfg at hfinal
  generalize dev.cfg = cfg₁, dev.bars = bars, dev.intx = intx, dev.msi = msi, dev.msix = msix at hrecord
  subst hrecord
  subst hfinal
  rfl

end

/-- **A scan leaves the tree it went through**: function for function, bridge for bridge. -/
theorem Scan.configures {b : ℕ} {bridges : List PciDevice} {pcie pcie' : PciController σ}
    {last last' : ℕ} {functions : Forest HwFunction} {configured : Forest ConfiguredFunction}
    (h : Scan b bridges pcie last functions configured pcie' last') :
    functions.Matches Configures configured := by
  induction h with
  | nil => exact .nil
  | leaf hclass hsetup _ ih => exact .node (configures_setup hsetup hclass) .nil ih
  | bridge hclass hsetup _ _ ihb ihr =>
    exact .node (configures_scanned hsetup hclass _ _ _ _ _ _) ihb ihr

/-! ## A scan that succeeds -/

/-- A change of the controller always succeeds. -/
theorem modifyController_ok {f : PciController σ → PciController σ} {s s' : EnumState σ} {u : Unit}
    (h : modifyController f s = .ok u s') : s' = { s with pcie := f s.pcie } := modify_eq_ok.1 h

/-- A bus that was probed: its functions were bound and scanned between the opening and the closing of
the windows of its bridge. -/
theorem pciProbeBus_ok {τ : Type} {hw : HwFunction} {functions : List HwFunction}
    {scan : PciBus → EnumM σ (PciBus × τ)} {bus bus' : PciBus} {bridge bridge' : PciDevice}
    {below : τ} {s s' : EnumState σ}
    (h : pciProbeBus hw functions scan bus bridge s = .ok (bridge', bus', below) s') :
    ∃ bus₁ s₀ s₁ s₂, s₀.pcie = s.pcie.nextBus.alignWindows ∧
      pciBindBusDevices functions { bus with
        busNumber := s.pcie.nextBus.busNumberLast,
        busNumberLastSub := s.pcie.nextBus.busNumberLast } s₀ = .ok bus₁ s₁ ∧
      scan bus₁ s₁ = .ok (bus', below) s₂ ∧
      bridge' = scannedBridge s.pcie.nextBus s₂.pcie s.pcie.nextBus.busNumberLast
        bus'.busNumberLastSub hw.link { bridge with activated := true } ∧
      s'.pcie = s₂.pcie.alignWindows := by
  unfold pciProbeBus at h
  split at h
  · exact absurd h throw_ne_ok
  · obtain ⟨_, t₁, hnext, h₁⟩ := bind_eq_ok.1 h
    obtain rfl := modifyController_ok hnext
    obtain ⟨_, t₂, hget, h₂⟩ := bind_eq_ok.1 h₁
    obtain ⟨rfl, rfl⟩ := get_eq_ok.1 hget
    obtain ⟨_, t₃, hpre, h₃⟩ := bind_eq_ok.1 h₂
    obtain rfl := modifyController_ok hpre
    obtain ⟨bus₁, t₄, hbind, h₄⟩ := bind_eq_ok.1 h₃
    obtain ⟨⟨bus₂, below₂⟩, t₅, hscan, h₅⟩ := bind_eq_ok.1 h₄
    obtain ⟨_, t₆, hget, h₆⟩ := bind_eq_ok.1 h₅
    obtain ⟨rfl, rfl⟩ := get_eq_ok.1 hget
    obtain ⟨_, t₇, hpost, h₇⟩ := bind_eq_ok.1 h₆
    obtain rfl := modifyController_ok hpost
    obtain ⟨heq, rfl⟩ := pure_eq_ok.1 h₇
    obtain ⟨rfl, hrest⟩ := Prod.mk.inj heq
    obtain ⟨rfl, rfl⟩ := Prod.mk.inj hrest
    exact ⟨bus₁, _, t₄, t₆, pciautoPrescanSetupBridge_pcie s.pcie.nextBus _ hw.link _, hbind, hscan, rfl,
      pciautoPostscanSetupBridge_pcie _ _ _⟩

/-- The bus created behind a bridge has no devices yet, and the controller is as before. -/
theorem pciCreateBus_ok {parent bus : PciBus} {bridge : PciDevice} {s s' : EnumState σ}
    (h : pciCreateBus parent bridge s = .ok bus s') :
    bus = { bridges := bridge :: parent.bridges } ∧ s'.pcie = s.pcie := by
  obtain ⟨u, s₁, halloc, h⟩ := bind_eq_ok.1 h
  obtain ⟨rfl, rfl⟩ := pure_eq_ok.1 h
  exact ⟨rfl, by rw [(allocMem_ok halloc).2]⟩

/-- The functions behind the bridges of `functions` can be on the buses whose numbers are still to be
given out. -/
def PlacedBehind (functions : Forest HwFunction) (lastNumber : ℕ) : Prop :=
  (∀ p ∈ functions.level, ∀ n, lastNumber < n → OnBus n p.2.roots) ∧
    functions.All fun _ children => OnBus 2 children.roots

/-- What can stand behind bus `m` can stand behind a later one. -/
theorem PlacedBehind.mono {functions : Forest HwFunction} {m n : ℕ} (h : PlacedBehind functions m)
    (hmn : m ≤ n) : PlacedBehind functions n :=
  ⟨fun p hp k hk => h.1 p hp k (by omega), h.2⟩

/-- What holds of every function of a tree holds of those on its first level. -/
theorem all_level {α : Type*} {P : α → Forest α → Prop} {t : Forest α} (h : t.All P) :
    ∀ p ∈ t.level, P p.1 p.2 := by
  induction t with
  | nil => intro p hp; cases hp
  | node a children siblings _ ihs =>
    intro p hp
    rw [Forest.level_node, List.mem_cons] at hp
    rcases hp with rfl | hp
    · exact h.1
    · exact ihs h.2.2 p hp

/-- Behind a bus other than the root bus, functions can be on any bus. -/
theorem PlacedBehind.of_all {functions : Forest HwFunction}
    (h : functions.All fun _ children => OnBus 2 children.roots) {n : ℕ} (hn : 1 ≤ n) :
    PlacedBehind functions n :=
  ⟨fun p hp _ hk => (all_level h p hp).of_two (by omega), h⟩

/-- **A scan that succeeds.** -/
theorem scan_of_ok {functions : Forest HwFunction} {level : List HwFunction} {bus bus' : PciBus}
    {configured : Forest ConfiguredFunction} {s s' : EnumState σ} (hlevel : OnBus bus.busNumber level)
    (hsub : ∀ hw ∈ functions.roots, hw ∈ level)
    (hdevices : bus.devices = (level.filter (found level)).map (·.record bus.busNumber))
    (hplaced : PlacedBehind functions s.pcie.busNumberLast)
    (h : configDevices functions bus s = .ok (bus', configured) s') :
    Scan bus.busNumber bus.bridges s.pcie bus.busNumberLastSub (visibleAmong level functions) configured
      s'.pcie bus'.busNumberLastSub ∧ bus'.busNumber = bus.busNumber := by
  -- the recursion of `config_devices`: the functions of a bus in order, below each bridge first
  induction functions generalizing level bus bus' configured s s' with
  | nil =>
    obtain ⟨heq, rfl⟩ := pure_eq_ok.1 h
    obtain ⟨rfl, rfl⟩ := Prod.mk.inj heq
    exact ⟨Scan.nil, rfl⟩
  | node hw children siblings ihc ihs =>
    have hsibs : PlacedBehind siblings s.pcie.busNumberLast :=
      ⟨fun p hp => hplaced.1 p (List.mem_cons_of_mem _ hp), hplaced.2.2.2⟩
    have hsub' : ∀ f ∈ siblings.roots, f ∈ level := fun f hf => hsub f (List.mem_cons_of_mem _ hf)
    rw [configDevices, pciBusFindDevfn_record hlevel hdevices (hsub hw List.mem_cons_self)] at h
    rw [visibleAmong]
    -- a function that did not get a record is passed over
    by_cases hfound : found level hw
    case neg =>
      rw [if_neg hfound] at h ⊢
      exact ihs hlevel hsub' hdevices hsibs h
    rw [if_pos hfound] at h ⊢
    obtain ⟨⟨function, subBus, below⟩, s₁, hconfig, h₁⟩ := bind_eq_ok.1 h
    obtain ⟨⟨bus₂, rest⟩, s₂, hrest, h₂⟩ := bind_eq_ok.1 h₁
    obtain ⟨heq, rfl⟩ := pure_eq_ok.1 h₂
    obtain ⟨rfl, rfl⟩ := Prod.mk.inj heq
    unfold pciautoConfigDevice at hconfig
    obtain ⟨_, t₁, hget, hc₁⟩ := bind_eq_ok.1 hconfig
    obtain ⟨rfl, rfl⟩ := get_eq_ok.1 hget
    obtain ⟨_, t₂, hsetup, hc₂⟩ := bind_eq_ok.1 hc₁
    obtain rfl := modifyController_ok hsetup
    -- the set-up comes first, whatever the class of the function
    generalize hpcie₁ : pciautoSetupDevice t₁.pcie bus.bridges (hw.record bus.busNumber) t₁.pcie.ptr
      = setup at hc₂
    obtain ⟨pcie₁, dev⟩ := setup
    have hlast₁ : pcie₁.busNumberLast = t₁.pcie.busNumberLast := busNumberLast_setup hpcie₁
    dsimp only at hc₂
    -- not a bridge: the scan goes on at its siblings
    by_cases hclass : hw.isBridge = true
    case neg =>
      rw [if_neg (fun h => hclass ((record_isBridge hw _).1 h))] at hc₂
      obtain ⟨heq, rfl⟩ := pure_eq_ok.1 hc₂
      obtain ⟨rfl, hbelow⟩ := Prod.mk.inj heq
      obtain ⟨rfl, rfl⟩ := Prod.mk.inj hbelow
      obtain ⟨hscan, hnumber⟩ := @ihs level
        { bus with busNumberLastSub := max bus.busNumberLastSub bus.busNumber } _ _ ⟨pcie₁, _⟩ _
        hlevel hsub' hdevices (hsibs.mono hlast₁.ge) hrest
      rw [if_neg hclass]
      exact ⟨Scan.leaf (by simpa using hclass) hpcie₁ hscan, hnumber⟩
    rw [if_pos ((record_isBridge hw _).2 hclass)] at hc₂
    rw [if_pos hclass]
    obtain ⟨secondary, t₂, hcreate, hc₃⟩ := bind_eq_ok.1 hc₂
    obtain ⟨rfl, hpcie₂⟩ := pciCreateBus_ok hcreate
    obtain ⟨⟨bridge, secondary', below'⟩, t₃, hprobe, hc₄⟩ := bind_eq_ok.1 hc₃
    obtain ⟨heq, rfl⟩ := pure_eq_ok.1 hc₄
    obtain ⟨rfl, hbelow⟩ := Prod.mk.inj heq
    obtain ⟨rfl, rfl⟩ := Prod.mk.inj hbelow
    obtain ⟨bus₁, u₀, u₁, u₂, hu₀, hbind, hscan, hbridge, hu₂⟩ := pciProbeBus_ok hprobe
    have hpcie₂' : t₂.pcie = pcie₁ := hpcie₂
    rw [hpcie₂'] at hu₀ hbind hbridge
    have hnumber : pcie₁.nextBus.busNumberLast = t₁.pcie.busNumberLast + 1 := by
      rw [← hlast₁]
      rfl
    -- the secondary bus has the next number, and a number below it is not used again
    set n := pcie₁.nextBus.busNumberLast with hn
    have hchildren : OnBus n children.roots :=
      hplaced.1 _ List.mem_cons_self n (by omega)
    obtain ⟨rfl, hu₁⟩ := pciBindBusDevices_ok hchildren rfl hbind
    obtain ⟨u, u₁', hinit, hscan'⟩ := bind_eq_ok.1 hscan
    obtain rfl := modifyController_ok hinit
    have hinitLast : (pciautoConfigInit u₁.pcie).busNumberLast = n := by
      rw [busNumberLast_configInit, hu₁, hu₀, (onlyRegions_alignWindows _).busNumberLast]
    obtain ⟨hinner, hinnerNumber⟩ := ihc hchildren (fun f hf => hf) rfl
      (PlacedBehind.of_all hplaced.2.2.1 (by dsimp only; omega)) hscan'
    dsimp only at hinner hinnerNumber
    rw [hu₁, hu₀] at hinner
    -- the siblings are scanned with the numbers that the buses below left over
    have hle : t₁.pcie.busNumberLast ≤ t₃.pcie.busNumberLast := by
      have hinnerLe := hinner.busNumberLast_le
      rw [busNumberLast_configInit, (onlyRegions_alignWindows _).busNumberLast] at hinnerLe
      rw [hu₂, (onlyRegions_alignWindows _).busNumberLast]
      omega
    obtain ⟨hscanRest, hrestNumber⟩ := @ihs level { bus with
      busNumberLastSub := max bus.busNumberLastSub secondary'.busNumberLastSub } _ _ _ _
      hlevel hsub' hdevices (hsibs.mono hle) hrest
    dsimp only at hscanRest hrestNumber
    rw [hu₂] at hscanRest
    refine ⟨?_, hrestNumber⟩
    rw [hbridge, hinnerNumber]
    exact Scan.bridge hclass hpcie₁ hinner hscanRest

/-- **The scan of the root bus.** -/
theorem scan_of_enumerate {functions : Forest HwFunction} {bus : PciBus}
    {configured : Forest ConfiguredFunction} {s s' : EnumState σ} (htopology : Topology functions)
    (h : enumerate functions s = .ok (bus, configured) s') :
    Scan 0 [] (pciautoConfigInit s.pcie) 0 (visible functions) configured s'.pcie
      bus.busNumberLastSub := by
  obtain ⟨bus₀, s₁, hbind, h₁⟩ := bind_eq_ok.1 h
  obtain ⟨rfl, hs₁⟩ := pciBindBusDevices_ok htopology.root rfl hbind
  obtain ⟨u, s₂, hinit, h₂⟩ := bind_eq_ok.1 h₁
  obtain rfl := modifyController_ok hinit
  have hplaced : PlacedBehind functions (pciautoConfigInit s₁.pcie).busNumberLast :=
    ⟨fun p hp n hn => (htopology.link p hp).of_one (by omega), htopology.below⟩
  obtain ⟨hscan, -⟩ := scan_of_ok htopology.root (fun f hf => hf) rfl hplaced h₂
  rw [← hs₁]
  exact hscan

/-! ## A small machine -/

/-- A register space from the values of some of its fields, by byte offset. -/
def packRegisters (fields : List (ℕ × ℕ)) : BitVec (8 * 4096) :=
  fields.foldr (fun field regs => regs ||| BitVec.ofNat _ field.2 <<< (8 * field.1)) 0

/-- A bridge with a BAR of 4 KiB if `bar` says so: bus numbers and memory windows can be written. -/
@[irreducible] def sampleBridge (bar : Bool) : HwFunction where
  device := 0
  function := 0
  cfg :=
    { regs := packRegisters [(pciVendorId, 0x271114e4), (pciClassRevision, 0x06040000),
        (pciHeaderType, 0x01)]
      rw := packRegisters ([(pciCommand, 0xffff), (pciPrimaryBus, 0xffffff), (pciMemoryBase, 0xfff0),
        (pciMemoryLimit, 0xfff0), (pciPrefMemoryBase, 0xfff0), (pciPrefMemoryLimit, 0xfff0)]
        ++ if bar then [(pciBaseAddress0, 0xfffff000)] else []) }

/-- A function that is no bridge, with a BAR of 4 KiB. -/
@[irreducible] def sampleEndpoint (device : ℕ) : HwFunction where
  device := device
  function := 0
  cfg :=
    { regs := packRegisters [(pciVendorId, 0x34831106), (pciClassRevision, 0x0c033000)]
      rw := packRegisters [(pciCommand, 0xffff), (pciBaseAddress0, 0xfffff000)] }

/-- A root port, behind it a bridge with a BAR of its own, and behind that a function with a BAR. -/
@[irreducible] def sampleMachine : Forest HwFunction :=
  .node (sampleBridge false) (.node (sampleBridge true) (.node (sampleEndpoint 0) .nil .nil) .nil) .nil

/-- The same machine with no BAR on a bridge and two functions on the last bus. -/
@[irreducible] def quietMachine : Forest HwFunction :=
  .node (sampleBridge false) (.node (sampleBridge false)
    (.node (sampleEndpoint 0) .nil (.node (sampleEndpoint 1) .nil .nil)) .nil) .nil

/-- A controller with one region of memory, 1 GiB at 3 GiB of the bus, before the scan. -/
def sampleController : PciController Unit where
  msi := { targetAddr := 0, servers := fun _ => none, used := 0 }
  intr2 := { status := 0, mask := 0 }
  gic400 := ()
  regions := [{ busStart := 0xc0000000, physStart := 0x600000000, size := 0x40000000, flags := 0 }]

/-- The sample controller, with memory to spare. -/
def sampleEnum : EnumState Unit := { pcie := sampleController, memory := {} }

/-- The functions of the sample machine stand where functions can stand. -/
theorem sampleMachine_topology : Topology sampleMachine := by
  decide +kernel

/-- The functions of the quiet machine stand where functions can stand. -/
theorem quietMachine_topology : Topology quietMachine := by
  decide +kernel

/-- The scan has succeeded. -/
def scanOk {α : Type} : EStateM.Result Errno (EnumState σ) α → Bool
  | .ok _ _ => true
  | .error _ _ => false

/-- A scan that succeeds, with what it has found. -/
theorem exists_of_scanOk {functions : Forest HwFunction} {s : EnumState σ}
    (h : scanOk (enumerate functions s) = true) :
    ∃ bus configured s', enumerate functions s = .ok (bus, configured) s' := by
  cases hrun : enumerate functions s with
  | ok r s' => exact ⟨r.1, r.2, s', rfl⟩
  | error e s' =>
    rw [hrun] at h
    cases h

/-- The scan of the sample machine succeeds. -/
theorem sampleMachine_ok : ∃ bus configured s',
    enumerate sampleMachine sampleEnum = .ok (bus, configured) s' :=
  exists_of_scanOk (by decide +kernel)

/-- The enumeration of the quiet machine succeeds. -/
theorem quietMachine_ok : ∃ bus configured s',
    enumerate quietMachine sampleEnum = .ok (bus, configured) s' :=
  exists_of_scanOk (by decide +kernel)

end BcmPcie
