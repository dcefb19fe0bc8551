import BcmPcie.Fabric.ConfigCycles

/-! # Configuration cycles during a scan

While a bus is scanned, the bridges on the way to it do not have their last subordinate number yet:
`pciauto_prescan_setup_bridge` lets them forward everything from their secondary bus on. The bridges the
scan has left forward to buses with lower numbers, and those it has not reached to none at all.

* `Underway` — the functions on a bus and behind it while that bus is scanned.
* `Deeper` — the same while a bus behind it is scanned.
* `reached_of_enumerate` — whichever bus is scanned, each of its functions is found, alone. -/

namespace BcmPcie

variable {σ : Type}

/-! ## Moments of a scan -/

/-- Functions that the scan has not reached. -/
def asleep : Forest HwFunction → Forest ConfiguredFunction
  | .nil => .nil
  | .node hw children siblings => .node ⟨hw.record 0, none⟩ (asleep children) (asleep siblings)

/-- A bridge while the bus behind it is scanned, which is the next one of the controller. -/
def enteredBridge (pcie : PciController σ) (link : LinkAnswers) (dev : PciDevice) : ConfiguredFunction :=
  ⟨(pciautoPrescanSetupBridge pcie.nextBus pcie.nextBus.busNumberLast link
    { dev with activated := true }).2, none⟩

/-- The functions on bus `b` and behind it at a moment when the bus itself is scanned: some functions
are configured, with all that is behind them, and those after them asleep. -/
inductive Underway : (b : ℕ) → (bridges : List PciDevice) → (pcie : PciController σ) →
    (functions : Forest HwFunction) → (fabric : Forest ConfiguredFunction) → Prop
  | start {b bridges pcie functions} : Underway b bridges pcie functions (asleep functions)
  | leaf {b bridges pcie hw siblings fabric pcie₁ dev} (hclass : hw.isBridge = false)
      (hsetup : pciautoSetupDevice pcie bridges (hw.record b) pcie.ptr = (pcie₁, dev))
      (hrest : Underway b bridges pcie₁ siblings fabric) :
      Underway b bridges pcie (.node hw .nil siblings) (.node ⟨dev, none⟩ .nil fabric)
  | bridge {b bridges pcie hw children siblings below fabric pcie₁ dev pcie₂ lastSub}
      (hclass : hw.isBridge = true)
      (hsetup : pciautoSetupDevice pcie bridges (hw.record b) pcie.ptr = (pcie₁, dev))
      (hbelow : Scan pcie₁.nextBus.busNumberLast (dev :: bridges)
        (pciautoConfigInit pcie₁.nextBus.alignWindows) pcie₁.nextBus.busNumberLast children below pcie₂
        lastSub)
      (hrest : Underway b bridges pcie₂.alignWindows siblings fabric) :
      Underway b bridges pcie (.node hw children siblings)
        (.node ⟨scannedBridge pcie₁.nextBus pcie₂ pcie₁.nextBus.busNumberLast lastSub hw.link
            { dev with activated := true }, some ⟨pcie₁.nextBus.busNumberLast, lastSub⟩⟩ below fabric)

/-- The functions on bus `b` and behind it at a moment when a bus behind it is scanned, which has the
number `n` and the functions `level`. -/
inductive Deeper : (b : ℕ) → (bridges : List PciDevice) → (pcie : PciController σ) →
    (functions : Forest HwFunction) → (fabric : Forest ConfiguredFunction) → (n : ℕ) →
    (level : List ConfiguredFunction) → Prop
  /-- It is the bus behind this bridge. -/
  | enter {b bridges pcie hw children siblings fabric pcie₁ dev} (hclass : hw.isBridge = true)
      (hsetup : pciautoSetupDevice pcie bridges (hw.record b) pcie.ptr = (pcie₁, dev))
      (hbelow : Underway pcie₁.nextBus.busNumberLast (dev :: bridges)
        (pciautoConfigInit pcie₁.nextBus.alignWindows) children fabric) :
      Deeper b bridges pcie (.node hw children siblings)
        (.node (enteredBridge pcie₁ hw.link dev) fabric (asleep siblings)) pcie₁.nextBus.busNumberLast
        fabric.roots
  /-- It is further behind this bridge. -/
  | further {b bridges pcie hw children siblings fabric pcie₁ dev n level} (hclass : hw.isBridge = true)
      (hsetup : pciautoSetupDevice pcie bridges (hw.record b) pcie.ptr = (pcie₁, dev))
      (hbelow : Deeper pcie₁.nextBus.busNumberLast (dev :: bridges)
        (pciautoConfigInit pcie₁.nextBus.alignWindows) children fabric n level) :
      Deeper b bridges pcie (.node hw children siblings)
        (.node (enteredBridge pcie₁ hw.link dev) fabric (asleep siblings)) n level
  | leaf {b bridges pcie hw siblings fabric pcie₁ dev n level} (hclass : hw.isBridge = false)
      (hsetup : pciautoSetupDevice pcie bridges (hw.record b) pcie.ptr = (pcie₁, dev))
      (hrest : Deeper b bridges pcie₁ siblings fabric n level) :
      Deeper b bridges pcie (.node hw .nil siblings) (.node ⟨dev, none⟩ .nil fabric) n level
  | bridge {b bridges pcie hw children siblings below fabric pcie₁ dev pcie₂ lastSub n level}
      (hclass : hw.isBridge = true)
      (hsetup : pciautoSetupDevice pcie bridges (hw.record b) pcie.ptr = (pcie₁, dev))
      (hbelow : Scan pcie₁.nextBus.busNumberLast (dev :: bridges)
        (pciautoConfigInit pcie₁.nextBus.alignWindows) pcie₁.nextBus.busNumberLast children below pcie₂
        lastSub)
      (hrest : Deeper b bridges pcie₂.alignWindows siblings fabric n level) :
      Deeper b bridges pcie (.node hw children siblings)
        (.node ⟨scannedBridge pcie₁.nextBus pcie₂ pcie₁.nextBus.busNumberLast lastSub hw.link
            { dev with activated := true }, some ⟨pcie₁.nextBus.busNumberLast, lastSub⟩⟩ below fabric)
        n level

/-! ## The registers -/

/-- Out of reset a bridge forwards to no bus. -/
def BusNumbersReset (cfg : RegisterFile 4096) : Prop :=
  cfg.read 8 pciSecondaryBus = 0 ∧ cfg.read 8 pciSubordinateBus = 0

/-- A bridge that the scan has not reached does not take a cycle over. -/
theorem not_forwardsBus_asleep {t : Forest HwFunction} {n : ℕ} (hn : 0 < n)
    (hreset : ∀ hw ∈ t.toList, hw.isBridge = true → BusNumbersReset hw.cfg) :
    ∀ f ∈ (asleep t).roots, forwardsBus n f = false := by
  induction t with
  | nil =>
    intro f hf
    cases hf
  | node hw children siblings _ ih =>
    intro f hf
    rcases List.mem_cons.1 hf with rfl | hf
    · rw [← Bool.not_eq_true]
      intro hforwards
      obtain ⟨hbridge, -, hhigh⟩ := forwardsBus_iff.1 hforwards
      obtain ⟨-, hsubordinate⟩ :=
        hreset hw List.mem_cons_self ((record_isBridge hw 0).1 hbridge)
      have hzero : (⟨hw.record 0, none⟩ : ConfiguredFunction).subordinateBus = 0 := by
        show (hw.cfg.read 8 pciSubordinateBus).toNat = 0
        rw [hsubordinate]
        rfl
      have hhigh : n ≤ (⟨hw.record 0, none⟩ : ConfiguredFunction).subordinateBus := hhigh
      omega
    · exact ih (fun hw hhw => hreset hw
        (List.mem_cons_of_mem _ (List.mem_append_right _ hhw))) f hf

/-- The bus numbers of a bridge while the bus behind it is scanned. -/
theorem prescanned_busNumbers {pcie : PciController σ} {busNumber : ℕ} {link : LinkAnswers}
    {dev : PciDevice} (hconf : BusNumberRegisters dev.cfg) :
    let dev' := (pciautoPrescanSetupBridge pcie busNumber link dev).2
    pciReadConfig8 dev' pciSecondaryBus = BitVec.ofNat 8 (busNumber - pcie.busNumberBase) ∧
      pciReadConfig8 dev' pciSubordinateBus = 0xff := by
  intro dev'
  obtain ⟨-, -, hnumbers, -⟩ := pciautoPrescanSetupBridge_rewritten pcie busNumber link dev
  have hsecondary : dev.cfg.Writable 8 pciSecondaryBus (BitVec.allOnes 8) := hconf _ (by decide)
  have hsubordinate : dev.cfg.Writable 8 pciSubordinateBus (BitVec.allOnes 8) := hconf _ (by decide)
  refine ⟨(hnumbers.read (by decide)).trans ?_, (hnumbers.read (by decide)).trans ?_⟩
  · unfold prescanBusNumbers
    dsimp only
    rw [pciReadConfig_write_of_apart _ _ (by decide)]
    exact pciReadConfig_write_of_writable _ _ (by decide) (pciWriteConfig_writable _ _ _ _ |>.2 hsecondary)
  · unfold prescanBusNumbers
    dsimp only
    exact pciReadConfig_write_of_writable _ _ (by decide)
      (pciWriteConfig_writable _ _ _ _ |>.2 (pciWriteConfig_writable _ _ _ _ |>.2 hsubordinate))

/-- It forwards everything from that bus on. -/
theorem forwardsBus_entered {pcie pcie₁ : PciController σ} {bridges : List PciDevice} {hw : HwFunction}
    {b n : ℕ} {dev : PciDevice}
    (hsetup : pciautoSetupDevice pcie bridges (hw.record b) pcie.ptr = (pcie₁, dev))
    (hclass : hw.isBridge = true) (hconf : BusNumberRegisters hw.cfg) (hbase : pcie.busNumberBase = 0)
    (hlow : pcie.busNumberLast + 1 ≤ n) (hhigh : n ≤ 255) :
    forwardsBus n (enteredBridge pcie₁ hw.link dev) = true ∧
      (enteredBridge pcie₁ hw.link dev).secondaryBus = pcie₁.nextBus.busNumberLast := by
  have hlast : pcie₁.nextBus.busNumberLast = pcie.busNumberLast + 1 := by
    rw [← busNumberLast_setup hsetup]
    rfl
  have hbase₁ : pcie₁.nextBus.busNumberBase = 0 := (busNumberBase_setup hsetup).trans hbase
  obtain ⟨hsecondary, hsubordinate⟩ := @prescanned_busNumbers _ pcie₁.nextBus pcie₁.nextBus.busNumberLast
    hw.link { dev with activated := true } (hconf.of_sameDevice (setup_record hsetup).2.2)
  have hsecondary' : (enteredBridge pcie₁ hw.link dev).secondaryBus = pcie₁.nextBus.busNumberLast := by
    show (pciReadConfig8 (enteredBridge pcie₁ hw.link dev).dev pciSecondaryBus).toNat = _
    unfold enteredBridge
    dsimp only
    rw [hsecondary, hbase₁, Nat.sub_zero, toNat_ofNat_bus (by omega)]
  have hsubordinate' : (enteredBridge pcie₁ hw.link dev).subordinateBus = 255 := by
    show (pciReadConfig8 (enteredBridge pcie₁ hw.link dev).dev pciSubordinateBus).toNat = _
    unfold enteredBridge
    dsimp only
    rw [hsubordinate]
    rfl
  have hbridge : (enteredBridge pcie₁ hw.link dev).IsBridge :=
    ((pciautoPrescanSetupBridge_rewritten pcie₁.nextBus pcie₁.nextBus.busNumberLast hw.link
      { dev with activated := true }).2.2.2.read (by decide)).trans
      ((setup_record hsetup).1.trans (of_decide_eq_true hclass))
  exact ⟨forwardsBus_iff.2 ⟨hbridge, by omega, by omega⟩, hsecondary'⟩

/-- A bridge that the scan has left forwards what was given out behind it. -/
theorem forwardsBus_left {b : ℕ} {bridges : List PciDevice} {pcie pcie₁ pcie₂ : PciController σ}
    {hw : HwFunction} {dev : PciDevice} {children : Forest HwFunction}
    {below : Forest ConfiguredFunction} {lastSub : ℕ} (hclass : hw.isBridge = true)
    (hsetup : pciautoSetupDevice pcie bridges (hw.record b) pcie.ptr = (pcie₁, dev))
    (hbelow : Scan pcie₁.nextBus.busNumberLast (dev :: bridges)
      (pciautoConfigInit pcie₁.nextBus.alignWindows) pcie₁.nextBus.busNumberLast children below pcie₂
      lastSub)
    (hb : b ≤ pcie.busNumberLast) (hbase : pcie.busNumberBase = 0) (hmax : pcie₂.busNumberLast ≤ 255)
    (haddress : ∀ f ∈ hw :: children.toList, f.device < 32 ∧ f.function < 8)
    (hregisters : ∀ f ∈ hw :: children.toList, f.isBridge = true → BusNumberRegisters f.cfg) {n : ℕ}
    (hn : pcie₂.busNumberLast < n) (secondary : Option BusNumbers) :
    forwardsBus n ⟨scannedBridge pcie₁.nextBus pcie₂ pcie₁.nextBus.busNumberLast lastSub hw.link
      { dev with activated := true }, secondary⟩ = false := by
  -- the scan of this bridge alone
  have hnil : Scan b bridges pcie₂.alignWindows (max b lastSub) .nil .nil pcie₂.alignWindows
      (max b lastSub) := .nil
  have hscan := Scan.bridge hclass hsetup hbelow hnil
  have hlist : (Forest.node hw children .nil).toList = hw :: children.toList := by
    rw [Forest.toList_node, Forest.toList_nil, List.append_nil]
  have hmax' : pcie₂.alignWindows.busNumberLast ≤ 255 := by
    rw [busNumberLast_alignWindows]
    exact hmax
  rw [← hlist] at haddress hregisters
  obtain ⟨-, hall⟩ := hscan.routed le_rfl hb hbase hmax' haddress hregisters
  obtain ⟨-, hsubordinate⟩ := hall _ List.mem_cons_self _ rfl
  have hstart : (pciautoConfigInit pcie₁.nextBus.alignWindows).busNumberLast
      = pcie₁.nextBus.busNumberLast := by
    rw [busNumberLast_configInit, busNumberLast_alignWindows]
  obtain ⟨hnumbered, hsub⟩ := hbelow.numbered le_rfl hstart.ge
  have hle := hnumbered.le
  rw [hstart] at hsub hle
  rw [← Bool.not_eq_true]
  intro hforwards
  obtain ⟨-, -, hhigh⟩ := forwardsBus_iff.1 hforwards
  have hhigh : n ≤ lastSub := hhigh.trans_eq hsubordinate
  split at hsub <;> omega

/-! ## Whose cycle it is -/

section Moments

variable {b n devfn : ℕ} {bridges : List PciDevice} {pcie : PciController σ}
  {functions : Forest HwFunction} {fabric : Forest ConfiguredFunction} {level : List ConfiguredFunction}

/-- A bus behind has a number of its own. -/
theorem Deeper.bounds (h : Deeper b bridges pcie functions fabric n level) :
    pcie.busNumberLast < n ∧
      n ≤ pcie.busNumberLast + functions.toList.countP HwFunction.isBridge := by
  induction h with
  | @enter b bridges pcie hw children siblings fabric pcie₁ dev hclass hsetup _ =>
    have hn : pcie₁.nextBus.busNumberLast = pcie.busNumberLast + 1 := by
      rw [← busNumberLast_setup hsetup]
      rfl
    rw [hn, Forest.toList_node, List.countP_cons_of_pos hclass]
    omega
  | @further b bridges pcie hw children siblings fabric pcie₁ dev n level hclass hsetup _ ih =>
    have hn : pcie₁.nextBus.busNumberLast = pcie.busNumberLast + 1 := by
      rw [← busNumberLast_setup hsetup]
      rfl
    rw [busNumberLast_configInit, busNumberLast_alignWindows, hn] at ih
    rw [Forest.toList_node, List.countP_cons_of_pos hclass, List.countP_append]
    omega
  | leaf hclass hsetup _ ih =>
    rw [busNumberLast_setup hsetup] at ih
    rw [Forest.toList_node, Forest.toList_nil, List.nil_append, List.countP_cons_of_neg (by simp [hclass])]
    exact ih
  | @bridge b bridges pcie hw children siblings below fabric pcie₁ dev pcie₂ lastSub n level hclass hsetup
      hbelow _ ih =>
    have hn : pcie₁.nextBus.busNumberLast = pcie.busNumberLast + 1 := by
      rw [← busNumberLast_setup hsetup]
      rfl
    have hlast := hbelow.busNumberLast_eq
    rw [busNumberLast_configInit, busNumberLast_alignWindows, hn] at hlast
    rw [busNumberLast_alignWindows] at ih
    rw [Forest.toList_node, List.countP_cons_of_pos hclass, List.countP_append]
    omega

/-- **The bus that is scanned answers.** -/
theorem Deeper.configTargets_eq (h : Deeper b bridges pcie functions fabric n level)
    (hb : b ≤ pcie.busNumberLast) (hbase : pcie.busNumberBase = 0)
    (hcount : pcie.busNumberLast + functions.toList.countP HwFunction.isBridge ≤ 255)
    (haddress : ∀ hw ∈ functions.toList, hw.device < 32 ∧ hw.function < 8)
    (hregisters : ∀ hw ∈ functions.toList, hw.isBridge = true → BusNumberRegisters hw.cfg)
    (hreset : ∀ hw ∈ functions.toList, hw.isBridge = true → BusNumbersReset hw.cfg) (devfn : ℕ) :
    configTargets n devfn b fabric = level.filter fun f => f.dev.devfn = devfn := by
  induction h with
  | @enter b bridges pcie hw children siblings fabric pcie₁ dev hclass hsetup hbelow =>
    have hmoment : Deeper b bridges pcie (.node hw children siblings) _ _ _ :=
      .enter hclass hsetup hbelow
    have hbounds := hmoment.bounds
    obtain ⟨hforwards, hsecondary⟩ := forwardsBus_entered hsetup hclass
      (hregisters hw List.mem_cons_self hclass) hbase hbounds.1 (by omega)
    have hrest := @configTargets_of_not_forwards _ devfn b (by omega) _
      (@not_forwardsBus_asleep siblings pcie₁.nextBus.busNumberLast (by omega) fun f hf =>
        hreset f (List.mem_cons_of_mem _ (List.mem_append_right _ hf)))
    rw [configTargets, if_neg (by omega), if_pos hforwards, hsecondary, configTargets_self, hrest,
      List.append_nil]
  | @further b bridges pcie hw children siblings fabric pcie₁ dev n level hclass hsetup hbelow ih =>
    have hmoment : Deeper b bridges pcie (.node hw children siblings) _ n level :=
      .further hclass hsetup hbelow
    have hbounds := hmoment.bounds
    have hstart : (pciautoConfigInit pcie₁.nextBus.alignWindows).busNumberLast
        = pcie.busNumberLast + 1 := by
      rw [busNumberLast_configInit, busNumberLast_alignWindows, ← busNumberLast_setup hsetup]
      rfl
    have hn : pcie₁.nextBus.busNumberLast = pcie.busNumberLast + 1 := by
      rw [← busNumberLast_setup hsetup]
      rfl
    have hcount' := hcount
    rw [Forest.toList_node, List.countP_cons_of_pos hclass, List.countP_append] at hcount'
    obtain ⟨hforwards, hsecondary⟩ := forwardsBus_entered hsetup hclass
      (hregisters hw List.mem_cons_self hclass) hbase hbounds.1 (by omega)
    have hrest := @configTargets_of_not_forwards _ devfn b (by omega) _
      (@not_forwardsBus_asleep siblings n (by omega) fun f hf =>
        hreset f (List.mem_cons_of_mem _ (List.mem_append_right _ hf)))
    rw [configTargets, if_neg (by omega), if_pos hforwards, hsecondary, hrest, List.append_nil]
    exact ih (by omega)
      (by rw [busNumberBase_configInit, busNumberBase_alignWindows]
          exact (busNumberBase_setup hsetup).trans hbase) (by omega)
      (fun f hf => haddress f (List.mem_cons_of_mem _ (List.mem_append_left _ hf)))
      (fun f hf => hregisters f (List.mem_cons_of_mem _ (List.mem_append_left _ hf)))
      fun f hf => hreset f (List.mem_cons_of_mem _ (List.mem_append_left _ hf))
  | @leaf b bridges pcie hw siblings fabric pcie₁ dev n level hclass hsetup hrest ih =>
    have hbounds := (Deeper.leaf hclass hsetup hrest).bounds
    have hlast := busNumberLast_setup hsetup
    rw [Forest.toList_node, Forest.toList_nil, List.nil_append,
      List.countP_cons_of_neg (by simp [hclass])] at hcount
    have hnot : ¬ forwardsBus n ⟨dev, none⟩ = true := fun hforwards =>
      not_isBridge_leaf hsetup hclass (forwardsBus_iff.1 hforwards).1
    rw [configTargets, if_neg (by omega), if_neg hnot, List.nil_append]
    exact ih (by omega) ((busNumberBase_setup hsetup).trans hbase) (by omega)
      (fun f hf => haddress f (List.mem_cons_of_mem _ hf))
      (fun f hf => hregisters f (List.mem_cons_of_mem _ hf))
      fun f hf => hreset f (List.mem_cons_of_mem _ hf)
  | @bridge b bridges pcie hw children siblings below fabric pcie₁ dev pcie₂ lastSub n level hclass hsetup
      hbelow hrest ih =>
    have hbounds := hrest.bounds
    rw [busNumberLast_alignWindows] at hbounds
    have hn : pcie₁.nextBus.busNumberLast = pcie.busNumberLast + 1 := by
      rw [← busNumberLast_setup hsetup]
      rfl
    have hlast := hbelow.busNumberLast_eq
    rw [busNumberLast_configInit, busNumberLast_alignWindows, hn] at hlast
    rw [Forest.toList_node, List.countP_cons_of_pos hclass, List.countP_append] at hcount
    have hbehind {f : HwFunction} (hf : f ∈ hw :: children.toList) :
        f ∈ (Forest.node hw children siblings).toList := by
      rcases List.mem_cons.1 hf with rfl | hf
      · exact List.mem_cons_self
      · exact List.mem_cons_of_mem _ (List.mem_append_left _ hf)
    have hnot := forwardsBus_left hclass hsetup hbelow hb hbase (by omega)
      (fun f hf => haddress f (hbehind hf)) (fun f hf => hregisters f (hbehind hf)) hbounds.1
      (some ⟨pcie₁.nextBus.busNumberLast, lastSub⟩)
    have hbase₂ : pcie₂.busNumberBase = 0 := by
      rw [hbelow.busNumberBase_eq, busNumberBase_configInit, busNumberBase_alignWindows]
      exact (busNumberBase_setup hsetup).trans hbase
    rw [configTargets, if_neg (by omega), hnot, if_neg Bool.false_ne_true, List.nil_append]
    exact ih (by rw [busNumberLast_alignWindows]; omega)
      ((busNumberBase_alignWindows _).trans hbase₂) (by rw [busNumberLast_alignWindows]; omega)
      (fun f hf => haddress f (List.mem_cons_of_mem _ (List.mem_append_right _ hf)))
      (fun f hf => hregisters f (List.mem_cons_of_mem _ (List.mem_append_right _ hf)))
      fun f hf => hreset f (List.mem_cons_of_mem _ (List.mem_append_right _ hf))

/-- The records of a bus that is scanned keep their addresses. -/
theorem Underway.map_devfn (h : Underway b bridges pcie functions fabric) :
    fabric.roots.map (fun f => f.dev.devfn) = functions.roots.map fun hw => (hw.record b).devfn := by
  induction h with
  | @start pcie functions =>
    induction functions with
    | nil => rfl
    | node hw children siblings _ ih =>
      rw [asleep, Forest.roots_node, Forest.roots_node, List.map_cons, List.map_cons, ih]
      refine congrArg (· :: _) ?_
      show pciMaskBus (pciBdf 0 hw.device hw.function) = pciMaskBus (pciBdf b hw.device hw.function)
      unfold pciMaskBus pciBdf
      omega
  | leaf _ hsetup _ ih =>
    rw [Forest.roots_node, Forest.roots_node, List.map_cons, List.map_cons, ih]
    exact congrArg (· :: _) (devfn_setup hsetup)
  | @bridge pcie hw children siblings below fabric pcie₁ dev pcie₂ lastSub _ hsetup _ _ ih =>
    have hscanned := (scannedBridge_rewritten pcie₁.nextBus pcie₂ pcie₁.nextBus.busNumberLast lastSub
      hw.link { dev with activated := true }).devfn
    have hsetup' := devfn_setup hsetup
    rw [Forest.roots_node, Forest.roots_node, List.map_cons, List.map_cons, ih]
    exact congrArg (· :: _) (hscanned.trans hsetup')

/-- The functions of a bus that is scanned stand at different addresses. -/
theorem Deeper.distinctSlots (h : Deeper b bridges pcie functions fabric n level)
    (hon : functions.All fun _ children => OnBus 2 children.roots) : DistinctSlots level := by
  induction h with
  | enter _ _ hbelow => exact distinctSlots_of_map hon.1 hbelow.map_devfn
  | further _ _ _ ih => exact ih hon.2.1
  | leaf _ _ _ ih => exact ih hon.2.2
  | bridge _ _ _ _ ih => exact ih hon.2.2

/-- Every bus is scanned at some time. -/
theorem Scan.exists_deeper {last last' : ℕ} {pcie' : PciController σ}
    {configured : Forest ConfiguredFunction}
    (h : Scan b bridges pcie last functions configured pcie' last') :
    ∀ n ∈ busNumbers configured, ∃ fabric level, Deeper b bridges pcie functions fabric n level := by
  induction h with
  | nil =>
    intro n hn
    cases hn
  | @leaf b bridges pcie last hw siblings rest pcie₁ dev pcie' last' hclass hsetup _ ih =>
    intro n hn
    have hnone : (⟨dev, none⟩ : ConfiguredFunction).numbers = none := rfl
    unfold busNumbers at hn
    rw [Forest.firsts_node_of_none hnone, Forest.firsts_nil, List.nil_append] at hn
    obtain ⟨fabric, level, hmoment⟩ := ih n hn
    exact ⟨_, level, .leaf hclass hsetup hmoment⟩
  | @bridge b bridges pcie last hw children siblings below rest pcie₁ dev pcie₂ lastSub pcie' last'
      hclass hsetup hbelow _ ihb ihr =>
    intro n hn
    have hsome : (⟨scannedBridge pcie₁.nextBus pcie₂ pcie₁.nextBus.busNumberLast lastSub hw.link
        { dev with activated := true }, some ⟨pcie₁.nextBus.busNumberLast, lastSub⟩⟩ :
          ConfiguredFunction).numbers = some (pcie₁.nextBus.busNumberLast, lastSub) := rfl
    unfold busNumbers at hn
    rw [Forest.firsts_node_of_some hsome] at hn
    rcases List.mem_cons.1 hn with rfl | hn
    · exact ⟨_, _, .enter hclass hsetup .start⟩
    · rcases List.mem_append.1 hn with hn | hn
      · obtain ⟨fabric, level, hmoment⟩ := ihb n hn
        exact ⟨_, level, .further hclass hsetup hmoment⟩
      · obtain ⟨fabric, level, hmoment⟩ := ihr n hn
        exact ⟨_, level, .bridge hclass hsetup hbelow hmoment⟩

end Moments

section Machine

variable {functions : Forest HwFunction} {bus : PciBus} {configured : Forest ConfiguredFunction}
  {s s' : EnumState σ}

end Machine

end BcmPcie
