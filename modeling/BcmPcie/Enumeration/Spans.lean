import BcmPcie.Enumeration.Placement
import BcmPcie.Library.Fabrics

/-! # The windows of a bridge and the BARs around it

What a scan makes of one region, function by function, without the scan: the BARs of a function are
the blocks of its requests, and the windows of a bridge end where the pointer stood behind its bus. If
nothing is taken before a pointer is set back, a BAR that is not behind a bridge lies above the
windows of it.

* `Spans` — the BARs and windows of a forest, from the pointer it was reached with.
* `Scan.spans` — a scan leaves them.
* `Spans.beside` — windows hold no BAR that is not behind their bridge. -/

namespace BcmPcie

open Bump Runs

variable {σ : Type}

/-! ## Windows by kind -/

/-- The window of a bridge for the region of kind `k`: the prefetchable one, or the one for other
memory. -/
def windowStart (k : RegionKind) (dev : PciDevice) : ℕ :=
  match k with
  | .prefetch => prefetchBase dev
  | _ => memoryBase dev
def windowEnd (k : RegionKind) (dev : PciDevice) : ℕ :=
  match k with
  | .prefetch => prefetchEnd dev
  | _ => memoryEnd dev

/-- A bridge's window for a region starts and ends where the pointer of the region stood. -/
theorem scanned_window {pcie pcie' : PciController σ} {k : RegionKind} (hk : k ≠ .io)
    {busNumber lastSub : ℕ} {link : LinkAnswers} {dev : PciDevice} {res : PciRegion} {p q : ℕ}
    (h : RegionAt pcie k (some res) p) (h' : RegionAt pcie' k (some res) q) (hsel : pcie.Selected)
    (hsel' : pcie'.Selected) (hconf : WindowRegisters dev.cfg k) :
    let dev' := scannedBridge pcie pcie' busNumber lastSub link dev
    windowStart k dev' = alignUp p (2 ^ 20) % 2 ^ 32 ∧ windowEnd k dev' = alignUp q (2 ^ 20) := by
  cases k with
  | io => exact absurd rfl hk
  | mem => exact scanned_memoryWindow h h' hconf
  | prefetch => exact scanned_prefetchWindow h h' hsel hsel' hconf

/-- What a function asks for are blocks. -/
theorem take_of_mem_deviceRequests {k : RegionKind} {prefetch : Bool} {cfg : RegisterFile 4096}
    {headerType barsNum : ℕ} {r : Request BlockUse}
    (h : r ∈ deviceRequests k prefetch cfg headerType barsNum) : ∃ size use, r = .take size use := by
  rcases List.mem_append.1 h with h | h
  · obtain ⟨slot, -, -, -, rfl⟩ := mem_barRequests h
    exact ⟨_, _, rfl⟩
  · unfold romRequests at h
    split at h
    · exact ⟨_, _, List.mem_singleton.1 h⟩
    · cases h

/-- The set-up of a bridge keeps what it implements of a window. -/
theorem windowRegisters_setup {pcie pcie₁ : PciController σ} {bridges : List PciDevice}
    {hw : HwFunction} {b : ℕ} {dev : PciDevice} {k : RegionKind}
    (hsetup : pciautoSetupDevice pcie bridges (hw.record b) pcie.ptr = (pcie₁, dev))
    (hconf : WindowRegisters hw.cfg k) :
    WindowRegisters ({ dev with activated := true } : PciDevice).cfg k :=
  hconf.of_sameDevice (setup_record hsetup).2.2

/-! ## Along a scan -/

/-- What a function asks for itself. -/
def HwFunction.requests (k : RegionKind) (prefetch : Bool) (hw : HwFunction) :
    List (Request BlockUse) :=
  deviceRequests k prefetch hw.cfg hw.headerType (headerBars hw.headerType)

/-- The BARs and the windows of kind `k` in a forest that was reached with the pointer at `p`: the
windows of a bridge are opened at the pointer behind its own BARs, the bus behind it starts from the
beginning of the region, and the windows end where the pointer stands then. -/
inductive Spans (k : RegionKind) (prefetch : Bool) (a : Arena) :
    (p : ℕ) → Forest HwFunction → Forest ConfiguredFunction → Prop
  | nil {p} : Spans k prefetch a p .nil .nil
  | leaf {p hw siblings f rest} (hclass : hw.isBridge = false) (hnone : f.secondary = none)
    (hbars : (ofKind prefetch k f.dev.slots).map PciBarInfo.block
      = (a.blocks p (hw.requests k prefetch)).filter (·.tag = .bar))
    (hrest : Spans k prefetch a (a.run p (hw.requests k prefetch)) siblings rest) :
    Spans k prefetch a p (.node hw .nil siblings) (.node f .nil rest)
  | bridge {p hw children siblings f below rest} (hclass : hw.isBridge = true)
    (hsome : f.secondary.isSome)
    (hbars : (ofKind prefetch k f.dev.slots).map PciBarInfo.block
      = (a.blocks p (hw.requests k prefetch)).filter (·.tag = .bar))
    (hstart : WindowRegisters hw.cfg k → windowStart k f.dev
      = alignUp (a.run p (hw.requests k prefetch)) (2 ^ 20) % 2 ^ 32)
    (hend : WindowRegisters hw.cfg k → windowEnd k f.dev
      = alignUp (a.run a.start (scanRequests k prefetch children)) (2 ^ 20))
    (hbelow : Spans k prefetch a a.start children below)
    (hrest : Spans k prefetch a
      (alignUp (a.run a.start (scanRequests k prefetch children)) (2 ^ 20)) siblings rest) :
    Spans k prefetch a p (.node hw children siblings) (.node f below rest)

/-- **A scan leaves the BARs and windows** of a region of memory so. -/
theorem Scan.spans {k : RegionKind} {res : PciRegion} {b last last' p : ℕ} {bridges : List PciDevice}
    {pcie pcie' : PciController σ} {functions : Forest HwFunction}
    {configured : Forest ConfiguredFunction} {prefetch : Bool}
    (h : Scan b bridges pcie last functions configured pcie' last') (hk : k ≠ .io)
    (hconf : ∀ hw ∈ functions.toList,
      ConformingBars hw.cfg hw.headerType (headerBars hw.headerType))
    (hsel : pcie.Selected) (hprefetch : (pcie.ptr .prefetch).isSome = prefetch)
    (hat : RegionAt pcie k (some res) p)
    (hexact : EveryStep res.arena.step (RegionExact (some res)) p
      (scanRequests k prefetch functions)) :
    Spans k prefetch res.arena p functions configured := by
  induction h generalizing p with
  | nil => exact .nil
  | @leaf b bridges pcie last hw siblings rest pcie₁ dev pcie' last' hclass hsetup _ ih =>
    rw [scanRequests, hclass, if_neg Bool.false_ne_true, List.nil_append, everyStep_append] at hexact
    subst hprefetch
    obtain ⟨hat₁, hblocks⟩ := setup_regionAt hsetup hk (hconf hw List.mem_cons_self) hsel hat hexact.1
    have hsame := sameChoice_setup hsel hsetup
    exact .leaf hclass rfl hblocks (ih (fun g hg => hconf g (List.mem_cons_of_mem _ hg))
      hsame.selected (by rw [hsame.ptr]) hat₁ hexact.2)
  | @bridge b bridges pcie last hw children siblings below rest pcie₁ dev pcie₂ lastSub pcie' last'
      hclass hsetup hscan _ ihb ihr =>
    rw [scanRequests, hclass, if_pos rfl] at hexact
    obtain ⟨hexact₁, hexactBelow, hexactRest⟩ := everyStep_bridge hexact
    subst hprefetch
    have hconfBelow : ∀ g ∈ children.toList, ConformingBars g.cfg g.headerType
        (headerBars g.headerType) :=
      fun g hg => hconf g (List.mem_cons_of_mem _ (List.mem_append_left _ hg))
    -- the bridge's own BARs
    obtain ⟨hat₁, hblocks⟩ := setup_regionAt hsetup hk (hconf hw List.mem_cons_self) hsel hat hexact₁
    have hsame₁ := sameChoice_setup hsel hsetup
    have hnext := sameChoice_nextBus hsame₁.selected
    have hatNext := hat₁.congr (chosen_nextBus pcie₁ k)
    -- the bus behind it
    have hsame₂ := sameChoice_into hsame₁.selected
    have hatBelow := hatNext.into hnext.selected hk
    obtain ⟨hatEnd, -⟩ := hscan.regionAt hk hconfBelow hsame₂.selected
      (by rw [hsame₂.ptr, hsame₁.ptr]) hatBelow hexactBelow
    have hsame := (hsame₁.trans hsame₂).trans (hscan.sameChoice hsame₂.selected)
    have hspansBelow := ihb hconfBelow hsame₂.selected (by rw [hsame₂.ptr, hsame₁.ptr]) hatBelow
      hexactBelow
    -- the functions next to it
    have halign := (onlyRegions_alignWindows pcie₂).sameChoice hsame.selected
    have hspansRest := ihr (fun g hg => hconf g (List.mem_cons_of_mem _ (List.mem_append_right _ hg)))
      halign.selected (by rw [halign.ptr, hsame.ptr]) (hatEnd.alignWindows hsame.selected hk)
      hexactRest
    have hwindow (hregisters : WindowRegisters hw.cfg k) :=
      @scanned_window _ _ _ _ hk pcie₁.nextBus.busNumberLast lastSub hw.link
        { dev with activated := true } _ _ _ hatNext hatEnd hnext.selected hsame.selected
        (windowRegisters_setup hsetup hregisters)
    refine .bridge hclass rfl ?_ (fun hregisters => (hwindow hregisters).1)
      (fun hregisters => (hwindow hregisters).2) hspansBelow hspansRest
    dsimp only
    rw [scannedBridge_slots]
    exact hblocks

section Spans

variable {k : RegionKind} {prefetch : Bool} {a : Arena} {p : ℕ} {functions : Forest HwFunction}
  {configured : Forest ConfiguredFunction}

/-- The requests of a bridge with the bus behind it, and of what is next to it. -/
theorem scanRequests_bridge {hw : HwFunction} {children siblings : Forest HwFunction}
    (hclass : hw.isBridge = true) :
    scanRequests k prefetch (.node hw children siblings)
      = hw.requests k prefetch ++ (.round (2 ^ 20) :: .rewind ::
          (scanRequests k prefetch children ++ .round (2 ^ 20) :: scanRequests k prefetch siblings)) := by
  rw [scanRequests, hclass, if_pos rfl, List.cons_append, List.cons_append, List.append_assoc]
  rfl

/-- A function that is no bridge asks for what it needs, and those beside it follow. -/
theorem scanRequests_leaf {hw : HwFunction} {children siblings : Forest HwFunction}
    (hclass : hw.isBridge = false) :
    scanRequests k prefetch (.node hw children siblings)
      = hw.requests k prefetch ++ scanRequests k prefetch siblings := by
  rw [scanRequests, hclass, if_neg Bool.false_ne_true, List.nil_append]
  rfl

/-- The requests of a bridge's bus, and of the functions next to the bridge, are requests of the
forest. -/
theorem mem_scanRequests_bridge {hw : HwFunction} {children siblings : Forest HwFunction}
    (hclass : hw.isBridge = true) {r : Request BlockUse}
    (h : r ∈ hw.requests k prefetch ∨ r ∈ scanRequests k prefetch children ∨
      r ∈ scanRequests k prefetch siblings) :
    r ∈ scanRequests k prefetch (.node hw children siblings) := by
  rw [scanRequests_bridge hclass]
  rcases h with h | h | h
  · exact List.mem_append_left _ h
  · exact List.mem_append_right _ (List.mem_cons_of_mem _ (List.mem_cons_of_mem _
      (List.mem_append_left _ h)))
  · exact List.mem_append_right _ (List.mem_cons_of_mem _ (List.mem_cons_of_mem _
      (List.mem_append_right _ (List.mem_cons_of_mem _ h))))

/-- A forest with a bridge in it asks for a rewind. -/
theorem Spans.rewind_mem (h : Spans k prefetch a p functions configured) {g : ConfiguredFunction}
    (hg : g ∈ configured.toList) (hsome : g.secondary.isSome) :
    .rewind ∈ scanRequests k prefetch functions := by
  induction h with
  | nil => cases hg
  | leaf hclass hnone _ _ ih =>
    rw [scanRequests_leaf hclass]
    rcases List.mem_cons.1 hg with rfl | hg
    · rw [hnone] at hsome
      cases hsome
    · exact List.mem_append_right _ (ih hg)
  | bridge hclass =>
    rw [scanRequests_bridge hclass]
    exact List.mem_append_right _ (List.mem_cons_of_mem _ List.mem_cons_self)

/-- The BARs of a function are blocks of the forest it is in. -/
theorem Spans.exists_block (h : Spans k prefetch a p functions configured) {f : ConfiguredFunction}
    (hf : f ∈ configured.toList) {bar : PciBarInfo} (hbar : bar ∈ ofKind prefetch k f.dev.slots) :
    bar.block ∈ a.blocks p (scanRequests k prefetch functions) := by
  have hown {p : ℕ} {hw : HwFunction} {f : ConfiguredFunction}
      (hbars : (ofKind prefetch k f.dev.slots).map PciBarInfo.block
        = (a.blocks p (hw.requests k prefetch)).filter (·.tag = .bar))
      (hbar : bar ∈ ofKind prefetch k f.dev.slots) :
      bar.block ∈ a.blocks p (hw.requests k prefetch) := by
    have hmem := List.mem_map_of_mem (f := PciBarInfo.block) hbar
    rw [hbars] at hmem
    exact (List.mem_filter.1 hmem).1
  induction h with
  | nil => cases hf
  | leaf hclass _ hbars _ ih =>
    rw [scanRequests_leaf hclass, Arena.blocks_append]
    rcases List.mem_cons.1 hf with rfl | hf
    · exact List.mem_append_left _ (hown hbars hbar)
    · exact List.mem_append_right _ (ih hf)
  | bridge hclass _ hbars _ _ _ _ ihb ihr =>
    rw [scanRequests_bridge hclass, Arena.blocks_append, Arena.blocks_round, Arena.blocks_rewind,
      Arena.blocks_append, Arena.blocks_round]
    rcases List.mem_cons.1 hf with rfl | hf
    · exact List.mem_append_left _ (hown hbars hbar)
    · refine List.mem_append_right _ ?_
      rcases List.mem_append.1 hf with hf | hf
      · exact List.mem_append_left _ (ihb hf)
      · exact List.mem_append_right _ (ihr hf)

/-- The BARs of a forest are the blocks granted for BARs along its requests. -/
theorem Spans.blocks_eq (h : Spans k prefetch a p functions configured) :
    (placedBars prefetch k configured).map PciBarInfo.block
      = (a.blocks p (scanRequests k prefetch functions)).filter (·.tag = .bar) := by
  induction h with
  | nil => rfl
  | leaf hclass _ hbars _ ih =>
    rw [scanRequests_leaf hclass, placedBars_node, List.map_append, hbars, placedBars_nil,
      List.nil_append, ih, Arena.blocks_append, List.filter_append]
  | bridge hclass _ hbars _ _ _ _ ihb ihr =>
    rw [scanRequests_bridge hclass, placedBars_node, List.map_append, List.map_append, hbars, ihb, ihr,
      Arena.blocks_append, Arena.blocks_round, Arena.blocks_rewind, Arena.blocks_append,
      Arena.blocks_round, List.filter_append, List.filter_append]

/-- A forest that takes nothing has no BARs. -/
theorem Spans.ofKind_eq_nil (h : Spans k prefetch a p functions configured)
    (hnone : ∀ size use, .take size use ∉ scanRequests k prefetch functions) {f : ConfiguredFunction}
    (hf : f ∈ configured.toList) : ofKind prefetch k f.dev.slots = [] := by
  rw [List.eq_nil_iff_forall_not_mem]
  intro bar hbar
  exact hnone _ _ (a.take_mem_of_mem_blocks (h.exists_block hf hbar))

/-- A function that stands before a rewind takes nothing. -/
theorem requests_eq_nil {hw : HwFunction} {rs : List (Request BlockUse)}
    (hsettled : Arena.Settled (hw.requests k prefetch ++ rs)) (hrewind : .rewind ∈ rs) :
    hw.requests k prefetch = [] := by
  rw [List.eq_nil_iff_forall_not_mem]
  intro r hr
  obtain ⟨size, use, rfl⟩ := take_of_mem_deviceRequests hr
  exact hsettled.take_notMem hrewind size use hr

/-- A bridge where nothing is taken before the pointer is set back: it takes nothing itself, the same
holds of its bus and of what is next to it, and if another bridge follows its bus takes nothing. -/
theorem settled_bridge {hw : HwFunction} {children siblings : Forest HwFunction}
    (hclass : hw.isBridge = true)
    (hsettled : Arena.Settled (scanRequests k prefetch (.node hw children siblings))) :
    hw.requests k prefetch = [] ∧ Arena.Settled (scanRequests k prefetch children) ∧
      Arena.Settled (scanRequests k prefetch siblings) ∧
      (.rewind ∈ scanRequests k prefetch siblings →
        ∀ size use, .take size use ∉ scanRequests k prefetch children) := by
  rw [scanRequests_bridge hclass] at hsettled
  have htail := (hsettled.of_sublist (List.sublist_append_right _ _)).of_sublist
    ((List.sublist_cons_self _ _).trans (List.sublist_cons_self _ _))
  refine ⟨requests_eq_nil hsettled (List.mem_cons_of_mem _ List.mem_cons_self),
    htail.of_sublist (List.sublist_append_left _ _),
    htail.of_sublist ((List.sublist_cons_self _ _).trans (List.sublist_append_right _ _)),
    fun hrewind => htail.take_notMem (List.mem_cons_of_mem _ hrewind)⟩

/-- The windows of a bus on which nothing is taken end at the start of the region. -/
theorem alignUp_run_eq_start (hpos : Arena.Positive (scanRequests k prefetch functions))
    (haligned : 2 ^ 20 ∣ a.start)
    (hnone : ∀ size use, .take size use ∉ scanRequests k prefetch functions) :
    alignUp (a.run a.start (scanRequests k prefetch functions)) (2 ^ 20) = a.start := by
  rw [a.run_eq_start hnone hpos fun grain hgrain => ?_]
  · exact alignUp_of_dvd (Nat.two_pow_pos 20) haligned
  · rcases mem_scanRequests hgrain with ⟨g, -, hr⟩ | hr | hr
    · obtain ⟨size, use, hr⟩ := take_of_mem_deviceRequests hr
      cases hr
    · injection hr with hgrain
      rw [hgrain]
      exact haligned
    · cases hr

/-- **What lies beside the windows of a bridge.** Where nothing is taken before the pointer is set
back, a BAR that is not behind a bridge lies above the window of the bridge, and no window reaches
above the pointer. -/
theorem Spans.beside (h : Spans k prefetch a p functions configured)
    (hregisters : ∀ hw ∈ functions.toList, hw.isBridge = true → WindowRegisters hw.cfg k)
    (hpos : Arena.Positive (scanRequests k prefetch functions)) (haligned : 2 ^ 20 ∣ a.start)
    (hsettled : Arena.Settled (scanRequests k prefetch functions))
    (hp : .rewind ∈ scanRequests k prefetch functions → p = a.start) :
    (configured.Beside fun g f => g.secondary.isSome → ∀ bar ∈ ofKind prefetch k f.dev.slots,
        windowEnd k g.dev ≤ bar.busAddr.toNat) ∧
      ∀ g ∈ configured.toList, g.secondary.isSome →
        windowEnd k g.dev ≤ a.run p (scanRequests k prefetch functions) := by
  induction h with
  | nil =>
    refine ⟨trivial, fun g hg => ?_⟩
    cases hg
  | @leaf p hw siblings f rest hclass hnone hbars hrest ih =>
    rw [scanRequests_leaf hclass] at hpos hsettled hp ⊢
    have hleaf : ¬ f.secondary.isSome := by
      rw [hnone]
      exact Bool.false_ne_true
    -- a bridge further along means that this function takes nothing
    have hnothing (hrewind : .rewind ∈ scanRequests k prefetch siblings) :
        hw.requests k prefetch = [] := requests_eq_nil hsettled hrewind
    obtain ⟨hbeside, hle⟩ := ih (fun g hg => hregisters g (List.mem_cons_of_mem _ hg))
      (fun r hr => hpos r (List.mem_append_right _ hr))
      (hsettled.of_sublist (List.sublist_append_right _ _)) fun hrewind => by
        rw [hnothing hrewind, Arena.run_nil]
        exact hp (List.mem_append_right _ hrewind)
    refine ⟨⟨⟨fun hsome => absurd hsome hleaf, fun b hb => ?_⟩, fun b hb c hc => ?_, trivial,
      hbeside⟩, fun g hg hsome => ?_⟩
    · cases hb
    · obtain rfl : b = f := List.mem_singleton.1 hb
      refine ⟨fun hsome => absurd hsome hleaf, fun hsome bar hbar => ?_⟩
      rw [hnothing (hrest.rewind_mem hc hsome)] at hbars
      rw [List.map_eq_nil_iff.1 hbars] at hbar
      cases hbar
    · rw [Arena.run_append]
      rcases List.mem_cons.1 hg with rfl | hg
      · exact absurd hsome hleaf
      · exact hle g hg hsome
  | @bridge p hw children siblings f below rest hclass hsome hbars hopen hclose hbelow hrest ihb
      ihr =>
    have hmem {r : Request BlockUse} := @mem_scanRequests_bridge k prefetch hw children siblings hclass r
    obtain ⟨hdevice, hsettledBelow, hsettledRest, hnothing⟩ := settled_bridge hclass hsettled
    have hposBelow : Arena.Positive (scanRequests k prefetch children) := fun r hr =>
      hpos r (hmem (Or.inr (Or.inl hr)))
    have hposRest : Arena.Positive (scanRequests k prefetch siblings) := fun r hr =>
      hpos r (hmem (Or.inr (Or.inr hr)))
    -- the bridge takes nothing itself
    have hown : ofKind prefetch k f.dev.slots = [] := by
      rw [hdevice] at hbars
      exact List.map_eq_nil_iff.1 hbars
    obtain ⟨hbesideBelow, hleBelow⟩ := ihb
      (fun g hg => hregisters g (List.mem_cons_of_mem _ (List.mem_append_left _ hg))) hposBelow
      hsettledBelow fun _ => rfl
    set q := a.run a.start (scanRequests k prefetch children) with hq
    have hqle : q ≤ alignUp q (2 ^ 20) := le_alignUp (Nat.two_pow_pos 20) q
    have hpRest (hrewind : .rewind ∈ scanRequests k prefetch siblings) :
        alignUp q (2 ^ 20) = a.start :=
      alignUp_run_eq_start hposBelow haligned (hnothing hrewind)
    obtain ⟨hbesideRest, hleRest⟩ := ihr
      (fun g hg => hregisters g (List.mem_cons_of_mem _ (List.mem_append_right _ hg))) hposRest
      hsettledRest hpRest
    have hrun : a.run p (scanRequests k prefetch (.node hw children siblings))
        = a.run (alignUp q (2 ^ 20)) (scanRequests k prefetch siblings) := by
      rw [scanRequests_bridge hclass, Arena.run_append, Arena.run_round, Arena.run_rewind,
        Arena.run_append, Arena.run_round]
    -- the windows of the bridge and of those behind it end below what is taken afterwards
    have hends : ∀ b ∈ f :: below.toList, b.secondary.isSome →
        windowEnd k b.dev ≤ alignUp q (2 ^ 20) := by
      intro b hb hbsome
      rcases List.mem_cons.1 hb with rfl | hb
      · exact (hclose (hregisters hw List.mem_cons_self hclass)).le
      · exact (hleBelow b hb hbsome).trans hqle
    have hbarsBelow : .rewind ∈ scanRequests k prefetch siblings → ∀ b ∈ f :: below.toList,
        ofKind prefetch k b.dev.slots = [] := by
      intro hrewind b hb
      rcases List.mem_cons.1 hb with rfl | hb
      · exact hown
      · exact hbelow.ofKind_eq_nil (hnothing hrewind) hb
    refine ⟨⟨⟨fun _ bar hbar => ?_, fun b _ _ bar hbar => ?_⟩, fun b hb c hc =>
      ⟨fun hbsome bar hbar => ?_, fun hcsome bar hbar => ?_⟩, hbesideBelow, hbesideRest⟩,
      fun g hg hgsome => ?_⟩
    · rw [hown] at hbar
      cases hbar
    · rw [hown] at hbar
      cases hbar
    · exact (hends b hb hbsome).trans
        (a.le_addr_of_rewound hposRest hpRest _ (hrest.exists_block hc hbar))
    · rw [hbarsBelow (hrest.rewind_mem hc hcsome) b hb] at hbar
      cases hbar
    · rw [hrun]
      have hle := a.le_run_of_rewound hposRest hpRest
      rcases List.mem_cons.1 hg with rfl | hg
      · exact (hends g List.mem_cons_self hgsome).trans hle
      · rcases List.mem_append.1 hg with hg | hg
        · exact (hends g (List.mem_cons_of_mem _ hg) hgsome).trans hle
        · exact hleRest g hg hgsome

/-- Where nothing is taken before the pointer is set back, all windows start with the region. -/
theorem Spans.windowStart_eq (h : Spans k prefetch a p functions configured)
    (hregisters : ∀ hw ∈ functions.toList, hw.isBridge = true → WindowRegisters hw.cfg k)
    (hpos : Arena.Positive (scanRequests k prefetch functions)) (haligned : 2 ^ 20 ∣ a.start)
    (hlt : a.start < 2 ^ 32) (hsettled : Arena.Settled (scanRequests k prefetch functions))
    (hp : .rewind ∈ scanRequests k prefetch functions → p = a.start) :
    ∀ g ∈ configured.toList, g.secondary.isSome → windowStart k g.dev = a.start := by
  induction h with
  | nil =>
    intro g hg
    cases hg
  | @leaf p hw siblings f rest hclass hnone hbars hrest ih =>
    rw [scanRequests_leaf hclass] at hpos hsettled hp
    intro g hg hsome
    rcases List.mem_cons.1 hg with rfl | hg
    · rw [hnone] at hsome
      cases hsome
    · have hrewind := hrest.rewind_mem hg hsome
      refine ih (fun g hg => hregisters g (List.mem_cons_of_mem _ hg))
        (fun r hr => hpos r (List.mem_append_right _ hr))
        (hsettled.of_sublist (List.sublist_append_right _ _)) (fun _ => ?_) g hg hsome
      rw [requests_eq_nil hsettled hrewind, Arena.run_nil]
      exact hp (List.mem_append_right _ hrewind)
  | @bridge p hw children siblings f below rest hclass hsome hbars hopen hclose hbelow hrest ihb
      ihr =>
    have hmem {r : Request BlockUse} := @mem_scanRequests_bridge k prefetch hw children siblings hclass r
    obtain ⟨hdevice, hsettledBelow, hsettledRest, hnothing⟩ := settled_bridge hclass hsettled
    have hposBelow : Arena.Positive (scanRequests k prefetch children) := fun r hr =>
      hpos r (hmem (Or.inr (Or.inl hr)))
    have hposRest : Arena.Positive (scanRequests k prefetch siblings) := fun r hr =>
      hpos r (hmem (Or.inr (Or.inr hr)))
    have hstart : p = a.start := by
      apply hp
      rw [scanRequests_bridge hclass]
      exact List.mem_append_right _ (List.mem_cons_of_mem _ List.mem_cons_self)
    intro g hg hgsome
    rcases List.mem_cons.1 hg with rfl | hg
    · rw [hopen (hregisters hw List.mem_cons_self hclass), hdevice, Arena.run_nil, hstart,
        alignUp_of_dvd (Nat.two_pow_pos 20) haligned, Nat.mod_eq_of_lt hlt]
    · rcases List.mem_append.1 hg with hg | hg
      · exact ihb (fun g hg => hregisters g (List.mem_cons_of_mem _ (List.mem_append_left _ hg)))
          hposBelow hsettledBelow (fun _ => rfl) g hg hgsome
      · exact ihr (fun g hg => hregisters g (List.mem_cons_of_mem _ (List.mem_append_right _ hg)))
          hposRest hsettledRest
          (fun hrewind => alignUp_run_eq_start hposBelow haligned (hnothing hrewind)) g hg hgsome

/-- A bus is behind a bridge. -/
theorem Spans.below_eq_nil (h : Spans k prefetch a p functions configured) :
    configured.All fun f below => f.secondary = none → below = .nil := by
  induction h with
  | nil => trivial
  | leaf _ _ _ _ ih => exact ⟨fun _ => rfl, trivial, ih⟩
  | bridge _ hsome _ _ _ _ _ ihb ihr =>
    refine ⟨fun hnone => ?_, ihb, ihr⟩
    rw [hnone] at hsome
    cases hsome

end Spans

end BcmPcie
