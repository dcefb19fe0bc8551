import BcmPcie.Enumeration.MachineWindows
import BcmPcie.Fabric.Decode

/-! # Memory transactions on the bus

A transaction that leaves the root complex for a memory BAR of a machine: on every bus on the way one
function claims it, the bridge that the BAR is behind or in the end the function itself, and no other
does. The machine has to be one whose windows hold what is behind them.

* `Orderly` — such machines.
* `windows_outside` — no window holds a BAR that is not behind its bridge.
* `delivered_of_enumerate` — every byte of every memory BAR is delivered to. -/

namespace BcmPcie

open Bump Runs

variable {σ : Type}

/-- The regions of a scan suit the windows of bridges: there is a region of memory, each starts where
a window can start, and the window that stays closed without a prefetchable region has the upper
halves of its registers clear. -/
structure WindowRegions (pcie : PciController σ) (functions : Forest HwFunction) : Prop where
  mem : pcie.select.chosen .mem ≠ none
  aligned : ∀ k, ∀ res ∈ pcie.select.chosen k, 2 ^ 20 ∣ res.arena.start
  upper : pcie.select.chosen .prefetch = none → ∀ hw ∈ functions.toList, hw.isBridge = true →
    ∀ r ∈ [pciPrefBaseUpper32, pciPrefLimitUpper32], hw.cfg.read 32 r = 0

/-- A machine for which enumeration works out: its functions conform, the regions of memory suit
windows and share no address, the check for room does not wrap around, and nothing is taken from a
region before its pointer is set back. -/
structure Orderly (pcie : PciController σ) (functions : Forest HwFunction) : Prop where
  topology : Topology functions
  bars : ∀ hw ∈ functions.toList, ConformingBars hw.cfg hw.headerType (headerBars hw.headerType)
  bridges : ∀ hw ∈ functions.toList, hw.isBridge = true → ConformingBridge hw.cfg
  forward : ∀ hw ∈ functions.toList, hw.isBridge = true → CanForward hw.cfg
  regions : SoundRegions pcie
  windows : WindowRegions pcie functions
  room : ∀ k, k ≠ .io → RoomExactAlong k pcie functions
  settled : ∀ k, k ≠ .io → Arena.Settled (machineRequests k pcie functions)

section Machine

variable {functions : Forest HwFunction} {bus : PciBus} {configured : Forest ConfiguredFunction}
  {s s' : EnumState σ}

/-- What is visible of a machine is part of it. -/
theorem mem_of_mem_visible {hw : HwFunction} (h : hw ∈ (visible functions).toList) :
    hw ∈ functions.toList :=
  (toList_visibleAmong _ _).subset h

/-- The BARs and windows for a region that there is. -/
theorem spans_of_enumerate (ho : Orderly s.pcie functions)
    (h : enumerate functions s = .ok (bus, configured) s') {k : RegionKind} (hk : k ≠ .io)
    {res : PciRegion} (hres : s.pcie.select.chosen k = some res) :
    Spans k (s.pcie.select.ptr .prefetch).isSome res.arena res.arena.start (visible functions)
      configured := by
  have hspans := machine_spans hk ho.topology ho.bars (ho.regions.fits k) (ho.room k hk) h
    (by rw [hres]; exact Option.some_ne_none res)
  unfold machineArena at hspans
  rw [hres] at hspans
  exact hspans

/-- The bridges implement the window for it. -/
theorem Orderly.registers (ho : Orderly s.pcie functions) (k : RegionKind) :
    ∀ hw ∈ (visible functions).toList, hw.isBridge = true → WindowRegisters hw.cfg k :=
  fun hw hhw hbridge => (ho.bridges hw (mem_of_mem_visible hhw) hbridge).registers k

/-- They hold what is behind them. -/
theorem covers_of_enumerate (ho : Orderly s.pcie functions)
    (h : enumerate functions s = .ok (bus, configured) s') {k : RegionKind} (hk : k ≠ .io) :
    configured.All fun f below => s.pcie.select.chosen k ≠ none →
      ∀ bar ∈ placedBars (s.pcie.select.ptr .prefetch).isSome k below,
        windowStart k f.dev ≤ bar.busAddr.toNat ∧
          bar.busAddr.toNat + bar.size.toNat ≤ windowEnd k f.dev := by
  cases hres : s.pcie.select.chosen k with
  | none => exact (Forest.all_subset configured).imp fun _ _ _ hnone => absurd rfl hnone
  | some res =>
    have hspans := spans_of_enumerate ho h hk hres
    obtain ⟨hopens, hholds⟩ := opens_and_holds_of_settled hk hspans
      (fun hw hhw => ho.bars hw (mem_of_mem_visible hhw)) (ho.registers k)
      (ho.windows.aligned k res hres) (ho.settled k hk)
    have hcovered := hspans.covered
      (positive_of_busSized (busSized_of_mem_machineRequests hk s.pcie ho.bars)) hopens hholds
      fun _ => Or.inl rfl
    exact hcovered.imp fun _ _ hbelow _ => hbelow

/-- The functions with a bus behind them are the bridges. -/
theorem isBridge_iff_of_enumerate (ho : Orderly s.pcie functions)
    (h : enumerate functions s = .ok (bus, configured) s') :
    ∀ f ∈ configured.toList, f.IsBridge ↔ f.secondary.isSome :=
  (scan_of_enumerate ho.topology h).isBridge_iff

/-- The bridges forward, in both directions. -/
theorem canForward_of_enumerate (ho : Orderly s.pcie functions)
    (h : enumerate functions s = .ok (bus, configured) s') :
    ∀ f ∈ configured.toList, f.secondary.isSome → memoryOn f.dev = true ∧ masterOn f.dev = true := by
  obtain ⟨hsel, hptr, -⟩ := pciautoConfigInit_spec s.pcie
  refine (scan_of_enumerate ho.topology h).bridgesForward
    (fun hw hhw => ho.forward hw (mem_of_mem_visible hhw)) hsel fun hnone => ?_
  rw [hptr] at hnone
  exact ho.windows.mem (chosen_eq_none_of_ptr hnone)

/-- A memory BAR of a function, with the region it was taken from. -/
theorem exists_region_of_holdsByte (ho : Orderly s.pcie functions)
    (h : enumerate functions s = .ok (bus, configured) s') {f : ConfiguredFunction}
    (hf : f ∈ configured.toList) {slot x : ℕ} (hslot : slot < f.dev.barsNum)
    (hholds : HoldsByte f.dev x slot) :
    ∃ k, k ≠ .io ∧ ∃ res, s.pcie.select.chosen k = some res ∧
      f.dev.bars slot ∈ ofKind (s.pcie.select.ptr .prefetch).isSome k f.dev.slots := by
  obtain ⟨hpresent, htype, -⟩ := hholds
  have hslots : f.dev.bars slot ∈ f.dev.slots :=
    List.mem_map_of_mem (f := f.dev.bars) (List.mem_range.2 hslot)
  have hbar : f.dev.bars slot ∈ memoryBars configured :=
    List.mem_filter.2 ⟨List.mem_flatMap.2 ⟨f, hf, hslots⟩, by rw [hpresent, htype]; rfl⟩
  have hmem {k : RegionKind} (hk : k ≠ .io)
      (hkind : (f.dev.bars slot).kind (s.pcie.select.ptr .prefetch).isSome = k) :
      ∃ k, k ≠ .io ∧ ∃ res, s.pcie.select.chosen k = some res ∧
        f.dev.bars slot ∈ ofKind (s.pcie.select.ptr .prefetch).isSome k f.dev.slots := by
    obtain ⟨res, hres, -⟩ := block_mem_arena hk ho.topology ho.bars (ho.regions.fits k)
      (ho.room k hk) h hbar hkind
    exact ⟨k, hk, res, hres, List.mem_filter.2 ⟨hslots, by
      rw [hpresent, hkind, decide_eq_true rfl]; rfl⟩⟩
  rcases kind_of_mem_memoryBars hbar (s.pcie.select.ptr .prefetch).isSome with hkind | hkind
  · exact hmem (by decide) hkind
  · exact hmem (by decide) hkind

/-! ## Windows -/

/-- A region that windows are opened for: where they are. -/
theorem window_bounds (ho : Orderly s.pcie functions)
    (h : enumerate functions s = .ok (bus, configured) s') {k : RegionKind} (hk : k ≠ .io)
    {res : PciRegion} (hres : s.pcie.select.chosen k = some res) {g : ConfiguredFunction}
    (hg : g ∈ configured.toList) (hsome : g.secondary.isSome) :
    windowStart k g.dev = res.arena.start ∧
      windowEnd k g.dev ≤ alignUp (max res.arena.start res.arena.limit) (2 ^ 20) := by
  have hspans := spans_of_enumerate ho h hk hres
  have hpos := positive_of_busSized
    (busSized_of_mem_machineRequests hk s.pcie ho.bars)
  have haligned := ho.windows.aligned k res hres
  have hlt : res.arena.start < 2 ^ 32 := (pciautoRegionInit res).busLower.isLt
  refine ⟨hspans.windowStart_eq (ho.registers k) hpos haligned hlt (ho.settled k hk) (fun _ => rfl) g hg hsome,
    ((hspans.beside (ho.registers k) hpos haligned (ho.settled k hk) fun _ => rfl).2 g hg hsome).trans ?_⟩
  have hmax := le_alignUp (Nat.two_pow_pos 20) (max res.arena.start res.arena.limit)
  refine res.arena.run_le ((le_max_right _ _).trans hmax) ((le_max_left _ _).trans hmax)
    (fun grain hgrain => ?_) ((le_max_left _ _).trans hmax)
  rcases mem_scanRequests hgrain with ⟨hw, -, hr⟩ | hr | hr
  · obtain ⟨size, use, hr⟩ := take_of_mem_deviceRequests hr
    cases hr
  · injection hr with hr
    rw [hr]
    exact dvd_alignUp _ _
  · cases hr

/-- A window that holds an address has a region. -/
theorem exists_region_of_window (ho : Orderly s.pcie functions)
    (h : enumerate functions s = .ok (bus, configured) s') {k : RegionKind} (hk : k ≠ .io)
    {g : ConfiguredFunction} (hg : g ∈ configured.toList) (hsome : g.secondary.isSome) {x : ℕ}
    (hwindow : windowStart k g.dev ≤ x ∧ x < windowEnd k g.dev) :
    ∃ res, s.pcie.select.chosen k = some res := by
  cases hres : s.pcie.select.chosen k with
  | some res => exact ⟨res, rfl⟩
  | none =>
    -- without a prefetchable region the prefetchable windows are closed
    cases k with
    | io => exact absurd rfl hk
    | mem => exact absurd hres ho.windows.mem
    | prefetch =>
      have hfacts := windowFacts_of_enumerate ho.topology ho.bars ho.regions.fits ho.room h
      obtain ⟨x, hx, hfact⟩ := hfacts.exists_mem hg
      have hbridge := hfact.bridge.1 ((isBridge_iff_of_enumerate ho h g hg).2 hsome)
      have hhw := Forest.mem_of_mem_withChildren hx
      have hclosed := hfact.closed hres hbridge (ho.registers .prefetch x.1 hhw hbridge)
        (ho.windows.upper hres x.1 (mem_of_mem_visible hhw) hbridge)
      omega

/-- Windows for one region hold no BAR that was taken from another. -/
theorem windows_cross (ho : Orderly s.pcie functions)
    (h : enumerate functions s = .ok (bus, configured) s') {k k' : RegionKind} (hk : k ≠ .io)
    (hk' : k' ≠ .io) (hne : k ≠ k') {g f : ConfiguredFunction} (hg : g ∈ configured.toList)
    (hf : f ∈ configured.toList) (hsome : g.secondary.isSome) {bar : PciBarInfo}
    (hbar : bar ∈ ofKind (s.pcie.select.ptr .prefetch).isSome k' f.dev.slots) {res' : PciRegion}
    (hres' : s.pcie.select.chosen k' = some res') {x : ℕ}
    (hwindow : windowStart k g.dev ≤ x ∧ x < windowEnd k g.dev) :
    ¬ (bar.busAddr.toNat ≤ x ∧ x < bar.busAddr.toNat + bar.size.toNat) := by
  obtain ⟨res, hres⟩ := exists_region_of_window ho h hk hg hsome hwindow
  obtain ⟨hstart, hend⟩ := window_bounds ho h hk hres hg hsome
  -- the BAR lies in its own region, behind the start
  have hpos := positive_of_busSized (busSized_of_mem_machineRequests hk' s.pcie ho.bars)
  obtain ⟨-, hlow, hhigh⟩ := res'.arena.blocks_subset hpos le_rfl _
    ((spans_of_enumerate ho h hk' hres').exists_block hf hbar)
  have hlow : res'.arena.start ≤ bar.busAddr.toNat := hlow
  have hhigh : bar.busAddr.toNat + bar.size.toNat ≤ res'.busStart.toNat + res'.size.toNat := hhigh
  have hdisjoint : res.Disjoint res' := by
    cases k with
    | io => exact absurd rfl hk
    | mem =>
      cases k' with
      | io => exact absurd rfl hk'
      | mem => exact absurd rfl hne
      | prefetch => exact ho.regions.disjoint res hres res' hres'
    | prefetch =>
      cases k' with
      | io => exact absurd rfl hk'
      | mem => exact (ho.regions.disjoint res' hres' res hres).symm
      | prefetch => exact absurd rfl hne
  have hbusStart := PciRegion.busStart_le_arena_start res
  have hbusStart' := PciRegion.busStart_le_arena_start res'
  have haligned := ho.windows.aligned k res hres
  have haligned' := ho.windows.aligned k' res' hres'
  have hlimit : res.arena.limit = res.busStart.toNat + res.size.toNat := rfl
  rintro ⟨hx, hx'⟩
  rcases hdisjoint with hbefore | hbehind
  · -- the windows end at a MiB, at or before the one the other region starts at
    have hclose : alignUp (max res.arena.start res.arena.limit) (2 ^ 20)
        ≤ max res.arena.start res'.arena.start := by
      refine alignUp_le (max_le_max le_rfl (by omega)) ?_
      rcases max_choice res.arena.start res'.arena.start with hmax | hmax <;> rw [hmax]
      · exact haligned
      · exact haligned'
    omega
  · omega

/-- **No window holds a BAR that is not behind its bridge.** -/
theorem windows_outside (ho : Orderly s.pcie functions)
    (h : enumerate functions s = .ok (bus, configured) s') :
    configured.Beside fun g f => g.secondary.isSome → ∀ slot < f.dev.barsNum, ∀ x,
      InMemoryWindow g.dev x → ¬ HoldsByte f.dev x slot := by
  set prefetch := (s.pcie.select.ptr .prefetch).isSome with hprefetch
  have hsame {k : RegionKind} (hk : k ≠ .io) : configured.Beside fun g f => g.secondary.isSome →
      ∀ bar ∈ ofKind prefetch k f.dev.slots, s.pcie.select.chosen k ≠ none →
        windowEnd k g.dev ≤ bar.busAddr.toNat := by
    cases hres : s.pcie.select.chosen k with
    | none => exact Forest.beside_of_forall fun _ _ _ _ _ _ _ hnone => absurd rfl hnone
    | some res =>
      exact ((spans_of_enumerate ho h hk hres).beside (ho.registers k)
        (positive_of_busSized (busSized_of_mem_machineRequests hk s.pcie ho.bars))
        (ho.windows.aligned k res hres) (ho.settled k hk) fun _ => rfl).1.imp
          fun g f hbeside hsome bar hbar _ => hbeside hsome bar hbar
  have hall : configured.Beside fun g f => g ∈ configured.toList ∧ f ∈ configured.toList :=
    Forest.beside_of_forall fun g hg f hf => ⟨hg, hf⟩
  refine ((hall.and (@hsame .mem (by decide))).and (@hsame .prefetch (by decide))).imp
    fun g f hboth hsome slot hslot x hwindow hholds => ?_
  obtain ⟨⟨⟨hg, hf⟩, hmem⟩, hpre⟩ := hboth
  obtain ⟨k, hk, hwindow⟩ := exists_kind_of_inMemoryWindow hwindow
  obtain ⟨k', hk', res', hres', hbar⟩ := exists_region_of_holdsByte ho h hf hslot hholds
  obtain ⟨-, -, hlow, hhigh⟩ := hholds
  by_cases hne : k = k'
  · subst hne
    have hchosen : s.pcie.select.chosen k ≠ none := by
      rw [hres']
      exact Option.some_ne_none res'
    have hend : windowEnd k g.dev ≤ (f.dev.bars slot).busAddr.toNat := by
      cases k with
      | io => exact absurd rfl hk
      | mem => exact hmem hsome _ hbar hchosen
      | prefetch => exact hpre hsome _ hbar hchosen
    omega
  · exact windows_cross ho h hk hk' hne hg hf hsome hbar hres' hwindow ⟨hlow, hhigh⟩

/-! ## Delivery -/

/-- The slots of a machine. -/
def slotsOf (configured : Forest ConfiguredFunction) : List (ConfiguredFunction × ℕ) :=
  configured.toList.flatMap fun f => (List.range f.dev.barsNum).map fun slot => (f, slot)

/-- If no address is in two memory BARs, an address in one of them is recorded there only. -/
theorem targets_recordedBytes (hapart : BarsApart configured) {f : ConfiguredFunction}
    (hf : f ∈ configured.toList) {slot x : ℕ} (hslot : slot < f.dev.barsNum)
    (hholds : HoldsByte f.dev x slot) :
    configured.targets (recordedBytes x) = [⟨f, slot, x - (f.dev.bars slot).busAddr.toNat⟩] := by
  set holds : ConfiguredFunction × ℕ → Bool := fun q => decide (HoldsByte q.1.dev x q.2) with hp
  have hbytes : configured.targets (recordedBytes x) = ((slotsOf configured).filter holds).map
      fun q => ⟨q.1, q.2, x - (q.1.dev.bars q.2).busAddr.toNat⟩ := by
    unfold Forest.targets slotsOf
    rw [List.filter_flatMap, List.map_flatMap]
    refine List.flatMap_congr fun g _ => ?_
    unfold recordedBytes
    rw [List.filter_map, List.map_map, ← List.filterMap_eq_map', List.filterMap_filter]
    refine List.filterMap_congr fun slot _ => ?_
    by_cases h : HoldsByte g.dev x slot <;> simp [hp, h]
  have hbars : memoryBars configured = ((slotsOf configured).map fun q => q.1.dev.bars q.2).filter
      fun bar => bar.present && decide (bar.type = .mem) := by
    unfold memoryBars slotsOf PciDevice.slots
    rw [List.map_flatMap]
    simp only [List.map_map, Function.comp_def]
  have hpairs : (slotsOf configured).Pairwise fun q r => ¬ (holds q = true ∧ holds r = true) := by
    unfold BarsApart at hapart
    rw [hbars, List.pairwise_filter, List.pairwise_map] at hapart
    refine hapart.imp fun {q r} hqr => ?_
    rintro ⟨hq, hr⟩
    obtain ⟨hq₁, hq₂, hq₃, hq₄⟩ := of_decide_eq_true hq
    obtain ⟨hr₁, hr₂, hr₃, hr₄⟩ := of_decide_eq_true hr
    have happ := hqr (by rw [hq₁, hq₂]; rfl) (by rw [hr₁, hr₂]; rfl)
    unfold Block.Apart PciBarInfo.block at happ
    dsimp only at happ
    omega
  have hmem : (f, slot) ∈ slotsOf configured :=
    List.mem_flatMap.2 ⟨f, hf, List.mem_map_of_mem (List.mem_range.2 hslot)⟩
  have hone : (slotsOf configured).filter holds = [(f, slot)] :=
    Forest.filter_eq_singleton hpairs hmem (decide_eq_true hholds)
  rw [hbytes, hone]
  rfl

section Conforming

variable {layout : ∀ f : ConfiguredFunction, BarLayout f.dev.barsNum}
  (ho : Orderly s.pcie functions) (h : enumerate functions s = .ok (bus, configured) s')
  (hconf : ∀ f ∈ configured.toList, ConformingFunction (layout f) f.dev)
  (hsmall : ∀ f ∈ configured.toList, SmallBars (layout f))
  (hplaced : ∀ f ∈ configured.toList, BarsPlaced (layout f) f.dev)

include ho h hconf hsmall hplaced

/-- The registers of a function answer what its BARs are recorded for. -/
theorem answers_of_enumerate {f : ConfiguredFunction} (hf : f ∈ configured.toList) (x : ℕ) :
    memoryAnswers layout x f = recordedBytes x f :=
  memoryAnswers_eq ((configured_of_enumerate ho.topology h f hf).view (hconf f hf)).toHeaderView
    (recordsSized_of_enumerate ho.topology h f hf _ _ (hconf f hf) (hsmall f hf)) (hplaced f hf) x

/-- A function that answers has a BAR with the address. -/
theorem exists_holdsByte_of_answers {f : ConfiguredFunction} (hf : f ∈ configured.toList) {x : ℕ}
    (hanswers : memoryAnswers layout x f ≠ []) : ∃ slot < f.dev.barsNum, HoldsByte f.dev x slot := by
  by_contra hempty
  push Not at hempty
  rw [answers_of_enumerate ho h hconf hsmall hplaced hf] at hanswers
  refine hanswers (List.filterMap_eq_nil_iff.2 fun slot hslot => ?_)
  exact if_neg (hempty slot (List.mem_range.1 hslot))

/-- A bridge takes over what is answered behind it. -/
theorem forwards_of_enumerate (x : ℕ) : configured.All fun g below =>
    below.targets (memoryAnswers layout x) ≠ [] → memoryForwards x g = true := by
  obtain ⟨res, hres⟩ := Option.ne_none_iff_exists'.1 ho.windows.mem
  have hcovered {k : RegionKind} (hk : k ≠ .io) := covers_of_enumerate ho h hk
  have hbelow := (spans_of_enumerate ho h (by decide) hres).below_eq_nil
  refine (((@hcovered .mem (by decide)).and (@hcovered .prefetch (by decide))).and
    (hbelow.and (Forest.all_subset configured))).imp fun g below hall htargets => ?_
  obtain ⟨⟨hmem, hprefetch⟩, hnone, hg, hsub⟩ := hall
  obtain ⟨f, hf, hanswers⟩ : ∃ f ∈ below.toList, memoryAnswers layout x f ≠ [] := by
    by_contra hempty
    push Not at hempty
    exact htargets (Forest.targets_eq_nil_iff.2 hempty)
  have hsome : g.secondary.isSome := by
    cases hsecondary : g.secondary with
    | some n => rfl
    | none =>
      rw [hnone hsecondary] at hf
      cases hf
  obtain ⟨slot, hslot, hholds⟩ :=
    exists_holdsByte_of_answers ho h hconf hsmall hplaced (hsub f hf) hanswers
  refine memoryForwards_iff.2 ⟨(isBridge_iff_of_enumerate ho h g hg).2 hsome,
    (canForward_of_enumerate ho h g hg hsome).1, ?_⟩
  -- the window for the region of the BAR holds it
  obtain ⟨k, hk, res', hres', hbar⟩ := exists_region_of_holdsByte ho h (hsub f hf) hslot hholds
  have hplacedBar : f.dev.bars slot ∈ placedBars (s.pcie.select.ptr .prefetch).isSome k below :=
    List.mem_flatMap.2 ⟨f, hf, hbar⟩
  have hchosen : s.pcie.select.chosen k ≠ none := by
    rw [hres']
    exact Option.some_ne_none res'
  have hwindow : windowStart k g.dev ≤ (f.dev.bars slot).busAddr.toNat ∧
      (f.dev.bars slot).busAddr.toNat + (f.dev.bars slot).size.toNat ≤ windowEnd k g.dev := by
    cases k with
    | io => exact absurd rfl hk
    | mem => exact hmem hchosen _ hplacedBar
    | prefetch => exact hprefetch hchosen _ hplacedBar
  obtain ⟨-, -, hlow, hhigh⟩ := hholds
  exact inMemoryWindow_of_kind hk ⟨hwindow.1.trans hlow, hhigh.trans_le hwindow.2⟩

/-- What a bridge takes over is not answered by the functions that are not behind it. -/
theorem silent_of_forwards (x : ℕ) : configured.Beside fun g f =>
    memoryForwards x g = true → memoryAnswers layout x f = [] := by
  refine ((windows_outside ho h).and
    (Forest.beside_of_forall fun g hg f hf => And.intro hg hf)).imp fun g f hboth hforwards => ?_
  obtain ⟨houtside, hg, hf⟩ := hboth
  obtain ⟨hbridge, -, hwindow⟩ := memoryForwards_iff.1 hforwards
  by_contra hanswers
  obtain ⟨slot, hslot, hholds⟩ := exists_holdsByte_of_answers ho h hconf hsmall hplaced hf hanswers
  exact houtside ((isBridge_iff_of_enumerate ho h g hg).1 hbridge) slot hslot x hwindow hholds

omit hplaced in
/-- A memory BAR is in one of the slots of its function. -/
theorem slot_lt_of_enumerate {f : ConfiguredFunction} (hf : f ∈ configured.toList) {slot : ℕ}
    (hpresent : (f.dev.bars slot).present = true) (htype : (f.dev.bars slot).type = .mem) :
    slot < f.dev.barsNum := by
  obtain ⟨b, hb, -⟩ :=
    (recordsSized_of_enumerate ho.topology h f hf _ _ (hconf f hf) (hsmall f hf)).size slot hpresent
      htype
  exact (layout f).lt hb

/-- A transaction to an address in a memory BAR comes to its byte. -/
theorem deliver_of_holdsByte {f : ConfiguredFunction} (hf : f ∈ configured.toList) {slot x : ℕ}
    (hholds : HoldsByte f.dev x slot) :
    configured.deliver (memoryAnswers layout x) (memoryForwards x)
      = .delivered ⟨f, slot, x - (f.dev.bars slot).busAddr.toNat⟩ := by
  have hslot := slot_lt_of_enumerate ho h hconf hsmall hf hholds.1 hholds.2.1
  refine Forest.deliver_eq_delivered (forwards_of_enumerate ho h hconf hsmall hplaced x)
    (silent_of_forwards ho h hconf hsmall hplaced x) ?_
  have hapart := barsApart_of_oneStretch ho.topology ho.bars ho.regions ho.room h
    fun k hk => (ho.settled k hk).oneStretch .bar
  rw [← targets_recordedBytes hapart hf hslot hholds]
  exact List.flatMap_congr fun g hg => answers_of_enumerate ho h hconf hsmall hplaced hg x

end Conforming

end Machine

/-! ## A machine of plain functions -/

/-- A memory BAR of 4 KiB. -/
def plainBar : Bar := ⟨.mem32 false, 12, Nat.le_of_ble_eq_true rfl, Nat.le_of_ble_eq_true rfl⟩

/-- The BARs of a function that has such a BAR in its first slot, unless it is a bridge. -/
def plainLayout (barsNum : ℕ) : BarLayout barsNum where
  bar slot := if slot = 0 ∧ barsNum = 6 then some plainBar else none
  lt {slot b} h := by
    split at h
    · omega
    · cases h
  upper {slot b} h h64 := by
    split at h
    · obtain rfl := Option.some.inj h
      cases h64
    · cases h

/-- A function with these BARs, all of them placed, and no capability for messages. -/
def Plain (dev : PciDevice) : Prop :=
  (dev.msi.capOffset = 0 ∧ dev.msi.maskable = false ∧ dev.msix.capOffset = 0) ∧
    (∀ slot < dev.barsNum, ∀ b ∈ (plainLayout dev.barsNum).bar slot,
      Implements dev.cfg slot b ∧ CanDecode dev b.decoder ∧ (dev.bars slot).present = true) ∧
    (∀ slot < dev.barsNum, (plainLayout dev.barsNum).bar slot = none → barResponse dev.cfg slot = 0) ∧
    (pciReadConfig16 dev pciClassDevice = pciClassBridgePci →
      dev.headerType = pciHeaderTypeBridge)

instance (dev : PciDevice) : Decidable (Plain dev) := by
  unfold Plain CanDecode
  infer_instance

namespace Plain

variable {dev : PciDevice}

/-- A plain function is conforming. -/
theorem conforming (h : Plain dev) : ConformingFunction (plainLayout dev.barsNum) dev := by
  obtain ⟨⟨hmsi, hmaskable, hmsix⟩, hbars, hempty, hbridge⟩ := h
  refine ⟨rfl, ⟨fun hb => (hbars _ ((plainLayout dev.barsNum).lt hb) _ hb).1,
    fun hlt hnone _ => hempty _ hlt hnone⟩,
    fun slot b hb => (hbars slot ((plainLayout dev.barsNum).lt hb) b hb).2.1,
    fun hcap => absurd hmsi hcap, fun hmask => ?_,
    ⟨fun hcap => absurd hmsi hcap, fun hcap => absurd hmsix hcap⟩,
    fun hclass => ⟨hbridge hclass, fun cfg _ _ _ => ⟨fun hcap => absurd hmsi hcap,
      fun hcap => absurd hmsix hcap⟩⟩⟩
  rw [hmaskable] at hmask
  cases hmask

/-- It has no BAR that could be left without an address. -/
theorem placed (h : Plain dev) : BarsPlaced (plainLayout dev.barsNum) dev :=
  fun slot b hb _ => (h.2.1 slot ((plainLayout dev.barsNum).lt hb) b hb).2.2

end Plain

/-- Nor one of 4 GiB or more. -/
theorem plainLayout_small (barsNum : ℕ) : SmallBars (plainLayout barsNum) := by
  intro slot b hb _
  have hb : (if slot = 0 ∧ barsNum = 6 then some plainBar else none) = some b := hb
  split at hb
  · obtain rfl := Option.some.inj hb
    decide
  · cases hb

/-- The bridges of the quiet machine can forward. -/
theorem quietMachine_forward : ∀ hw ∈ quietMachine.toList, hw.isBridge = true → CanForward hw.cfg := by
  unfold CanForward RegisterFile.Writable
  decide +kernel

/-- The quiet machine, where only the functions on the last bus take addresses. -/
theorem quietMachine_orderly : Orderly sampleEnum.pcie quietMachine where
  topology := quietMachine_topology
  bars := quietMachine_conforming
  bridges := quietMachine_bridges
  forward := quietMachine_forward
  regions := sampleEnum_sound
  windows := by
    refine ⟨by decide +kernel, fun k => ?_, fun _ => by decide +kernel⟩
    cases k <;> decide +kernel
  room := sampleEnum_exact quietMachine_conforming
  settled k _ := quietMachine_settled k

/-- The functions of the quiet machine are plain. -/
theorem quietMachine_plain {bus : PciBus} {configured : Forest ConfiguredFunction}
    {s' : EnumState Unit} (h : enumerate quietMachine sampleEnum = .ok (bus, configured) s') :
    ∀ f ∈ configured.toList, Plain f.dev := by
  have hall : ∀ f ∈ scannedFunctions (enumerate quietMachine sampleEnum), Plain f.dev := by
    decide +kernel
  rw [h] at hall
  exact hall

end BcmPcie
