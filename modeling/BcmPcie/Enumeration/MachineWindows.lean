import BcmPcie.Enumeration.WindowCover

/-! # The windows of a machine

The windows of bridges on one bus, and what a scan of a whole machine makes of all windows: each lies
in the region it is opened for, and is empty if nothing is asked for behind its bridge, so that
windows of one bus meet only if two bridges have something of one region behind them, or the regions
do.

* `Spans.windowSpan` — where a window is.
* `CoverCond` — what has to be so for the windows of a machine.
* `windows_of_enumerate` — what they hold, and when. -/

namespace BcmPcie

open Bump Runs

variable {σ : Type}

section Spans

variable {k : RegionKind} {prefetch : Bool} {a : Arena} {p : ℕ} {functions : Forest HwFunction}
  {configured : Forest ConfiguredFunction}

/-! ## The windows on one bus -/

/-- Where the window of a bridge is, given what is behind it. -/
structure WindowSpan (k : RegionKind) (prefetch : Bool) (a : Arena)
    (x : HwFunction × Forest HwFunction) (f : ConfiguredFunction) : Prop where
  empty : ¬ Asks k prefetch x.2 → windowEnd k f.dev ≤ windowStart k f.dev
  start : alignUp a.start (2 ^ 20) ≤ windowStart k f.dev
  ends : windowEnd k f.dev ≤ alignUp (max a.start a.limit) (2 ^ 20)

/-- A window of one region ends before one of a region further up starts, or is empty. -/
theorem WindowSpan.before {x : HwFunction × Forest HwFunction} {f : ConfiguredFunction} {start w : ℕ}
    (h : WindowSpan k prefetch a x f) (hle : a.limit ≤ start) (hw : alignUp start (2 ^ 20) ≤ w) :
    windowEnd k f.dev ≤ windowStart k f.dev ∨ windowEnd k f.dev ≤ w := by
  have hends := h.ends
  rcases le_total a.limit a.start with hnone | hroom
  · rw [max_eq_left hnone] at hends
    exact Or.inl (hends.trans h.start)
  · rw [max_eq_right hroom] at hends
    exact Or.inr ((hends.trans (alignUp_mono (Nat.two_pow_pos 20) hle)).trans hw)

/-- A pointer that starts in a region stays below where the last window of the region can end. -/
theorem run_le_alignUp_limit (hgrain : ∀ g, .round g ∈ scanRequests k prefetch functions → g = 2 ^ 20) :
    a.run a.start (scanRequests k prefetch functions) ≤ alignUp (max a.start a.limit) (2 ^ 20) := by
  have hmax := le_alignUp (Nat.two_pow_pos 20) (max a.start a.limit)
  exact a.run_le ((le_max_right _ _).trans hmax) ((le_max_left _ _).trans hmax)
    (fun g hg => hgrain g hg ▸ dvd_alignUp _ _) ((le_max_left _ _).trans hmax)

/-- **Every window lies in its region**, and is empty if nothing is asked for behind its bridge. -/
theorem Spans.windowSpan (h : Spans k prefetch a p functions configured)
    (hpos : Arena.Positive (scanRequests k prefetch functions))
    (hround : EveryStep a.step (Arena.RoundsBelow (2 ^ 32)) p (scanRequests k prefetch functions))
    (hp : a.start ≤ p) :
    functions.withChildren.Matches (fun x f => x.1.isBridge = true → WindowRegisters x.1.cfg k →
      WindowSpan k prefetch a x f) configured := by
  induction h with
  | nil => exact .nil
  | @leaf p hw siblings f rest hclass hnone hbars hrest ih =>
    rw [scanRequests_leaf hclass] at hpos hround
    refine .node (fun hbridge => ?_) .nil (ih (fun r hr => hpos r (List.mem_append_right _ hr))
      ((everyStep_append _ _ _).1 hround).2
      (a.start_le_run (fun r hr => hpos r (List.mem_append_left _ hr)) hp))
    rw [hclass] at hbridge
    cases hbridge
  | @bridge p hw children siblings f below rest hclass hsome hbars hopen hclose hbelow hrest ihb ihr =>
    have hmem {r : Request BlockUse} := @mem_scanRequests_bridge k prefetch hw children siblings hclass r
    obtain ⟨hroundOpen, hroundBelow, hroundRest⟩ := everyStep_scanRequests_bridge hclass hround
    have hposBelow : Arena.Positive (scanRequests k prefetch children) := fun r hr =>
      hpos r (hmem (Or.inr (Or.inl hr)))
    have hgrains : ∀ g, .round g ∈ scanRequests k prefetch children → g = 2 ^ 20 := fun g hg =>
      grain_of_mem_scanRequests hg
    have hopenLe : alignUp a.start (2 ^ 20)
        ≤ alignUp (a.run p (hw.requests k prefetch)) (2 ^ 20) :=
      alignUp_mono (Nat.two_pow_pos 20) (a.start_le_run (fun r hr => hpos r (hmem (Or.inl hr))) hp)
    refine .node (fun _ hregisters => ?_) (ihb hposBelow hroundBelow le_rfl)
      (ihr (fun r hr => hpos r (hmem (Or.inr (Or.inr hr)))) hroundRest
        ((a.start_le_run hposBelow le_rfl).trans (le_alignUp (Nat.two_pow_pos 20) _)))
    have hstart := hopen hregisters
    rw [Nat.mod_eq_of_lt hroundOpen] at hstart
    refine ⟨fun hnone => ?_, hopenLe.trans hstart.ge, ?_⟩
    · -- without anything taken the pointer behind the bus is where rounding has left it
      have htaken : run Arena.taken false (scanRequests k prefetch children) = false := by
        by_contra htaken
        rcases Arena.take_mem_of_taken (Bool.eq_true_of_not_eq_false htaken) with hfalse | hasks
        · cases hfalse
        · exact hnone hasks
      rw [hstart, hclose hregisters, alignUp_run_of_not_taken hgrains (fun _ => Or.inl rfl) htaken]
      exact hopenLe
    · rw [hclose hregisters]
      exact alignUp_le (run_le_alignUp_limit hgrains) (dvd_alignUp _ _)

/-- A window that holds BARs behind its bridge reaches over the start of the region, where that suits
everything asked for. -/
theorem Spans.overStart (h : Spans k prefetch a p functions configured)
    (hpos : Arena.Positive (scanRequests k prefetch functions))
    (hnat : a.Natural (scanRequests k prefetch functions))
    (hbars : ∀ size use, .take size use ∈ scanRequests k prefetch functions → use = .bar)
    (hcovered : Covered prefetch k configured) :
    functions.withChildren.Matches (fun x f => x.1.isBridge = true → AsksBar k prefetch x.2 →
      windowStart k f.dev ≤ a.start ∧ a.start < windowEnd k f.dev) configured := by
  induction h with
  | nil => exact .nil
  | @leaf p hw siblings f rest hclass hnone hbars' hrest ih =>
    rw [scanRequests_leaf hclass] at hpos hnat hbars
    refine .node (fun hbridge => ?_) .nil (ih (fun r hr => hpos r (List.mem_append_right _ hr))
      (fun r hr => hnat r (List.mem_append_right _ hr))
      (fun size use hr => hbars size use (List.mem_append_right _ hr)) hcovered.2.2)
    rw [hclass] at hbridge
    cases hbridge
  | @bridge p hw children siblings f below rest hclass hsome hbars' hopen hclose hbelow hrest ihb ihr =>
    have hmem {r : Request BlockUse} := @mem_scanRequests_bridge k prefetch hw children siblings hclass r
    have hposBelow : Arena.Positive (scanRequests k prefetch children) := fun r hr =>
      hpos r (hmem (Or.inr (Or.inl hr)))
    have hnatBelow : a.Natural (scanRequests k prefetch children) := fun r hr =>
      hnat r (hmem (Or.inr (Or.inl hr)))
    have hbarsBelow : ∀ size use, .take size use ∈ scanRequests k prefetch children → use = .bar :=
      fun size use hr => hbars size use (hmem (Or.inr (Or.inl hr)))
    refine .node (fun _ hasks => ?_) (ihb hposBelow hnatBelow hbarsBelow hcovered.2.1)
      (ihr (fun r hr => hpos r (hmem (Or.inr (Or.inr hr))))
        (fun r hr => hnat r (hmem (Or.inr (Or.inr hr))))
        (fun size use hr => hbars size use (hmem (Or.inr (Or.inr hr)))) hcovered.2.2)
    obtain ⟨bar, hbar, haddr, hsize⟩ := hbelow.exists_bar_at_start hposBelow hnatBelow hbarsBelow hasks
    obtain ⟨hlow, hhigh⟩ := hcovered.1 bar hbar
    omega

end Spans

/-! ## Without a prefetchable region -/

/-- Header types have two, six or no BARs. -/
theorem headerBars_mem (headerType : ℕ) : headerBars headerType ∈ [6, 2, 0] := by
  unfold headerBars
  split
  · exact List.mem_cons_self
  · split <;> decide

/-- Without a prefetchable region a bridge that implements its prefetchable window has it closed, if the
upper halves of the registers read 0. -/
theorem Scan.windowsClosed {b last last' : ℕ} {bridges : List PciDevice}
    {pcie pcie' : PciController σ} {functions : Forest HwFunction}
    {configured : Forest ConfiguredFunction}
    (h : Scan b bridges pcie last functions configured pcie' last')
    (hconf : ∀ hw ∈ functions.toList,
      ConformingBars hw.cfg hw.headerType (headerBars hw.headerType))
    (hsel : pcie.Selected) (hnone : pcie.ptr .prefetch = none) :
    functions.Matches (fun hw f => hw.isBridge = true → WindowRegisters hw.cfg .prefetch →
      (∀ r ∈ [pciPrefBaseUpper32, pciPrefLimitUpper32], hw.cfg.read 32 r = 0) →
        windowEnd .prefetch f.dev ≤ windowStart .prefetch f.dev) configured := by
  -- on the scan: the choice of the regions never changes, so no bridge sees a prefetchable one
  induction h with
  | nil => exact .nil
  | leaf hclass hsetup _ ih =>
    have hsame := sameChoice_setup hsel hsetup
    refine .node (fun hbridge => ?_) .nil (ih (fun g hg => hconf g (List.mem_cons_of_mem _ hg))
      hsame.selected ((hsame.ptr _).trans hnone))
    rw [hclass] at hbridge
    cases hbridge
  | @bridge b bridges pcie last hw children siblings below rest pcie₁ dev pcie₂ lastSub pcie' last'
      hclass hsetup hscan _ ihb ihr =>
    have hsame₁ := sameChoice_setup hsel hsetup
    have hnext := sameChoice_nextBus hsame₁.selected
    have hsame₂ := hsame₁.trans (sameChoice_into hsame₁.selected)
    have hsame₃ := hsame₂.trans (hscan.sameChoice hsame₂.selected)
    have hsame₄ := hsame₃.trans ((onlyRegions_alignWindows pcie₂).sameChoice hsame₃.selected)
    refine .node (fun _ hregisters hupper => ?_)
      (ihb (fun g hg => hconf g (List.mem_cons_of_mem _ (List.mem_append_left _ hg)))
        hsame₂.selected ((hsame₂.ptr _).trans hnone))
      (ihr (fun g hg => hconf g (List.mem_cons_of_mem _ (List.mem_append_right _ hg)))
        hsame₄.selected ((hsame₄.ptr _).trans hnone))
    -- the registers of the upper halves are untouched by the set-up of the bridge
    have hupper' : ∀ r ∈ [pciPrefBaseUpper32, pciPrefLimitUpper32],
        pciReadConfig32 ({ dev with activated := true } : PciDevice) r = 0 := by
      intro r hr
      have hap : ∀ n ∈ [6, 2, 0], ∀ r ∈ [pciPrefBaseUpper32, pciPrefLimitUpper32],
          ∀ range ∈ setupRanges n, RegisterFile.Apart (8 * range.2) range.1 32 r := by decide
      exact (setup_read hsetup (hconf hw List.mem_cons_self)
          (hap _ (headerBars_mem hw.headerType) r hr)).trans
        ((pciReadConfig_record hw b (by rcases List.mem_pair.1 hr with rfl | rfl <;> decide)).trans
          (hupper r hr))
    obtain ⟨hopen, hclose⟩ := @scanned_prefetchClosed _ pcie₁.nextBus pcie₂
      pcie₁.nextBus.busNumberLast lastSub hw.link { dev with activated := true }
      (chosen_eq_none_of_ptr (((hsame₁.trans hnext).ptr _).trans hnone)) hnext.selected
      (chosen_eq_none_of_ptr ((hsame₃.ptr _).trans hnone)) hsame₃.selected
      (windowRegisters_setup hsetup hregisters) hupper'
    show prefetchEnd _ ≤ prefetchBase _
    rw [hopen, hclose]
    decide

/-! ## What windows should be -/

/-- Every memory BAR behind a bridge, at any depth, lies in the window of the bridge for the region it
was taken from. -/
def InWindows (prefetch : Bool) (configured : Forest ConfiguredFunction) : Prop :=
  configured.All fun f below => f.IsBridge → ∀ bar ∈ memoryBars below,
    windowStart (bar.kind prefetch) f.dev ≤ bar.busAddr.toNat ∧
      bar.busAddr.toNat + bar.size.toNat ≤ windowEnd (bar.kind prefetch) f.dev

instance (prefetch : Bool) (configured : Forest ConfiguredFunction) :
    Decidable (InWindows prefetch configured) :=
  Forest.decidableAll _ configured

/-- The windows of any two bridges on one bus are disjoint, or one of them is empty; of two windows that
are not there nothing is said. -/
def WindowsApart (functions : List ConfiguredFunction) : Prop :=
  functions.Pairwise fun f g => f.IsBridge → g.IsBridge → ∀ k k', k ≠ .io → k' ≠ .io →
    ¬ (NoWindow f.dev.cfg k ∧ NoWindow g.dev.cfg k') →
    windowEnd k f.dev ≤ windowStart k f.dev ∨ windowEnd k' g.dev ≤ windowStart k' g.dev ∨
      windowEnd k f.dev ≤ windowStart k' g.dev ∨ windowEnd k' g.dev ≤ windowStart k f.dev

/-! ## When they are -/

/-- No window of the machine is rounded up past the end of the bus. -/
def RoundsExact (k : RegionKind) (pcie : PciController σ) (functions : Forest HwFunction) : Prop :=
  EveryStep (machineArena k pcie).step (Arena.RoundsBelow (2 ^ 32)) (machineArena k pcie).start
    (machineRequests k pcie functions)

/-- Two bridges, with what is behind them, can stand on one bus: they implement the windows they have,
there is a region of memory, the prefetchable windows are open or can be closed, no window is rounded up past the
end of the bus, and they do not have something of one region behind them, nor of regions that meet. -/
structure SideBySide (pcie : PciController σ) (functions : Forest HwFunction)
    (x y : HwFunction × Forest HwFunction) : Prop where
  registers : ∀ k, k ≠ .io → ∀ hw ∈ [x.1, y.1], WindowRegisters hw.cfg k ∨ NoWindow hw.cfg k
  mem : pcie.select.chosen .mem ≠ none
  upper : pcie.select.chosen .prefetch = none → ∀ hw ∈ [x.1, y.1],
    ∀ r ∈ [pciPrefBaseUpper32, pciPrefLimitUpper32], hw.cfg.read 32 r = 0
  rounds : ∀ k, k ≠ .io → RoundsExact k pcie functions
  alone : ∀ k, k ≠ .io → ¬ (Asks k (pcie.select.ptr .prefetch).isSome x.2 ∧
    Asks k (pcie.select.ptr .prefetch).isSome y.2)
  regions : ∀ k k', k ≠ .io → k' ≠ .io → k ≠ k' → Asks k (pcie.select.ptr .prefetch).isSome x.2 →
    Asks k' (pcie.select.ptr .prefetch).isSome y.2 →
      (machineArena k pcie).limit ≤ (machineArena k' pcie).start ∨
        (machineArena k' pcie).limit ≤ (machineArena k pcie).start

/-- What has to be so for the windows of a machine: for the regions that there are, windows are opened
clean, and bridges with BARs behind them are as they should be; and two bridges on one bus can stand
there. -/
structure CoverCond (pcie : PciController σ) (functions : Forest HwFunction) : Prop where
  opens : ∀ k, k ≠ .io → pcie.select.chosen k ≠ none →
    OpensClean k (pcie.select.ptr .prefetch).isSome false (visible functions)
  holds : ∀ k, k ≠ .io → pcie.select.chosen k ≠ none →
    (visible functions).All fun hw children => hw.isBridge = true →
      AsksBar k (pcie.select.ptr .prefetch).isSome children →
        BridgeHolds k (pcie.select.ptr .prefetch).isSome (machineArena k pcie).start hw children
  beside : (visible functions).withChildren.OnLevels fun x y =>
    x.1.isBridge = true → y.1.isBridge = true → SideBySide pcie functions x y

section Machine

variable {functions : Forest HwFunction} {bus : PciBus} {configured : Forest ConfiguredFunction}
  {s s' : EnumState σ}

/-- The BARs and windows for a region that there is. -/
theorem machine_spans {k : RegionKind} (hk : k ≠ .io) (htopology : Topology functions)
    (hconf : ∀ hw ∈ functions.toList,
      ConformingBars hw.cfg hw.headerType (headerBars hw.headerType))
    (hfits : ∀ res ∈ s.pcie.select.chosen k, res.Fits) (hexact : RoomExactAlong k s.pcie functions)
    (h : enumerate functions s = .ok (bus, configured) s') (hsome : s.pcie.select.chosen k ≠ none) :
    Spans k (s.pcie.select.ptr .prefetch).isSome (machineArena k s.pcie) (machineArena k s.pcie).start
      (visible functions) configured := by
  obtain ⟨res, hres⟩ := Option.ne_none_iff_exists'.1 hsome
  obtain ⟨hsel, hptr, -⟩ := pciautoConfigInit_spec s.pcie
  have hat := regionAt_pciautoConfigInit s.pcie k hfits
  unfold RoomExactAlong at hexact
  unfold machineArena at hexact ⊢
  rw [hres] at hat hexact ⊢
  exact (scan_of_enumerate htopology h).spans hk
    (fun hw hhw => hconf hw ((toList_visibleAmong _ _).subset hhw)) hsel (by rw [hptr]) hat hexact

/-- The requests of the functions that are found are positive. -/
theorem positive_machineRequests {k : RegionKind} (hk : k ≠ .io)
    (hconf : ∀ hw ∈ functions.toList,
      ConformingBars hw.cfg hw.headerType (headerBars hw.headerType)) :
    Arena.Positive (machineRequests k s.pcie functions) :=
  positive_of_busSized (busSized_of_mem_machineRequests hk s.pcie hconf)

/-- BARs behind a bridge are BARs of the machine. -/
theorem memoryBars_below : configured.All fun _ below => ∀ bar ∈ memoryBars below,
    bar ∈ memoryBars configured :=
  (Forest.all_subset configured).imp fun f below hsubset bar hbar => by
    obtain ⟨hmem, hpresent⟩ := List.mem_filter.1 hbar
    obtain ⟨g, hg, hslot⟩ := List.mem_flatMap.1 hmem
    exact List.mem_filter.2 ⟨List.mem_flatMap.2 ⟨g, hsubset.2 g hg, hslot⟩, hpresent⟩

/-- Windows that cover what was taken from their regions hold all memory BARs. -/
theorem inWindows_of_covered (htopology : Topology functions)
    (hconf : ∀ hw ∈ functions.toList,
      ConformingBars hw.cfg hw.headerType (headerBars hw.headerType))
    (hfits : ∀ k, ∀ res ∈ s.pcie.select.chosen k, res.Fits)
    (hexact : ∀ k, k ≠ .io → RoomExactAlong k s.pcie functions)
    (h : enumerate functions s = .ok (bus, configured) s')
    (hcovered : ∀ k, k ≠ .io → s.pcie.select.chosen k ≠ none →
      Covered (s.pcie.select.ptr .prefetch).isSome k configured) :
    InWindows (s.pcie.select.ptr .prefetch).isSome configured := by
  set prefetch := (s.pcie.select.ptr .prefetch).isSome with hprefetch
  -- a BAR that is there was taken from a region that is there
  have hof {k : RegionKind} (hk : k ≠ .io) : configured.All fun f below => ∀ bar ∈ memoryBars below,
      bar.kind prefetch = k → windowStart k f.dev ≤ bar.busAddr.toNat ∧
        bar.busAddr.toNat + bar.size.toNat ≤ windowEnd k f.dev := by
    by_cases hsome : s.pcie.select.chosen k = none
    · refine memoryBars_below.imp fun f below hsub bar hbar hkind => ?_
      obtain ⟨res, hres, -⟩ := block_mem_arena hk htopology hconf (hfits k) (hexact k hk) h
        (hsub bar hbar) hkind
      rw [hsome] at hres
      cases hres
    · refine (hcovered k hk hsome).imp fun f below hcover bar hbar hkind => hcover bar ?_
      rw [placedBars_eq_filter hk]
      exact List.mem_filter.2 ⟨hbar, decide_eq_true hkind⟩
  refine ((@hof .mem (by decide)).and (@hof .prefetch (by decide))).imp
    fun f below hboth _ bar hbar => ?_
  rcases kind_of_mem_memoryBars hbar prefetch with hkind | hkind
  · rw [hkind]
    exact hboth.1 bar hbar hkind
  · rw [hkind]
    exact hboth.2 bar hbar hkind

/-- And only then. -/
theorem covered_of_inWindows (htopology : Topology functions)
    (h : enumerate functions s = .ok (bus, configured) s') {k : RegionKind} (hk : k ≠ .io)
    {a : Arena} {p : ℕ} (hspans : Spans k (s.pcie.select.ptr .prefetch).isSome a p (visible functions)
      configured)
    (hin : InWindows (s.pcie.select.ptr .prefetch).isSome configured) :
    Covered (s.pcie.select.ptr .prefetch).isSome k configured := by
  refine ((hin.and hspans.below_eq_nil).and (Forest.all_subset configured)).imp
    fun f below hall bar hbar => ?_
  obtain ⟨⟨hinside, hnil⟩, hf, -⟩ := hall
  rw [placedBars_eq_filter hk] at hbar
  obtain ⟨hmem, hkind⟩ := List.mem_filter.1 hbar
  -- a function with BARs behind it is a bridge
  have hsome : f.secondary.isSome := by
    cases hsecondary : f.secondary with
    | some numbers => rfl
    | none =>
      rw [hnil hsecondary] at hmem
      cases hmem
  have hcovers := hinside (((scan_of_enumerate htopology h).isBridge_iff f hf).2 hsome) bar hmem
  rwa [of_decide_eq_true hkind] at hcovers

/-- **Machines that settle.** If nothing is taken before a pointer is set back, the region starts where
a window can and the bridges implement their windows, then all is as it has to be for one region. -/
theorem opens_and_holds_of_settled {k : RegionKind} (hk : k ≠ .io) {prefetch : Bool} {a : Arena} {p : ℕ}
    (hspans : Spans k prefetch a p functions configured)
    (hconf : ∀ hw ∈ functions.toList,
      ConformingBars hw.cfg hw.headerType (headerBars hw.headerType))
    (hregisters : ∀ hw ∈ functions.toList, hw.isBridge = true → WindowRegisters hw.cfg k)
    (haligned : 2 ^ 20 ∣ a.start) (hsettled : Arena.Settled (scanRequests k prefetch functions)) :
    OpensClean k prefetch false functions ∧
      functions.All fun hw children => hw.isBridge = true → AsksBar k prefetch children →
        BridgeHolds k prefetch a.start hw children := by
  obtain ⟨hopens, hbelow⟩ := hspans.of_settled hsettled fun hfalse => absurd hfalse Bool.false_ne_true
  refine ⟨hopens, (hbelow.and (Forest.all_subset functions)).imp fun hw children hall hbridge _ => ?_⟩
  obtain ⟨hsettledBelow, hmem, hsub⟩ := hall
  refine ⟨hregisters hw hmem hbridge, hsettledBelow hbridge, fun size htake => ?_⟩
  have hsized := busSized_of_mem_scanRequests hk (fun g hg => hconf g (hsub g hg)) _ htake
  obtain ⟨n, -, rfl⟩ := hsized
  exact reaches_of_dvd haligned (Nat.two_pow_pos n)

/-- What a scan makes of the windows of a bridge. -/
structure WindowFacts (pcie : PciController σ) (functions : Forest HwFunction)
    (x : HwFunction × Forest HwFunction) (f : ConfiguredFunction) : Prop where
  bridge : f.IsBridge ↔ x.1.isBridge = true
  device : x.1.cfg.SameDevice f.dev.cfg
  span : ∀ k, k ≠ .io → pcie.select.chosen k ≠ none → RoundsExact k pcie functions →
    x.1.isBridge = true → WindowRegisters x.1.cfg k →
      WindowSpan k (pcie.select.ptr .prefetch).isSome (machineArena k pcie) x f
  closed : pcie.select.chosen .prefetch = none → x.1.isBridge = true →
    WindowRegisters x.1.cfg .prefetch →
      (∀ r ∈ [pciPrefBaseUpper32, pciPrefLimitUpper32], x.1.cfg.read 32 r = 0) →
        windowEnd .prefetch f.dev ≤ windowStart .prefetch f.dev

/-- A scan makes this of all windows. -/
theorem windowFacts_of_enumerate (htopology : Topology functions)
    (hconf : ∀ hw ∈ functions.toList,
      ConformingBars hw.cfg hw.headerType (headerBars hw.headerType))
    (hfits : ∀ k, ∀ res ∈ s.pcie.select.chosen k, res.Fits)
    (hexact : ∀ k, k ≠ .io → RoomExactAlong k s.pcie functions)
    (h : enumerate functions s = .ok (bus, configured) s') :
    (visible functions).withChildren.Matches (WindowFacts s.pcie functions) configured := by
  have hscan := scan_of_enumerate htopology h
  obtain ⟨hsel, hptr, -⟩ := pciautoConfigInit_spec s.pcie
  have hshape := hscan.configures.withChildren
  have hspan {k : RegionKind} (hk : k ≠ .io) : (visible functions).withChildren.Matches (fun x f =>
      s.pcie.select.chosen k ≠ none → RoundsExact k s.pcie functions → x.1.isBridge = true →
        WindowRegisters x.1.cfg k →
          WindowSpan k (s.pcie.select.ptr .prefetch).isSome (machineArena k s.pcie) x f) configured := by
    by_cases hused : s.pcie.select.chosen k ≠ none ∧ RoundsExact k s.pcie functions
    · exact ((machine_spans hk htopology hconf (hfits k) (hexact k hk) h hused.1).windowSpan
        (positive_machineRequests hk hconf) hused.2 le_rfl).imp fun _ _ hspan _ _ => hspan
    · exact hshape.imp fun _ _ _ hsome hrounds => absurd ⟨hsome, hrounds⟩ hused
  have hclosed : (visible functions).withChildren.Matches (fun x f =>
      s.pcie.select.chosen .prefetch = none → x.1.isBridge = true → WindowRegisters x.1.cfg .prefetch →
        (∀ r ∈ [pciPrefBaseUpper32, pciPrefLimitUpper32], x.1.cfg.read 32 r = 0) →
          windowEnd .prefetch f.dev ≤ windowStart .prefetch f.dev) configured := by
    by_cases hnone : s.pcie.select.chosen .prefetch = none
    · refine (hscan.windowsClosed (fun hw hhw => hconf hw ((toList_visibleAmong _ _).subset hhw)) hsel
        ?_).withChildren.imp fun _ _ hclosed _ => hclosed
      rw [hptr]
      exact ptr_eq_none_of_chosen (selected_select s.pcie) hnone
    · exact hshape.imp fun _ _ _ hnone' => absurd hnone' hnone
  refine (((hshape.and (@hspan .mem (by decide))).and (@hspan .prefetch (by decide))).and hclosed).imp
    fun x f hall => ?_
  obtain ⟨⟨⟨hconfigures, hmem⟩, hpre⟩, hclosed⟩ := hall
  refine ⟨hconfigures.bridge, hconfigures.device, fun k hk => ?_, hclosed⟩
  cases k with
  | io => exact absurd rfl hk
  | mem => exact hmem
  | prefetch => exact hpre

/-- A window that is there is empty or starts above one that is not. -/
theorem NoWindow.before {dev : PciDevice} {k k' : RegionKind} (h : NoWindow dev.cfg k)
    {x : HwFunction × Forest HwFunction} {f : ConfiguredFunction} {prefetch : Bool} {pcie : PciController σ}
    (hspan : WindowSpan k' prefetch (machineArena k' pcie) x f) :
    windowEnd k dev ≤ windowStart k' f.dev := by
  obtain ⟨rfl, -⟩ := id h
  have hpos : 0 < (machineArena k' pcie).start := pos_regionArena_start _
  have hgrain : 2 ^ 20 ≤ alignUp (machineArena k' pcie).start (2 ^ 20) :=
    Nat.le_of_dvd (hpos.trans_le (le_alignUp (Nat.two_pow_pos 20) _)) (dvd_alignUp _ _)
  exact h.prefetchEnd_eq.le.trans (hgrain.trans hspan.start)

/-- Windows of two bridges that can stand on one bus do not meet. -/
theorem SideBySide.apart {x y : HwFunction × Forest HwFunction} {f g : ConfiguredFunction}
    {pcie : PciController σ} (h : SideBySide pcie functions x y)
    (hf : WindowFacts pcie functions x f) (hg : WindowFacts pcie functions y g)
    (hx : x.1.isBridge = true) (hy : y.1.isBridge = true) {k k' : RegionKind} (hk : k ≠ .io)
    (hk' : k' ≠ .io) (hthere : ¬ (NoWindow f.dev.cfg k ∧ NoWindow g.dev.cfg k')) :
    windowEnd k f.dev ≤ windowStart k f.dev ∨ windowEnd k' g.dev ≤ windowStart k' g.dev ∨
      windowEnd k f.dev ≤ windowStart k' g.dev ∨ windowEnd k' g.dev ≤ windowStart k f.dev := by
  -- a window is not there, or closed, or it is that of a region
  have hwindow {z : HwFunction × Forest HwFunction} {e : ConfiguredFunction}
      (he : WindowFacts pcie functions z e) (hz : z.1.isBridge = true) (hmem : z.1 ∈ [x.1, y.1])
      {k : RegionKind} (hk : k ≠ .io) :
      NoWindow e.dev.cfg k ∨ windowEnd k e.dev ≤ windowStart k e.dev ∨
        WindowSpan k (pcie.select.ptr .prefetch).isSome (machineArena k pcie) z e := by
    rcases h.registers k hk z.1 hmem with hregisters | hnone
    · by_cases hsome : pcie.select.chosen k = none
      · cases k with
        | io => exact absurd rfl hk
        | mem => exact absurd hsome h.mem
        | prefetch =>
          exact Or.inr (Or.inl (he.closed hsome hz hregisters (h.upper hsome z.1 hmem)))
      · exact Or.inr (Or.inr (he.span k hk hsome (h.rounds k hk) hz hregisters))
    · exact Or.inl (hnone.of_sameDevice he.device)
  obtain hnone | hempty | hspan := hwindow hf hx List.mem_cons_self hk
  · obtain hnone' | hempty' | hspan' := hwindow hg hy (List.mem_cons_of_mem _ List.mem_cons_self) hk'
    · exact absurd ⟨hnone, hnone'⟩ hthere
    · exact Or.inr (Or.inl hempty')
    · exact Or.inr (Or.inr (Or.inl (hnone.before hspan')))
  · exact Or.inl hempty
  obtain hnone' | hempty' | hspan' := hwindow hg hy (List.mem_cons_of_mem _ List.mem_cons_self) hk'
  · exact Or.inr (Or.inr (Or.inr (hnone'.before hspan)))
  · exact Or.inr (Or.inl hempty')
  by_cases hasks : Asks k (pcie.select.ptr .prefetch).isSome x.2
  swap
  · exact Or.inl (hspan.empty hasks)
  by_cases hasks' : Asks k' (pcie.select.ptr .prefetch).isSome y.2
  swap
  · exact Or.inr (Or.inl (hspan'.empty hasks'))
  have hne : k ≠ k' := by
    rintro rfl
    exact h.alone k hk ⟨hasks, hasks'⟩
  rcases h.regions k k' hk hk' hne hasks hasks' with hle | hle
  · rcases hspan.before hle hspan'.start with hempty | hbefore
    · exact Or.inl hempty
    · exact Or.inr (Or.inr (Or.inl hbefore))
  · rcases hspan'.before hle hspan.start with hempty | hbefore
    · exact Or.inr (Or.inl hempty)
    · exact Or.inr (Or.inr (Or.inr hbefore))

end Machine

/-! ## Two machines -/

/-- The bridges of the quiet machine implement their windows. -/
theorem quietMachine_bridges : ∀ hw ∈ quietMachine.toList, hw.isBridge = true →
    ConformingBridge hw.cfg := by
  have hall : ∀ hw ∈ quietMachine.toList, hw.isBridge = true →
      (∀ r ∈ [pciMemoryBase, pciMemoryLimit, pciPrefMemoryBase, pciPrefMemoryLimit],
        hw.cfg.Writable 16 r 0xfff0#16) ∧
      ∀ r ∈ [pciPrefBaseUpper32, pciPrefLimitUpper32], hw.cfg.response 32 r 0 = 0 := by
    unfold RegisterFile.Writable
    decide +kernel
  exact fun hw hhw hbridge => ⟨(hall hw hhw hbridge).1, (hall hw hhw hbridge).2⟩

/-- The quiet machine meets the condition: only the functions on its last bus take addresses, and there
is one bridge on a bus. -/
theorem quietMachine_coverCond : CoverCond sampleEnum.pcie quietMachine := by
  obtain ⟨bus, configured, s', hok⟩ := quietMachine_ok
  have hsub : ∀ hw ∈ (visible quietMachine).toList, hw ∈ quietMachine.toList :=
    fun hw hhw => (toList_visibleAmong _ _).subset hhw
  have haligned : ∀ k, 2 ^ 20 ∣ (machineArena k sampleEnum.pcie).start ∨
      sampleEnum.pcie.select.chosen k = none := by
    intro k
    cases k <;> decide +kernel
  have hone {k : RegionKind} (hk : k ≠ .io) (hsome : sampleEnum.pcie.select.chosen k ≠ none) :=
    opens_and_holds_of_settled hk
      (machine_spans hk quietMachine_topology quietMachine_conforming (sampleEnum_sound.fits k)
        (sampleEnum_exact quietMachine_conforming k hk) hok hsome)
      (fun hw hhw => quietMachine_conforming hw (hsub hw hhw))
      (fun hw hhw hbridge => (quietMachine_bridges hw (hsub hw hhw) hbridge).registers k)
      ((haligned k).resolve_right hsome) (quietMachine_settled k)
  refine ⟨fun k hk hsome => (hone hk hsome).1, fun k hk hsome => (hone hk hsome).2, ?_⟩
  -- no bus has two bridges
  have halone : (visible quietMachine).withChildren.OnLevels fun x y =>
      ¬ (x.1.isBridge = true ∧ y.1.isBridge = true) := by
    unfold Forest.OnLevels
    decide +kernel
  exact halone.imp fun x y hnot hx hy => absurd ⟨hx, hy⟩ hnot

end BcmPcie
