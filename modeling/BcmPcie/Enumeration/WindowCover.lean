import BcmPcie.Enumeration.Spans

/-! # Bridge windows and what lies behind them

The base of a bridge's window is written from the pointer of a region before the bus behind it is
scanned, the limit from the pointer after it, and in between `pciauto_config_init` sets the pointer
back to the start. The two ends belong together if nothing has been taken since the pointer was last
set back when a bridge with BARs behind it is entered (`OpensClean`), and nothing is taken behind it
before the pointer is set back again.

* `Spans.covered` — when a bridge's window holds what is behind the bridge.
* `Spans.opensClean` — when it has to have been opened at the start of the region. -/

namespace BcmPcie

open Bump Runs

variable {σ : Type}

/-! ## What has to be so -/

/-- A BAR, or an expansion ROM, is asked for in the region of kind `k`. -/
def Asks (k : RegionKind) (prefetch : Bool) (functions : Forest HwFunction) : Prop :=
  ∃ size use, .take size use ∈ scanRequests k prefetch functions

/-- A BAR is asked for in the region of kind `k`. -/
def AsksBar (k : RegionKind) (prefetch : Bool) (functions : Forest HwFunction) : Prop :=
  ∃ size, .take size .bar ∈ scanRequests k prefetch functions

/-- No bridge with BARs of kind `k` behind it is entered when something has been taken since the
pointer was last set back, along a forest that is reached with `since`. -/
def OpensClean (k : RegionKind) (prefetch : Bool) : (since : Bool) → Forest HwFunction → Prop
  | _, .nil => True
  | since, .node hw children siblings =>
    if hw.isBridge then
      (AsksBar k prefetch children → run Arena.taken since (hw.requests k prefetch) = false) ∧
        OpensClean k prefetch false children ∧
        OpensClean k prefetch (run Arena.taken false (scanRequests k prefetch children)) siblings
    else OpensClean k prefetch (run Arena.taken since (hw.requests k prefetch)) siblings

/-- What a bridge has to be like for its window to hold the BARs behind it: it implements the window,
nothing is taken behind it before the pointer is set back, and no BAR is so small that it fits between
the start of the region and the next place where a window can start. -/
structure BridgeHolds (k : RegionKind) (prefetch : Bool) (start : ℕ) (hw : HwFunction)
    (children : Forest HwFunction) : Prop where
  registers : WindowRegisters hw.cfg k
  settled : Arena.Settled (scanRequests k prefetch children)
  reaches : ∀ size, .take size .bar ∈ scanRequests k prefetch children →
    alignUp start (2 ^ 20) ≤ alignUp start size

/-- Every BAR of kind `k` behind a bridge lies in the window of the bridge, at any depth. -/
def Covered (prefetch : Bool) (k : RegionKind) (configured : Forest ConfiguredFunction) : Prop :=
  configured.All fun f below => ∀ bar ∈ placedBars prefetch k below,
    windowStart k f.dev ≤ bar.busAddr.toNat ∧
      bar.busAddr.toNat + bar.size.toNat ≤ windowEnd k f.dev

/-! ## Windows that hold what is behind them -/

section Spans

variable {k : RegionKind} {prefetch : Bool} {a : Arena} {p : ℕ} {functions : Forest HwFunction}
  {configured : Forest ConfiguredFunction}

/-- Windows are rounded to one grain. -/
theorem grain_of_mem_scanRequests {g : ℕ} (h : .round g ∈ scanRequests k prefetch functions) :
    g = 2 ^ 20 := by
  rcases mem_scanRequests h with ⟨hw, -, hr⟩ | hr | hr
  · obtain ⟨size, use, hr⟩ := take_of_mem_deviceRequests hr
    cases hr
  · injection hr
  · cases hr

/-- A function moves the pointer by what it takes alone. -/
theorem grain_of_mem_requests {hw : HwFunction} {g : ℕ} (h : .round g ∈ hw.requests k prefetch) :
    g = 2 ^ 20 := by
  obtain ⟨size, use, hr⟩ := take_of_mem_deviceRequests h
  cases hr

/-- The BARs of a forest are blocks of it. -/
theorem Spans.block_mem (h : Spans k prefetch a p functions configured) {bar : PciBarInfo}
    (hbar : bar ∈ placedBars prefetch k configured) :
    bar.block ∈ a.blocks p (scanRequests k prefetch functions) := by
  obtain ⟨f, hf, hbar⟩ := List.mem_flatMap.1 hbar
  exact h.exists_block hf hbar

/-- Where the pointer stands behind a bridge's bus on which nothing was taken last. -/
theorem alignUp_run_of_not_taken {since : Bool} {rs : List (Request BlockUse)}
    (hround : ∀ g, .round g ∈ rs → g = 2 ^ 20)
    (hp : since = false → p = a.start ∨ p = alignUp a.start (2 ^ 20))
    (h : run Arena.taken since rs = false) :
    alignUp (a.run p rs) (2 ^ 20) = alignUp a.start (2 ^ 20) := by
  rcases a.run_of_not_taken (Nat.two_pow_pos 20) hround hp h with hrun | hrun
  · rw [hrun]
  · rw [hrun, alignUp_alignUp (Nat.two_pow_pos 20)]

/-- The window of one bridge, opened where nothing has been taken. -/
theorem BridgeHolds.covers {hw : HwFunction} {children : Forest HwFunction}
    {below : Forest ConfiguredFunction} (hholds : BridgeHolds k prefetch a.start hw children)
    (hpos : Arena.Positive (scanRequests k prefetch children))
    (hbelow : Spans k prefetch a a.start children below) {bar : PciBarInfo}
    (hbar : bar ∈ placedBars prefetch k below) :
    alignUp a.start (2 ^ 20) % 2 ^ 32 ≤ bar.busAddr.toNat ∧ bar.busAddr.toNat + bar.size.toNat
      ≤ alignUp (a.run a.start (scanRequests k prefetch children)) (2 ^ 20) := by
  have hmem := hbelow.block_mem hbar
  have hlow : alignUp a.start bar.size.toNat ≤ bar.busAddr.toNat :=
    a.alignUp_start_le hpos le_rfl _ hmem
  have hreach := hholds.reaches bar.size.toNat (a.take_mem_of_mem_blocks hmem)
  have hhigh := a.le_run_of_settled hpos hholds.settled _ _ hmem
  exact ⟨(Nat.mod_le _ _).trans (hreach.trans hlow),
    hhigh.trans (le_alignUp (Nat.two_pow_pos 20) _)⟩

/-- **Windows hold what is behind them.** If no bridge with BARs behind it is entered when something
has been taken since the pointer was last set back, and these bridges are as they should be. -/
theorem Spans.covered (h : Spans k prefetch a p functions configured)
    (hpos : Arena.Positive (scanRequests k prefetch functions)) {since : Bool}
    (hopens : OpensClean k prefetch since functions)
    (hholds : functions.All fun hw children => hw.isBridge = true → AsksBar k prefetch children →
      BridgeHolds k prefetch a.start hw children)
    (hp : since = false → p = a.start ∨ p = alignUp a.start (2 ^ 20)) :
    Covered prefetch k configured := by
  induction h generalizing since with
  | nil => trivial
  | @leaf p hw siblings f rest hclass hnone hbars hrest ih =>
    rw [OpensClean, hclass, if_neg Bool.false_ne_true] at hopens
    rw [scanRequests_leaf hclass] at hpos
    refine ⟨fun bar hbar => ?_, trivial, ih (fun r hr => hpos r (List.mem_append_right _ hr)) hopens
      hholds.2.2 fun hsince => ?_⟩
    · cases hbar
    · exact a.run_of_not_taken (Nat.two_pow_pos 20) (fun g hg => grain_of_mem_requests hg) hp hsince
  | @bridge p hw children siblings f below rest hclass hsome hbars hopen hclose hbelow hrest ihb ihr =>
    rw [OpensClean, hclass, if_pos rfl] at hopens
    obtain ⟨hclean, hopensBelow, hopensRest⟩ := hopens
    have hposBelow : Arena.Positive (scanRequests k prefetch children) := fun r hr =>
      hpos r (mem_scanRequests_bridge hclass (Or.inr (Or.inl hr)))
    have hposRest : Arena.Positive (scanRequests k prefetch siblings) := fun r hr =>
      hpos r (mem_scanRequests_bridge hclass (Or.inr (Or.inr hr)))
    refine ⟨fun bar hbar => ?_, ihb hposBelow hopensBelow hholds.2.1 fun _ => Or.inl rfl,
      ihr hposRest hopensRest hholds.2.2 fun hsince => Or.inr ?_⟩
    · have hasks : AsksBar k prefetch children :=
        ⟨_, a.take_mem_of_mem_blocks (hbelow.block_mem hbar)⟩
      have hholds' := hholds.1 hclass hasks
      rw [hopen hholds'.registers, hclose hholds'.registers,
        alignUp_run_of_not_taken (fun g hg => grain_of_mem_requests hg) hp (hclean hasks)]
      exact hholds'.covers hposBelow hbelow hbar
    · exact alignUp_run_of_not_taken (fun g hg => grain_of_mem_scanRequests hg)
        (fun _ => Or.inl rfl) hsince

/-- Behind a bridge, BARs that are asked for get the start of the region first, if its start suits
everything. -/
theorem Spans.exists_bar_at_start (h : Spans k prefetch a a.start functions configured)
    (hpos : Arena.Positive (scanRequests k prefetch functions))
    (hnat : a.Natural (scanRequests k prefetch functions))
    (hbars : ∀ size use, .take size use ∈ scanRequests k prefetch functions → use = .bar)
    (hasks : AsksBar k prefetch functions) :
    ∃ bar ∈ placedBars prefetch k configured, bar.busAddr.toNat = a.start ∧ 0 < bar.size.toNat := by
  obtain ⟨size, htake⟩ := hasks
  obtain ⟨b, hb, haddr⟩ := a.exists_block_at_start hpos hnat ⟨size, .bar, htake⟩
  have hsize := (a.blocks_subset hpos le_rfl b hb).1
  have hmem : b ∈ (placedBars prefetch k configured).map PciBarInfo.block := by
    rw [h.blocks_eq]
    exact List.mem_filter.2 ⟨hb, decide_eq_true (hbars _ _ (a.take_mem_of_mem_blocks hb))⟩
  obtain ⟨bar, hbar, rfl⟩ := List.mem_map.1 hmem
  exact ⟨bar, hbar, haddr, hsize⟩

/-- What is asked for along the requests of a forest, for a bridge in it: by the bridge itself, behind
it and next to it. -/
theorem everyStep_scanRequests_bridge {C : ℕ → Request BlockUse → Prop} {hw : HwFunction}
    {children siblings : Forest HwFunction} (hclass : hw.isBridge = true)
    (h : EveryStep a.step C p (scanRequests k prefetch (.node hw children siblings))) :
    C (a.run p (hw.requests k prefetch)) (.round (2 ^ 20)) ∧
      EveryStep a.step C a.start (scanRequests k prefetch children) ∧
      EveryStep a.step C (alignUp (a.run a.start (scanRequests k prefetch children)) (2 ^ 20))
        (scanRequests k prefetch siblings) := by
  rw [scanRequests_bridge hclass, everyStep_append, everyStep_cons, everyStep_cons, everyStep_append,
    everyStep_cons] at h
  obtain ⟨-, hopen, -, hbelow, -, hrest⟩ := h
  exact ⟨hopen, hbelow, hrest⟩

/-- **Windows only hold what is behind them if they are opened clean**, where the start of the region
suits everything asked for: what is behind a bridge starts there, and so has its window. -/
theorem Spans.opensClean (h : Spans k prefetch a p functions configured)
    (hregisters : ∀ hw ∈ functions.toList, hw.isBridge = true → WindowRegisters hw.cfg k)
    (hpos : Arena.Positive (scanRequests k prefetch functions))
    (hnat : a.Natural (scanRequests k prefetch functions))
    (hbars : ∀ size use, .take size use ∈ scanRequests k prefetch functions → use = .bar)
    (hround : EveryStep a.step (Arena.RoundsBelow (2 ^ 32)) p (scanRequests k prefetch functions))
    (hcovered : Covered prefetch k configured) {since : Bool} (hp : a.start ≤ p)
    (hsince : since = true → a.start < p) : OpensClean k prefetch since functions := by
  induction h generalizing since with
  | nil => trivial
  | @leaf p hw siblings f rest hclass hnone hbars' hrest ih =>
    rw [scanRequests_leaf hclass] at hpos hnat hbars hround
    rw [OpensClean, hclass, if_neg Bool.false_ne_true]
    have hposOwn : Arena.Positive (hw.requests k prefetch) := fun r hr =>
      hpos r (List.mem_append_left _ hr)
    refine ih (fun g hg => hregisters g (List.mem_cons_of_mem _ hg))
      (fun r hr => hpos r (List.mem_append_right _ hr))
      (fun r hr => hnat r (List.mem_append_right _ hr))
      (fun size use hr => hbars size use (List.mem_append_right _ hr))
      ((everyStep_append _ _ _).1 hround).2 hcovered.2.2 (a.start_le_run hposOwn hp) fun htaken => ?_
    exact a.start_lt_run_of_taken hposOwn (fun r hr => hnat r (List.mem_append_left _ hr)) hp hsince
      htaken
  | @bridge p hw children siblings f below rest hclass hsome hbars' hopen hclose hbelow hrest ihb ihr =>
    rw [OpensClean, hclass, if_pos rfl]
    have hmem {r : Request BlockUse} := @mem_scanRequests_bridge k prefetch hw children siblings hclass r
    obtain ⟨hroundOpen, hroundBelow, hroundRest⟩ := everyStep_scanRequests_bridge hclass hround
    have hposOwn : Arena.Positive (hw.requests k prefetch) := fun r hr => hpos r (hmem (Or.inl hr))
    have hposBelow : Arena.Positive (scanRequests k prefetch children) := fun r hr =>
      hpos r (hmem (Or.inr (Or.inl hr)))
    have hnatBelow : a.Natural (scanRequests k prefetch children) := fun r hr =>
      hnat r (hmem (Or.inr (Or.inl hr)))
    have hbarsBelow : ∀ size use, .take size use ∈ scanRequests k prefetch children → use = .bar :=
      fun size use hr => hbars size use (hmem (Or.inr (Or.inl hr)))
    have hstart := a.start_le_run hposBelow le_rfl
    have hgrain := le_alignUp (Nat.two_pow_pos 20)
      (a.run a.start (scanRequests k prefetch children))
    refine ⟨fun hasks => ?_,
      ihb (fun g hg => hregisters g (List.mem_cons_of_mem _ (List.mem_append_left _ hg))) hposBelow
        hnatBelow hbarsBelow hroundBelow hcovered.2.1 le_rfl fun hfalse => absurd hfalse Bool.false_ne_true,
      ihr (fun g hg => hregisters g (List.mem_cons_of_mem _ (List.mem_append_right _ hg)))
        (fun r hr => hpos r (hmem (Or.inr (Or.inr hr))))
        (fun r hr => hnat r (hmem (Or.inr (Or.inr hr))))
        (fun size use hr => hbars size use (hmem (Or.inr (Or.inr hr)))) hroundRest hcovered.2.2
        (hstart.trans hgrain) fun htaken => ?_⟩
    · -- the first BAR behind the bridge is at the start, so the window opens there
      obtain ⟨bar, hbar, haddr, -⟩ := hbelow.exists_bar_at_start hposBelow hnatBelow hbarsBelow hasks
      have hlow := (hcovered.1 bar hbar).1
      rw [hopen (hregisters hw List.mem_cons_self hclass), haddr, Nat.mod_eq_of_lt hroundOpen] at hlow
      by_contra htaken
      have hlt := a.start_lt_run_of_taken hposOwn (fun r hr => hnat r (hmem (Or.inl hr))) hp hsince
        (Bool.eq_true_of_not_eq_false htaken)
      have hle := le_alignUp (Nat.two_pow_pos 20) (a.run p (hw.requests k prefetch))
      omega
    · exact (a.start_lt_run_of_taken hposBelow hnatBelow le_rfl
        (fun hfalse => absurd hfalse Bool.false_ne_true) htaken).trans_le hgrain

/-! ## Where nothing is taken before a pointer is set back -/

/-- Where nothing is taken before a pointer is set back, all windows are opened clean, and what is
behind a bridge takes nothing before it either. -/
theorem Spans.of_settled (h : Spans k prefetch a p functions configured)
    (hsettled : Arena.Settled (scanRequests k prefetch functions)) {since : Bool}
    (hsince : since = true → .rewind ∉ scanRequests k prefetch functions) :
    OpensClean k prefetch since functions ∧
      functions.All fun hw children => hw.isBridge = true →
        Arena.Settled (scanRequests k prefetch children) := by
  induction h generalizing since with
  | nil => exact ⟨trivial, trivial⟩
  | @leaf p hw siblings f rest hclass hnone hbars hrest ih =>
    rw [scanRequests_leaf hclass] at hsettled hsince
    rw [OpensClean, hclass, if_neg Bool.false_ne_true]
    -- what this function takes keeps the ones next to it from setting the pointer back
    have hnext : run Arena.taken since (hw.requests k prefetch) = true →
        .rewind ∉ scanRequests k prefetch siblings := by
      intro htaken hrewind
      rcases Arena.take_mem_of_taken htaken with hsince' | ⟨size, use, hmem⟩
      · exact hsince hsince' (List.mem_append_right _ hrewind)
      · exact hsettled.take_notMem hrewind size use hmem
    obtain ⟨hopens, hbelow⟩ := ih (hsettled.of_sublist (List.sublist_append_right _ _)) hnext
    refine ⟨hopens, fun hbridge => ?_, trivial, hbelow⟩
    rw [hclass] at hbridge
    cases hbridge
  | @bridge p hw children siblings f below rest hclass hsome hbars hopen hclose hbelow hrest ihb ihr =>
    obtain ⟨hdevice, hsettledBelow, hsettledRest, hnothing⟩ := settled_bridge hclass hsettled
    rw [scanRequests_bridge hclass] at hsince
    rw [OpensClean, hclass, if_pos rfl]
    -- the bridge sets the pointer back itself, so nothing was taken before it
    have hclean : run Arena.taken since (hw.requests k prefetch) = false := by
      rw [hdevice]
      by_contra hne
      exact hsince (Bool.eq_true_of_not_eq_false hne)
        (List.mem_append_right _ (List.mem_cons_of_mem _ List.mem_cons_self))
    have hnext : run Arena.taken false (scanRequests k prefetch children) = true →
        .rewind ∉ scanRequests k prefetch siblings := by
      intro htaken hrewind
      rcases Arena.take_mem_of_taken htaken with hfalse | ⟨size, use, hmem⟩
      · cases hfalse
      · exact hnothing hrewind size use hmem
    obtain ⟨hopensBelow, hallBelow⟩ := ihb hsettledBelow fun hfalse => absurd hfalse Bool.false_ne_true
    obtain ⟨hopensRest, hallRest⟩ := ihr hsettledRest hnext
    exact ⟨⟨fun _ => hclean, hopensBelow, hopensRest⟩, fun _ => hsettledBelow, hallBelow, hallRest⟩

/-- A region that starts where a window can start leaves no room below the first window. -/
theorem reaches_of_dvd {start : ℕ} (haligned : 2 ^ 20 ∣ start) {size : ℕ} (hsize : 0 < size) :
    alignUp start (2 ^ 20) ≤ alignUp start size := by
  rw [alignUp_of_dvd (Nat.two_pow_pos 20) haligned]
  exact le_alignUp hsize start

end Spans

end BcmPcie
