import BcmPcie.Enumeration.DeviceBlocks
import BcmPcie.Enumeration.Scan

/-! # Where the BARs of a machine are placed

A whole scan against the bump allocator of a region: what the functions of a machine ask for is known
from their registers beforehand (`scanRequests`), and the BARs they have afterwards are the blocks
granted along these requests. `pci_auto_config_devices` runs `pciauto_config_init` for every bus, so
the requests of the functions behind a bridge start with a rewind: what is taken behind a bridge can
be what has been taken before it.

* `Scan.regionAt` — the pointers and the BARs of a scan.
* `memoryBars_apart_of_enumerate` — when BARs of memory are disjoint. -/

namespace BcmPcie

open Bump Runs

variable {σ : Type}

/-! ## The requests of a machine -/

/-- What the functions of a forest ask of the regions of kind `k`, in the order of the scan. A bridge
starts its windows behind its own BARs, the bus behind it starts from the beginning of the region, and
the windows end behind it. -/
def scanRequests (k : RegionKind) (prefetch : Bool) : Forest HwFunction → List (Request BlockUse)
  | .nil => []
  | .node hw children siblings =>
    deviceRequests k prefetch hw.cfg hw.headerType (headerBars hw.headerType) ++
      ((if hw.isBridge then
          .round (2 ^ 20) :: .rewind :: (scanRequests k prefetch children ++ [.round (2 ^ 20)])
        else []) ++
        scanRequests k prefetch siblings)

/-- The BARs that were placed in a region of kind `k`, in the order of the scan. -/
def placedBars (prefetch : Bool) (k : RegionKind) (configured : Forest ConfiguredFunction) :
    List PciBarInfo :=
  configured.toList.flatMap fun f => ofKind prefetch k f.dev.slots

/-- The memory BARs that are present. -/
def memoryBars (configured : Forest ConfiguredFunction) : List PciBarInfo :=
  (configured.toList.flatMap fun f => f.dev.slots).filter fun bar =>
    bar.present && decide (bar.type = .mem)

@[simp] theorem placedBars_nil (prefetch : Bool) (k : RegionKind) :
    placedBars prefetch k .nil = [] := rfl

/-- The BARs placed below a function are its own, those behind it and those beside it. -/
theorem placedBars_node (prefetch : Bool) (k : RegionKind) (f : ConfiguredFunction)
    (below rest : Forest ConfiguredFunction) :
    placedBars prefetch k (.node f below rest)
      = ofKind prefetch k f.dev.slots ++ (placedBars prefetch k below ++ placedBars prefetch k rest) := by
  unfold placedBars
  rw [Forest.toList_node, List.flatMap_cons, List.flatMap_append]

/-! ## A scan as a run of the allocators -/

/-- A region that is not there is not chosen. -/
theorem ptr_eq_none_of_chosen {pcie : PciController σ} {k : RegionKind} (hsel : pcie.Selected)
    (h : pcie.chosen k = none) : pcie.ptr k = none := by
  cases hptr : pcie.ptr k with
  | none => rfl
  | some i =>
    have hpick := hsel k
    rw [hptr] at hpick
    rcases selectRegion_flags hpick.symm with hbest | ⟨n, res, hres, -, rfl⟩
    · cases hbest
    · unfold PciController.chosen PciController.region at h
      rw [hptr, Option.bind_some, Nat.zero_add, hres] at h
      cases h

/-- A region that is not chosen is not there. -/
theorem chosen_eq_none_of_ptr {pcie : PciController σ} {k : RegionKind} (h : pcie.ptr k = none) :
    pcie.chosen k = none := by
  unfold PciController.chosen PciController.region
  rw [h]
  rfl

/-- What stays of the choice of regions through a part of a scan. -/
structure SameChoice (pcie pcie' : PciController σ) : Prop where
  selected : pcie'.Selected
  ptr : ∀ k, pcie'.ptr k = pcie.ptr k

/-- Two steps that keep the choice of regions keep it together. -/
theorem SameChoice.trans {pcie pcie' pcie'' : PciController σ} (h : SameChoice pcie pcie')
    (h' : SameChoice pcie' pcie'') : SameChoice pcie pcie'' :=
  ⟨h'.selected, fun k => (h'.ptr k).trans (h.ptr k)⟩

/-- A change inside the regions keeps which of them are chosen. -/
theorem OnlyRegions.sameChoice {pcie pcie' : PciController σ} (h : OnlyRegions pcie pcie')
    (hsel : pcie.Selected) : SameChoice pcie pcie' :=
  ⟨h.selected hsel, h.ptr⟩

/-- Giving out a bus number leaves the pointers to the regions. -/
theorem ptr_nextBus (pcie : PciController σ) (k : RegionKind) :
    pcie.nextBus.ptr k = pcie.ptr k := by
  cases k <;> rfl

/-- Giving out a bus number keeps the choice of regions. -/
theorem sameChoice_nextBus {pcie : PciController σ} (hsel : pcie.Selected) :
    SameChoice pcie pcie.nextBus :=
  ⟨fun k => (ptr_nextBus pcie k).trans (hsel k), ptr_nextBus pcie⟩

/-- Setting up a function keeps the choice of regions. -/
theorem sameChoice_setup {pcie pcie₁ : PciController σ} {bridges : List PciDevice} {hw : HwFunction}
    {b : ℕ} {dev : PciDevice} (hsel : pcie.Selected)
    (h : pciautoSetupDevice pcie bridges (hw.record b) pcie.ptr = (pcie₁, dev)) :
    SameChoice pcie pcie₁ := by
  have hframe : OnlyRegions pcie (pciautoSetupDevice pcie bridges (hw.record b) pcie.ptr).1 :=
    (pciautoSetupDevice_frame pcie bridges (record_barsNum hw b) pcie.ptr).1
  rw [h] at hframe
  exact hframe.sameChoice hsel

/-- Between the set-up of a bridge and the scan behind it. -/
theorem sameChoice_into {pcie : PciController σ} (hsel : pcie.Selected) :
    SameChoice pcie (pciautoConfigInit pcie.nextBus.alignWindows) := by
  have hnext := sameChoice_nextBus hsel
  have halign := (onlyRegions_alignWindows pcie.nextBus).sameChoice hnext.selected
  exact (hnext.trans halign).trans
    ((onlyRegions_configInit _ halign.selected).sameChoice halign.selected)

/-- A scan keeps the choice of regions. -/
theorem Scan.sameChoice {b last last' : ℕ} {bridges : List PciDevice} {pcie pcie' : PciController σ}
    {functions : Forest HwFunction} {configured : Forest ConfiguredFunction}
    (h : Scan b bridges pcie last functions configured pcie' last') (hsel : pcie.Selected) :
    SameChoice pcie pcie' := by
  induction h with
  | nil => exact ⟨hsel, fun _ => rfl⟩
  | leaf _ hsetup _ ih =>
    have hsame := sameChoice_setup hsel hsetup
    exact hsame.trans (ih hsame.selected)
  | @bridge _ _ _ _ _ _ _ _ _ _ _ pcie₂ _ _ _ _ hsetup _ _ ihb ihr =>
    have hsame₁ := sameChoice_setup hsel hsetup
    have hsame₂ := sameChoice_into hsame₁.selected
    have hsame₃ := ihb hsame₂.selected
    have halign := (onlyRegions_alignWindows pcie₂).sameChoice hsame₃.selected
    exact (((hsame₁.trans hsame₂).trans hsame₃).trans halign).trans (ihr halign.selected)

/-- The bars of a bridge are those its set-up gave it. -/
theorem scannedBridge_slots (pcie pcie' : PciController σ) (busNumber lastSub : ℕ)
    (link : LinkAnswers) (dev : PciDevice) :
    (scannedBridge pcie pcie' busNumber lastSub link { dev with activated := true }).slots
      = dev.slots := by
  have hrecord := (scannedBridge_rewritten pcie pcie' busNumber lastSub link
    { dev with activated := true }).record
  unfold PciDevice.slots
  rw [hrecord]

section Scan

variable {k : RegionKind} {res : Option PciRegion}

/-- The set-up of a function that a scan comes to. -/
theorem setup_regionAt {pcie pcie₁ : PciController σ} {bridges : List PciDevice} {hw : HwFunction}
    {b p : ℕ} {dev : PciDevice}
    (h : pciautoSetupDevice pcie bridges (hw.record b) pcie.ptr = (pcie₁, dev)) (hk : k ≠ .io)
    (hconf : ConformingBars hw.cfg hw.headerType (headerBars hw.headerType)) (hsel : pcie.Selected)
    (hat : RegionAt pcie k res p)
    (hexact : EveryStep (regionArena res).step (RegionExact res) p
      (deviceRequests k (pcie.ptr .prefetch).isSome hw.cfg hw.headerType
        (headerBars hw.headerType))) :
    let reqs := deviceRequests k (pcie.ptr .prefetch).isSome hw.cfg hw.headerType
      (headerBars hw.headerType)
    RegionAt pcie₁ k res ((regionArena res).run p reqs) ∧
      (ofKind (pcie.ptr .prefetch).isSome k dev.slots).map PciBarInfo.block
        = ((regionArena res).blocks p reqs).filter (·.tag = .bar) := by
  intro reqs
  have hspec := @pciautoSetupDevice_spec _ k res hw.cfg pcie bridges (hw.record b) hconf
    (record_barsNum hw b) hk (RegisterFile.SameDevice.refl _) (fun _ => rfl) hsel p hat hexact
  dsimp only at hspec
  rw [h] at hspec
  exact hspec

/-- Giving out a bus number leaves the regions. -/
theorem chosen_nextBus (pcie : PciController σ) (k : RegionKind) :
    pcie.nextBus.chosen k = pcie.chosen k := by
  cases k <;> rfl

/-- From the windows of a bridge into the bus behind it. -/
theorem RegionAt.into {pcie : PciController σ} {p : ℕ} (h : RegionAt pcie k res p)
    (hsel : pcie.Selected) (hk : k ≠ .io) :
    RegionAt (pciautoConfigInit pcie.alignWindows) k res (regionArena res).start :=
  (h.alignWindows hsel hk).configInit ((onlyRegions_alignWindows pcie).selected hsel)

/-- What is exact along the requests of a bridge, is along those of the bridge itself, of the bus
behind it and of the functions next to it. -/
theorem everyStep_bridge {a : Arena} {C : ℕ → Request BlockUse → Prop} {p : ℕ}
    {device inner outer : List (Request BlockUse)}
    (h : EveryStep a.step C p
      (device ++ ((.round (2 ^ 20) :: .rewind :: (inner ++ [.round (2 ^ 20)])) ++ outer))) :
    EveryStep a.step C p device ∧ EveryStep a.step C a.start inner ∧
      EveryStep a.step C (alignUp (a.run a.start inner) (2 ^ 20)) outer := by
  rw [everyStep_append, List.cons_append, List.cons_append, everyStep_cons, everyStep_cons,
    everyStep_append, everyStep_append] at h
  obtain ⟨hdevice, -, -, ⟨hinner, -⟩, houter⟩ := h
  rw [Arena.step_rewind] at hinner
  rw [Arena.step_rewind, run_append, run_cons, Arena.step_round, run_nil] at houter
  exact ⟨hdevice, hinner, houter⟩

/-- **A scan is a run of the allocators.** Along a scan the pointer of a region of memory makes the
steps of its bump allocator for what the functions ask for, and the BARs in that region are the blocks
granted for them. -/
theorem Scan.regionAt {b last last' p : ℕ} {bridges : List PciDevice} {pcie pcie' : PciController σ}
    {functions : Forest HwFunction} {configured : Forest ConfiguredFunction} {prefetch : Bool}
    (h : Scan b bridges pcie last functions configured pcie' last') (hk : k ≠ .io)
    (hconf : ∀ hw ∈ functions.toList,
      ConformingBars hw.cfg hw.headerType (headerBars hw.headerType))
    (hsel : pcie.Selected) (hprefetch : (pcie.ptr .prefetch).isSome = prefetch)
    (hat : RegionAt pcie k res p)
    (hexact : EveryStep (regionArena res).step (RegionExact res) p
      (scanRequests k prefetch functions)) :
    RegionAt pcie' k res ((regionArena res).run p (scanRequests k prefetch functions)) ∧
      (placedBars prefetch k configured).map PciBarInfo.block
        = ((regionArena res).blocks p (scanRequests k prefetch functions)).filter
            (·.tag = .bar) := by
  induction h generalizing p with
  | nil => exact ⟨hat, rfl⟩
  | @leaf b bridges pcie last hw siblings rest pcie₁ dev pcie' last' hclass hsetup _ ih =>
    rw [scanRequests, hclass, if_neg Bool.false_ne_true, List.nil_append] at hexact ⊢
    rw [everyStep_append] at hexact
    subst hprefetch
    obtain ⟨hat₁, hblocks⟩ := setup_regionAt hsetup hk (hconf hw List.mem_cons_self) hsel hat hexact.1
    have hsame := sameChoice_setup hsel hsetup
    obtain ⟨hat', hrest⟩ := ih (fun g hg => hconf g (List.mem_cons_of_mem _ hg))
      hsame.selected (by rw [hsame.ptr]) hat₁ hexact.2
    constructor
    · rw [Arena.run_append]
      exact hat'
    · rw [placedBars_node, List.map_append, hblocks, placedBars_nil, List.nil_append, hrest,
        Arena.blocks_append, List.filter_append]
  | @bridge b bridges pcie last hw children siblings below rest pcie₁ dev pcie₂ lastSub pcie' last'
      hclass hsetup hscan _ ihb ihr =>
    rw [scanRequests, hclass, if_pos rfl] at hexact ⊢
    obtain ⟨hexact₁, hexactBelow, hexactRest⟩ := everyStep_bridge hexact
    subst hprefetch
    -- the bridge's own BARs
    obtain ⟨hat₁, hblocks⟩ := setup_regionAt hsetup hk (hconf hw List.mem_cons_self) hsel hat hexact₁
    have hsame₁ := sameChoice_setup hsel hsetup
    -- the bus behind it, from the start of the region
    have hsame₂ := sameChoice_into hsame₁.selected
    have hatBelow := (hat₁.congr (chosen_nextBus pcie₁ k)).into (sameChoice_nextBus hsame₁.selected).selected hk
    obtain ⟨hat₂, hbelow⟩ := ihb
      (fun g hg => hconf g (List.mem_cons_of_mem _ (List.mem_append_left _ hg)))
      hsame₂.selected (by rw [hsame₂.ptr, hsame₁.ptr]) hatBelow hexactBelow
    have hsame := (hsame₁.trans hsame₂).trans (hscan.sameChoice hsame₂.selected)
    -- and the functions next to it, from where the windows end
    have halign := (onlyRegions_alignWindows pcie₂).sameChoice hsame.selected
    obtain ⟨hat', hrest⟩ := ihr
      (fun g hg => hconf g (List.mem_cons_of_mem _ (List.mem_append_right _ hg)))
      halign.selected (by rw [halign.ptr, hsame.ptr]) (hat₂.alignWindows hsame.selected hk) hexactRest
    constructor
    · rw [Arena.run_append, List.cons_append, List.cons_append, Arena.run_round, Arena.run_rewind,
        Arena.run_append, Arena.run_append, Arena.run_round, Arena.run_nil]
      exact hat'
    · rw [placedBars_node, List.map_append, List.map_append, scannedBridge_slots, hblocks, hbelow,
        hrest, Arena.blocks_append, List.cons_append, List.cons_append, Arena.blocks_round,
        Arena.blocks_rewind, Arena.blocks_append, Arena.blocks_append, Arena.blocks_round,
        Arena.blocks_nil, List.append_nil, Arena.run_append, Arena.run_round, Arena.run_nil,
        List.filter_append, List.filter_append]

end Scan

/-! ## What the requests look like -/

/-- What a function asks for comes from one of its BARs. -/
theorem mem_barRequests {k : RegionKind} {prefetch : Bool} {cfg : RegisterFile 4096}
    {barsNum rounds slot : ℕ} {r : Request BlockUse}
    (h : r ∈ barRequests k prefetch cfg barsNum rounds slot) :
    ∃ slot < barsNum, ¬ (barResponse cfg slot = 0 ∨ barResponse cfg slot = 0xffffffff#32) ∧
      barKind prefetch (barResponse cfg slot) = k ∧
      r = .take (barSize (barResponse cfg slot)).toNat .bar := by
  induction rounds generalizing slot with
  | zero => cases h
  | succ rounds ih =>
    rw [barRequests] at h
    split at h
    · rename_i hslot
      dsimp only at h
      split at h
      · exact ih h
      · rename_i hbar
        rcases List.mem_append.1 h with h | h
        · split at h
          · rename_i hkind
            exact ⟨slot, hslot, hbar, hkind, List.mem_singleton.1 h⟩
          · cases h
        · exact ih h
    · cases h

/-- Blocks and grains are powers of two of the width of the bus. -/
def BusSized (r : Request BlockUse) : Prop :=
  match r with
  | .take size _ => ∃ n < 32, size = 2 ^ n
  | .round grain => ∃ n < 32, grain = 2 ^ n
  | .rewind => True

/-- A block of a power of two that fits a word is of the width of the bus. -/
theorem busSized_take {size : BitVec 32} {use : BlockUse} (h : ∃ n, size.toNat = 2 ^ n) :
    BusSized (.take size.toNat use) := by
  obtain ⟨n, hn⟩ := h
  exact ⟨n, (Nat.pow_lt_pow_iff_right (by decide : 1 < 2)).1 (hn ▸ size.isLt), hn⟩

/-- A request of a scan is one of a function, or moves the pointer for a bridge. -/
theorem mem_scanRequests {k : RegionKind} {prefetch : Bool} {functions : Forest HwFunction}
    {r : Request BlockUse} (h : r ∈ scanRequests k prefetch functions) :
    (∃ hw ∈ functions.toList,
        r ∈ deviceRequests k prefetch hw.cfg hw.headerType (headerBars hw.headerType)) ∨
      r = .round (2 ^ 20) ∨ r = .rewind := by
  induction functions with
  | nil => cases h
  | node hw children siblings ihc ihs =>
    rw [scanRequests, List.mem_append, List.mem_append] at h
    rcases h with h | h | h
    · exact Or.inl ⟨hw, List.mem_cons_self, h⟩
    · split at h
      · rcases List.mem_cons.1 h with rfl | h
        · exact Or.inr (Or.inl rfl)
        · rcases List.mem_cons.1 h with rfl | h
          · exact Or.inr (Or.inr rfl)
          · rcases List.mem_append.1 h with h | h
            · refine (ihc h).imp_left ?_
              rintro ⟨g, hg, hr⟩
              exact ⟨g, List.mem_cons_of_mem _ (List.mem_append_left _ hg), hr⟩
            · exact Or.inr (Or.inl (List.mem_singleton.1 h))
      · cases h
    · refine (ihs h).imp_left ?_
      rintro ⟨g, hg, hr⟩
      exact ⟨g, List.mem_cons_of_mem _ (List.mem_append_right _ hg), hr⟩

/-- All that the scan of conforming functions asks for is of the width of the bus. -/
theorem busSized_of_mem_scanRequests {k : RegionKind} (hk : k ≠ .io) {prefetch : Bool}
    {functions : Forest HwFunction}
    (hconf : ∀ hw ∈ functions.toList,
      ConformingBars hw.cfg hw.headerType (headerBars hw.headerType)) :
    ∀ r ∈ scanRequests k prefetch functions, BusSized r := by
  intro r hr
  rcases mem_scanRequests hr with ⟨hw, hhw, hr⟩ | rfl | rfl
  · rcases List.mem_append.1 hr with hr | hr
    · obtain ⟨slot, hslot, hbar, hkind, rfl⟩ := mem_barRequests hr
      exact busSized_take ((hconf hw hhw).size_of_kind hk hslot rfl hbar hkind)
    · unfold romRequests at hr
      split at hr
      · rename_i hrom
        rw [List.mem_singleton.1 hr]
        exact busSized_take ((hconf hw hhw).rom hrom.2)
      · cases hr
  · exact ⟨20, by decide, rfl⟩
  · trivial

/-- Without expansion ROMs, whatever is taken is for a BAR. -/
theorem tag_of_mem_scanRequests {k : RegionKind} {prefetch : Bool} {functions : Forest HwFunction}
    (hrom : ∀ hw ∈ functions.toList, romResponse hw.cfg hw.headerType = 0) {size : ℕ}
    {use : BlockUse} (h : .take size use ∈ scanRequests k prefetch functions) : use = .bar := by
  rcases mem_scanRequests h with ⟨hw, hhw, hr⟩ | hr | hr
  · rcases List.mem_append.1 hr with hr | hr
    · exact tag_of_mem_barRequests hr
    · unfold romRequests at hr
      rw [if_neg fun hboth => hboth.2 (hrom hw hhw)] at hr
      cases hr
  · cases hr
  · cases hr

/-- Requests of the width of the bus ask for no empty block. -/
theorem positive_of_busSized {rs : List (Request BlockUse)} (h : ∀ r ∈ rs, BusSized r) :
    Arena.Positive rs := by
  intro r hr
  have hsized := h r hr
  cases r with
  | take size use =>
    obtain ⟨n, -, rfl⟩ := hsized
    exact Nat.two_pow_pos n
  | round grain =>
    obtain ⟨n, -, rfl⟩ := hsized
    exact Nat.two_pow_pos n
  | rewind => trivial

/-- In the upper half of the bus the sum in the check for room never wraps around. -/
theorem everyStep_exact_of_high {res : Option PciRegion} {rs : List (Request BlockUse)} {p : ℕ}
    (h : ∀ r ∈ rs, BusSized r) (hfits : ∀ res' ∈ res, res'.Fits)
    (hhigh : ∀ res' ∈ res, 2 ^ 31 < res'.busStart.toNat) (hp : p ≤ 2 ^ 32) :
    EveryStep (regionArena res).step (RegionExact res) p rs := by
  -- on the requests, with the pointer at most at 4 GiB
  induction rs generalizing p with
  | nil => exact everyStep_nil p
  | cons r rs ih =>
    have hsized := h r List.mem_cons_self
    have halign {n : ℕ} (hn : n < 32) : alignUp p (2 ^ n) ≤ 2 ^ 32 :=
      alignUp_le hp (Nat.pow_dvd_pow 2 (by omega))
    have hlimit : (regionArena res).limit ≤ 2 ^ 32 := by
      cases res with
      | none => exact Nat.zero_le _
      | some res => exact hfits res rfl
    rw [everyStep_cons]
    constructor
    · intro res' hres'
      cases r with
      | take size use =>
        obtain ⟨n, hn, rfl⟩ := hsized
        have hsize : 2 ^ n ≤ 2 ^ 31 := Nat.pow_le_pow_right (by decide) (by omega)
        have := halign hn
        have := hhigh res' hres'
        left
        omega
      | round grain => trivial
      | rewind => trivial
    · refine ih (fun r hr => h r (List.mem_cons_of_mem _ hr)) ?_
      cases r with
      | take size use =>
        simp only [Arena.step]
        split
        · omega
        · exact hp
      | round grain =>
        obtain ⟨n, hn, rfl⟩ := hsized
        exact halign hn
      | rewind => exact regionArena_start_le res

/-! ## The BARs of a machine -/

section Machine

variable (k : RegionKind) (pcie : PciController σ) (functions : Forest HwFunction)

/-- What a machine asks of the region of kind `k` when it is scanned from the root bus. -/
def machineRequests : List (Request BlockUse) :=
  scanRequests k (pcie.select.ptr .prefetch).isSome (visible functions)

/-- The allocator of the region of kind `k` that the scan uses. -/
def machineArena : Arena := regionArena (pcie.select.chosen k)

/-- The check for room in that region never wraps around. -/
def RoomExactAlong : Prop :=
  EveryStep (machineArena k pcie).step (RegionExact (pcie.select.chosen k))
    (machineArena k pcie).start (machineRequests k pcie functions)

end Machine

/-- The regions of memory that `pciauto_config_init` picks fit the bus and share no address. -/
structure SoundRegions (pcie : PciController σ) : Prop where
  fits : ∀ k, ∀ res ∈ pcie.select.chosen k, res.Fits
  disjoint : ∀ res ∈ pcie.select.chosen .mem, ∀ res' ∈ pcie.select.chosen .prefetch,
    res.Disjoint res'

/-- The memory BARs that are present share no address. -/
def BarsApart (configured : Forest ConfiguredFunction) : Prop :=
  (memoryBars configured).Pairwise fun bar bar' => bar.block.Apart bar'.block

/-- The memory BARs of one kind, among the memory BARs. -/
theorem placedBars_eq_filter {k : RegionKind} (hk : k ≠ .io) (prefetch : Bool)
    (configured : Forest ConfiguredFunction) :
    placedBars prefetch k configured
      = (memoryBars configured).filter fun bar => decide (bar.kind prefetch = k) := by
  have hfilter (bars : List PciBarInfo) : ofKind prefetch k bars
      = (bars.filter fun bar => bar.present && decide (bar.type = .mem)).filter fun bar =>
          decide (bar.kind prefetch = k) := by
    rw [List.filter_filter]
    apply List.filter_congr
    intro bar _
    cases htype : bar.type with
    | io =>
      have hkind : bar.kind prefetch = .io := by
        unfold PciBarInfo.kind
        rw [htype]
      rw [hkind, decide_eq_false (Ne.symm hk)]
      simp
    | mem => simp [Bool.and_comm]
  unfold placedBars memoryBars
  generalize configured.toList = fs
  induction fs with
  | nil => rfl
  | cons f fs ih => rw [List.flatMap_cons, List.flatMap_cons, List.filter_append, List.filter_append,
      hfilter, ih]

/-- A BAR of memory was placed in the memory or the prefetchable region. -/
theorem kind_of_mem_memoryBars {configured : Forest ConfiguredFunction} {bar : PciBarInfo}
    (h : bar ∈ memoryBars configured) (prefetch : Bool) :
    bar.kind prefetch = .mem ∨ bar.kind prefetch = .prefetch := by
  obtain ⟨-, hbar⟩ := List.mem_filter.1 h
  have htype : bar.type = .mem := of_decide_eq_true ((Bool.and_eq_true _ _).mp hbar).2
  unfold PciBarInfo.kind
  rw [htype]
  dsimp only
  split
  · exact Or.inr rfl
  · exact Or.inl rfl

section Enumerate

variable {functions : Forest HwFunction} {bus : PciBus} {configured : Forest ConfiguredFunction}
  {s s' : EnumState σ}

/-- **The BARs of a machine.** After a scan of the root bus the BARs in a region of memory are the
blocks its allocator grants for what the machine asks. -/
theorem placedBars_of_enumerate {k : RegionKind} (hk : k ≠ .io) (htopology : Topology functions)
    (hconf : ∀ hw ∈ functions.toList,
      ConformingBars hw.cfg hw.headerType (headerBars hw.headerType))
    (hfits : ∀ res ∈ s.pcie.select.chosen k, res.Fits) (hexact : RoomExactAlong k s.pcie functions)
    (h : enumerate functions s = .ok (bus, configured) s') :
    (placedBars (s.pcie.select.ptr .prefetch).isSome k configured).map PciBarInfo.block
      = ((machineArena k s.pcie).blocks (machineArena k s.pcie).start
          (machineRequests k s.pcie functions)).filter (·.tag = .bar) := by
  have hsub : (visible functions).toList.Sublist functions.toList := toList_visibleAmong _ _
  obtain ⟨hsel, hptr, -⟩ := pciautoConfigInit_spec s.pcie
  have hat := regionAt_pciautoConfigInit s.pcie k hfits
  obtain ⟨-, hblocks⟩ := (scan_of_enumerate htopology h).regionAt hk
    (fun hw hhw => hconf hw (hsub.subset hhw)) hsel (by rw [hptr]) hat hexact
  exact hblocks

/-- All that a machine of conforming functions asks for is of the width of the bus. -/
theorem busSized_of_mem_machineRequests {k : RegionKind} (hk : k ≠ .io) (pcie : PciController σ)
    (hconf : ∀ hw ∈ functions.toList,
      ConformingBars hw.cfg hw.headerType (headerBars hw.headerType)) :
    ∀ r ∈ machineRequests k pcie functions, BusSized r :=
  busSized_of_mem_scanRequests hk fun hw hhw => hconf hw ((toList_visibleAmong _ _).subset hhw)

/-- A BAR is a block of the arena it was taken from. -/
theorem block_mem_blocks {k : RegionKind} (hk : k ≠ .io) (htopology : Topology functions)
    (hconf : ∀ hw ∈ functions.toList,
      ConformingBars hw.cfg hw.headerType (headerBars hw.headerType))
    (hfits : ∀ res ∈ s.pcie.select.chosen k, res.Fits) (hexact : RoomExactAlong k s.pcie functions)
    (h : enumerate functions s = .ok (bus, configured) s') {bar : PciBarInfo}
    (hbar : bar ∈ memoryBars configured)
    (hkind : bar.kind (s.pcie.select.ptr .prefetch).isSome = k) :
    bar.block ∈ (machineArena k s.pcie).blocks (machineArena k s.pcie).start
      (machineRequests k s.pcie functions) := by
  have hblocks := placedBars_of_enumerate hk htopology hconf hfits hexact h
  have hmem : bar.block ∈ (placedBars (s.pcie.select.ptr .prefetch).isSome k configured).map
      PciBarInfo.block := by
    rw [placedBars_eq_filter hk]
    exact List.mem_map_of_mem (List.mem_filter.2 ⟨hbar, decide_eq_true hkind⟩)
  rw [hblocks] at hmem
  exact (List.mem_filter.1 hmem).1

/-- A BAR lies in the arena it was taken from. -/
theorem block_mem_arena {k : RegionKind} (hk : k ≠ .io) (htopology : Topology functions)
    (hconf : ∀ hw ∈ functions.toList,
      ConformingBars hw.cfg hw.headerType (headerBars hw.headerType))
    (hfits : ∀ res ∈ s.pcie.select.chosen k, res.Fits) (hexact : RoomExactAlong k s.pcie functions)
    (h : enumerate functions s = .ok (bus, configured) s') {bar : PciBarInfo}
    (hbar : bar ∈ memoryBars configured)
    (hkind : bar.kind (s.pcie.select.ptr .prefetch).isSome = k) :
    ∃ res ∈ s.pcie.select.chosen k, res.busStart.toNat ≤ bar.busAddr.toNat ∧
      bar.busAddr.toNat + bar.size.toNat ≤ res.busStart.toNat + res.size.toNat ∧
      0 < bar.size.toNat := by
  have hmem := block_mem_blocks hk htopology hconf hfits hexact h hbar hkind
  have hpos := positive_of_busSized (busSized_of_mem_machineRequests hk s.pcie hconf)
  obtain ⟨hsize, hlow, hhigh⟩ := (machineArena k s.pcie).blocks_subset hpos le_rfl _ hmem
  unfold machineArena at hlow hhigh
  cases hres : s.pcie.select.chosen k with
  | none =>
    rw [hres] at hhigh
    exact absurd hhigh (by show ¬ _ ≤ 0; omega)
  | some res =>
    rw [hres] at hlow hhigh
    exact ⟨res, rfl, (PciRegion.busStart_le_arena_start res).trans hlow, hhigh, hsize⟩

/-- Without expansion ROMs every block is that of a BAR. -/
theorem exists_bar_of_block {k : RegionKind} (hk : k ≠ .io) (htopology : Topology functions)
    (hconf : ∀ hw ∈ functions.toList,
      ConformingBars hw.cfg hw.headerType (headerBars hw.headerType))
    (hfits : ∀ res ∈ s.pcie.select.chosen k, res.Fits) (hexact : RoomExactAlong k s.pcie functions)
    (h : enumerate functions s = .ok (bus, configured) s')
    (hrom : ∀ hw ∈ functions.toList, romResponse hw.cfg hw.headerType = 0) {b : Block BlockUse}
    (hb : b ∈ (machineArena k s.pcie).blocks (machineArena k s.pcie).start
      (machineRequests k s.pcie functions)) : ∃ bar ∈ memoryBars configured, bar.block = b := by
  have htag : b.tag = .bar :=
    tag_of_mem_scanRequests (fun hw hhw => hrom hw ((toList_visibleAmong _ _).subset hhw))
      ((machineArena k s.pcie).take_mem_of_mem_blocks hb)
  have hmem : b ∈ (placedBars (s.pcie.select.ptr .prefetch).isSome k configured).map
      PciBarInfo.block := by
    rw [placedBars_of_enumerate hk htopology hconf hfits hexact h]
    exact List.mem_filter.2 ⟨hb, decide_eq_true htag⟩
  rw [placedBars_eq_filter hk] at hmem
  obtain ⟨bar, hbar, rfl⟩ := List.mem_map.1 hmem
  exact ⟨bar, (List.mem_filter.1 hbar).1, rfl⟩

/-- The BARs of a machine are apart if no region is set back between two BARs taken from it, and BARs
of different regions are. -/
theorem barsApart_of_cross (htopology : Topology functions)
    (hconf : ∀ hw ∈ functions.toList,
      ConformingBars hw.cfg hw.headerType (headerBars hw.headerType))
    (hfits : ∀ k, ∀ res ∈ s.pcie.select.chosen k, res.Fits)
    (hexact : ∀ k, k ≠ .io → RoomExactAlong k s.pcie functions)
    (h : enumerate functions s = .ok (bus, configured) s')
    (hstretch : ∀ k, k ≠ .io → Arena.OneStretch .bar (machineRequests k s.pcie functions))
    (hcross : ∀ bar ∈ memoryBars configured, ∀ bar' ∈ memoryBars configured,
      bar.kind (s.pcie.select.ptr .prefetch).isSome = .mem →
      bar'.kind (s.pcie.select.ptr .prefetch).isSome = .prefetch → bar.block.Apart bar'.block) :
    BarsApart configured := by
  set prefetch := (s.pcie.select.ptr .prefetch).isSome with hprefetch
  -- BARs of one kind follow each other
  have hsame {k : RegionKind} (hk : k ≠ .io) : (memoryBars configured).Pairwise fun bar bar' =>
      bar.kind prefetch = k → bar'.kind prefetch = k → bar.block.Apart bar'.block := by
    have hblocks := placedBars_of_enumerate hk htopology hconf (hfits k) (hexact k hk) h
    have hascending := (machineArena k s.pcie).tagged_ascending
      (positive_of_busSized (busSized_of_mem_machineRequests hk s.pcie hconf))
      (machineArena k s.pcie).start (hstretch k hk)
    have hbars : (((machineArena k s.pcie).blocks (machineArena k s.pcie).start
        (machineRequests k s.pcie functions)).filter (·.tag = .bar)).Pairwise Block.Apart := by
      rw [List.pairwise_filter]
      exact hascending.imp fun hle htag htag' =>
        Or.inl (hle (of_decide_eq_true htag) (of_decide_eq_true htag'))
    rw [← hblocks, List.pairwise_map, placedBars_eq_filter hk, List.pairwise_filter] at hbars
    exact hbars.imp fun hapart hkind hkind' => hapart (decide_eq_true hkind) (decide_eq_true hkind')
  have hmem := @hsame .mem (by decide)
  have hpre := @hsame .prefetch (by decide)
  refine (hmem.and hpre).imp_of_mem fun {bar bar'} hbar hbar' hapart => ?_
  rcases kind_of_mem_memoryBars hbar prefetch with hkind | hkind <;>
    rcases kind_of_mem_memoryBars hbar' prefetch with hkind' | hkind'
  · exact hapart.1 hkind hkind'
  · exact hcross bar hbar bar' hbar' hkind hkind'
  · exact (hcross bar' hbar' bar hbar hkind' hkind).symm
  · exact hapart.2 hkind hkind'

/-- The BARs placed in one region follow each other if the region is never set back between two of
them. -/
theorem barsApart_of_oneStretch (htopology : Topology functions)
    (hconf : ∀ hw ∈ functions.toList,
      ConformingBars hw.cfg hw.headerType (headerBars hw.headerType))
    (hregions : SoundRegions s.pcie) (hexact : ∀ k, k ≠ .io → RoomExactAlong k s.pcie functions)
    (h : enumerate functions s = .ok (bus, configured) s')
    (hstretch : ∀ k, k ≠ .io → Arena.OneStretch .bar (machineRequests k s.pcie functions)) :
    BarsApart configured := by
  refine barsApart_of_cross htopology hconf hregions.fits hexact h hstretch
    fun bar hbar bar' hbar' hkind hkind' => ?_
  -- BARs of different kinds lie in different regions
  obtain ⟨res, hres, hlow, hhigh, -⟩ := block_mem_arena (by decide) htopology hconf
    (hregions.fits .mem) (hexact .mem (by decide)) h hbar hkind
  obtain ⟨res', hres', hlow', hhigh', -⟩ := block_mem_arena (by decide) htopology hconf
    (hregions.fits .prefetch) (hexact .prefetch (by decide)) h hbar' hkind'
  have hdisjoint := hregions.disjoint res hres res' hres'
  unfold PciRegion.Disjoint at hdisjoint
  unfold Block.Apart PciBarInfo.block
  dsimp only
  omega

/-- Where the start of a region suits everything that is taken from it and no expansion ROM takes part,
two stretches that take a BAR both take it at the start. -/
theorem oneStretch_of_barsApart (htopology : Topology functions)
    (hconf : ∀ hw ∈ functions.toList,
      ConformingBars hw.cfg hw.headerType (headerBars hw.headerType)) {k : RegionKind} (hk : k ≠ .io)
    (hfits : ∀ res ∈ s.pcie.select.chosen k, res.Fits) (hexact : RoomExactAlong k s.pcie functions)
    (h : enumerate functions s = .ok (bus, configured) s')
    (hnatural : (machineArena k s.pcie).Natural (machineRequests k s.pcie functions))
    (hrom : ∀ hw ∈ functions.toList, romResponse hw.cfg hw.headerType = 0)
    (hapart : BarsApart configured) :
    Arena.OneStretch .bar (machineRequests k s.pcie functions) := by
  have hall := placedBars_of_enumerate hk htopology hconf hfits hexact h
  apply (machineArena k s.pcie).oneStretch_of_pairwise_apart
    (positive_of_busSized (busSized_of_mem_machineRequests hk s.pcie hconf)) hnatural
  have hbars : ∀ b ∈ (machineArena k s.pcie).blocks (machineArena k s.pcie).start
      (machineRequests k s.pcie functions), b.tag = .bar := fun b hb =>
    tag_of_mem_scanRequests (fun hw hhw => hrom hw ((toList_visibleAmong _ _).subset hhw))
      ((machineArena k s.pcie).take_mem_of_mem_blocks hb)
  rw [List.filter_eq_self.2 fun b hb => decide_eq_true (hbars b hb)] at hall
  rw [← hall, List.pairwise_map, placedBars_eq_filter hk, List.pairwise_filter]
  exact hapart.imp fun happ _ _ => happ

/-- **When memory BARs are disjoint.** They are if the region of a BAR is never set back between two
BARs that are taken from it. And only then, where the start of a region suits everything that is taken
from it and no expansion ROM takes part: two stretches that take a BAR both take it at the start. -/
theorem memoryBars_apart_of_enumerate (htopology : Topology functions)
    (hconf : ∀ hw ∈ functions.toList,
      ConformingBars hw.cfg hw.headerType (headerBars hw.headerType))
    (hregions : SoundRegions s.pcie) (hexact : ∀ k, k ≠ .io → RoomExactAlong k s.pcie functions)
    (h : enumerate functions s = .ok (bus, configured) s') :
    ((∀ k, k ≠ .io → Arena.OneStretch .bar (machineRequests k s.pcie functions)) →
        BarsApart configured) ∧
      ((∀ k, k ≠ .io → (machineArena k s.pcie).Natural (machineRequests k s.pcie functions)) →
        (∀ hw ∈ functions.toList, romResponse hw.cfg hw.headerType = 0) → BarsApart configured →
        ∀ k, k ≠ .io → Arena.OneStretch .bar (machineRequests k s.pcie functions)) := by
  constructor
  · exact barsApart_of_oneStretch htopology hconf hregions hexact h
  · intro hnatural hrom hapart k hk
    exact oneStretch_of_barsApart htopology hconf hk (hregions.fits k) (hexact k hk) h
      (hnatural k hk) hrom hapart

end Enumerate

/-! ## Two machines -/

/-- The regions of the sample controller are sound. -/
theorem sampleEnum_sound : SoundRegions sampleEnum.pcie := by
  refine ⟨fun k => ?_, by decide +kernel⟩
  cases k <;> decide +kernel

/-- The region of the sample controller lies in the upper half of the bus. -/
theorem sampleEnum_exact {functions : Forest HwFunction}
    (hconf : ∀ hw ∈ functions.toList,
      ConformingBars hw.cfg hw.headerType (headerBars hw.headerType)) (k : RegionKind) (hk : k ≠ .io) :
    RoomExactAlong k sampleEnum.pcie functions := by
  refine everyStep_exact_of_high (busSized_of_mem_machineRequests hk _ hconf)
    (sampleEnum_sound.fits k) ?_ (regionArena_start_le _)
  cases k <;> decide +kernel

/-- The BARs of the quiet machine are conforming. -/
theorem quietMachine_conforming : ∀ hw ∈ quietMachine.toList,
    ConformingBars hw.cfg hw.headerType (headerBars hw.headerType) := by
  decide +kernel

/-- In the quiet machine everything is taken on the last bus. -/
theorem quietMachine_settled (k : RegionKind) :
    Arena.Settled (machineRequests k sampleEnum.pcie quietMachine) := by
  have hsplit : machineRequests k sampleEnum.pcie quietMachine
      = [.round (2 ^ 20), .rewind, .round (2 ^ 20), .rewind]
        ++ (machineRequests k sampleEnum.pcie quietMachine).drop 4 := by
    cases k <;> decide +kernel
  rw [hsplit]
  refine Arena.settled_append (by simp) ?_
  cases k <;> decide +kernel

/-- The two functions of the quiet machine have BARs of their own. -/
theorem memoryBars_apart_quiet : ∃ bus configured s',
    enumerate quietMachine sampleEnum = .ok (bus, configured) s' ∧ BarsApart configured := by
  obtain ⟨bus, configured, s', hok⟩ := quietMachine_ok
  have hspec := memoryBars_apart_of_enumerate quietMachine_topology quietMachine_conforming
    sampleEnum_sound (sampleEnum_exact quietMachine_conforming) hok
  exact ⟨bus, configured, s', hok, hspec.1 fun k _ => (quietMachine_settled k).oneStretch .bar⟩

/-- **Memory BARs can overlap.** In the sample machine the bridge and the function behind it get the
same addresses. -/
theorem memoryBars_overlap : ∃ bus configured s',
    Topology sampleMachine ∧
      (∀ hw ∈ sampleMachine.toList,
        ConformingBars hw.cfg hw.headerType (headerBars hw.headerType)) ∧
      SoundRegions sampleEnum.pcie ∧
      enumerate sampleMachine sampleEnum = .ok (bus, configured) s' ∧ ¬ BarsApart configured := by
  obtain ⟨bus, configured, s', hok⟩ := sampleMachine_ok
  refine ⟨bus, configured, s', sampleMachine_topology, by decide +kernel, sampleEnum_sound, hok,
    ?_⟩
  have hblocks : (match enumerate sampleMachine sampleEnum with
      | .ok r _ => (memoryBars r.2).map PciBarInfo.block
      | .error _ _ => []) = [⟨0xc0000000, 0x1000, .bar⟩, ⟨0xc0000000, 0x1000, .bar⟩] := by
    decide +kernel
  rw [hok] at hblocks
  have hbars : (memoryBars configured).map PciBarInfo.block
      = [⟨0xc0000000, 0x1000, .bar⟩, ⟨0xc0000000, 0x1000, .bar⟩] := hblocks
  intro hapart
  have hpairs := List.pairwise_map.2 hapart
  rw [hbars] at hpairs
  have hfirst := (List.pairwise_cons.1 hpairs).1 _ List.mem_cons_self
  revert hfirst
  unfold Block.Apart
  decide

end BcmPcie
