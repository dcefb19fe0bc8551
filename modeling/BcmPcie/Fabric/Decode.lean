import BcmPcie.Enumeration.Spans
import BcmPcie.Lifecycle.CachedView

/-! # What a configured function decodes

The memory transactions that a function answers and a bridge takes over, as their registers have it:
the command register, the BARs and the windows. Behind enumeration these registers hold what the
record of the function says.

* `memoryAnswers`, `memoryForwards` — the decoders of a function.
* `recordsSized_of_enumerate` — a memory BAR that is recorded is one of the function, rightly sized.
* `memoryAnswers_eq` — the addresses a function answers are those recorded for its BARs.
* `Scan.bridgesForward` — a bridge behind a scan forwards in both directions. -/

namespace BcmPcie

variable {σ : Type}

/-! ## Decoders -/

/-- A byte of a BAR: the function, the slot and the offset. -/
structure BarByte where
  function : ConfiguredFunction
  slot : ℕ
  offset : ℕ

/-- Bit 1 of the command register. -/
def memoryOn (dev : PciDevice) : Bool := (pciReadConfig16 dev pciCommand).getLsbD 1

/-- Bit 2 of the command register. -/
def masterOn (dev : PciDevice) : Bool := (pciReadConfig16 dev pciCommand).getLsbD 2

/-- The bytes that a function with the BARs of `layout` answers a memory transaction at `x` with: with
memory decoding on, those of the BARs whose address bits hold it. -/
def memoryAnswers (layout : ∀ f : ConfiguredFunction, BarLayout f.dev.barsNum) (x : ℕ)
    (f : ConfiguredFunction) : List BarByte :=
  if memoryOn f.dev then
    (List.range f.dev.barsNum).filterMap fun slot =>
      ((layout f).bar slot).bind fun b =>
        let held := (heldAddress f.dev slot b.decoder).toNat
        if b.decoder.type = .mem ∧ held ≤ x ∧ x < held + 2 ^ b.log2 then some ⟨f, slot, x - held⟩
        else none
  else []

/-- The memory windows of a bridge hold an address. -/
def InMemoryWindow (dev : PciDevice) (x : ℕ) : Prop :=
  (memoryBase dev ≤ x ∧ x < memoryEnd dev) ∨ (prefetchBase dev ≤ x ∧ x < prefetchEnd dev)

instance (dev : PciDevice) (x : ℕ) : Decidable (InMemoryWindow dev x) :=
  inferInstanceAs (Decidable (_ ∨ _))

/-- A bridge takes a memory transaction at `x` over to the bus behind it. -/
def memoryForwards (x : ℕ) (f : ConfiguredFunction) : Bool :=
  decide f.IsBridge && memoryOn f.dev && decide (InMemoryWindow f.dev x)

/-- A bridge with memory on forwards what lies in one of its windows. -/
theorem memoryForwards_iff {x : ℕ} {f : ConfiguredFunction} :
    memoryForwards x f = true ↔ f.IsBridge ∧ memoryOn f.dev = true ∧ InMemoryWindow f.dev x := by
  unfold memoryForwards
  rw [Bool.and_eq_true, Bool.and_eq_true, decide_eq_true_eq, decide_eq_true_eq, and_assoc]

/-- A window of one kind, as one of the two. -/
theorem inMemoryWindow_of_kind {k : RegionKind} (hk : k ≠ .io) {dev : PciDevice} {x : ℕ}
    (h : windowStart k dev ≤ x ∧ x < windowEnd k dev) : InMemoryWindow dev x := by
  cases k with
  | io => exact absurd rfl hk
  | mem => exact Or.inl h
  | prefetch => exact Or.inr h

/-- What a bridge forwards lies in the window of one kind of memory. -/
theorem exists_kind_of_inMemoryWindow {dev : PciDevice} {x : ℕ} (h : InMemoryWindow dev x) :
    ∃ k, k ≠ .io ∧ windowStart k dev ≤ x ∧ x < windowEnd k dev := by
  rcases h with h | h
  · exact ⟨.mem, by decide, h⟩
  · exact ⟨.prefetch, by decide, h⟩

/-! ## The BARs that are recorded -/

/-- What is recorded of memory BARs is right: a record of one is that of a BAR of the function, with its
size, and a BAR that is recorded is of its own type. -/
structure RecordsSized {barsNum : ℕ} (layout : BarLayout barsNum) (dev : PciDevice) : Prop where
  size : ∀ slot, (dev.bars slot).present = true → (dev.bars slot).type = .mem →
    ∃ b ∈ layout.bar slot, b.decoder.type = .mem ∧ (dev.bars slot).size.toNat = 2 ^ b.log2
  type : ∀ slot, (dev.bars slot).present = true → ∀ b ∈ layout.bar slot,
    (dev.bars slot).type = b.decoder.type

/-- The memory BARs of a function have less than 4 GiB. -/
def SmallBars {barsNum : ℕ} (layout : BarLayout barsNum) : Prop :=
  ∀ slot, ∀ b ∈ layout.bar slot, b.decoder.type = .mem → b.log2 < 32

section Setup

variable {pcie : PciController σ} {dev : PciDevice} {regions : RegionKind → Option ℕ}

/-- The register of a slot that got an address in memory is a BAR of the function. -/
theorem exists_bar_of_memory_granted (hnum : dev.barsNum ≤ 6) {layout : BarLayout dev.barsNum}
    (hlayout : LaidOut dev.cfg layout) (hsmall : SmallBars layout) {s : ℕ} {st : SetupState σ}
    (h : (s, st) ∈ deviceRounds pcie dev regions) (hgrant : (barGrant regions st s).isSome = true)
    (hmem : isIoBar (barResponse dev.cfg s) = false) :
    ∃ b ∈ layout.bar s, b.decoder.type = .mem := by
  obtain ⟨-, hs, hdev, -, -⟩ := mem_barRounds hnum h
  have hresponse : barResponse st.dev.cfg s = barResponse dev.cfg s := hdev.response _ _ _
  unfold barGrant at hgrant
  dsimp only at hgrant
  rw [hresponse] at hgrant
  cases hb : layout.bar s with
  | some b =>
    refine ⟨b, rfl, ?_⟩
    rw [(hlayout.bar hb).barResponse] at hmem
    cases htype : b.decoder.type with
    | mem => rfl
    | io =>
      rw [b.isIoBar_response.2 htype] at hmem
      cases hmem
  | none =>
    -- the other registers answer nothing, or all ones as the upper half of a BAR
    exfalso
    cases hupper : layout.isUpper s with
    | false =>
      rw [if_pos (Or.inl (hlayout.empty hs hb hupper))] at hgrant
      cases hgrant
    | true =>
      cases s with
      | zero => cases hupper
      | succ s =>
        obtain ⟨b, hb, h64⟩ := (Option.any_eq_true _ _).1 hupper
        have htype : b.decoder.type = .mem := by
          revert h64
          cases b.decoder <;> simp [BarDecoder.is64, BarDecoder.type]
        rw [if_pos (Or.inr (barResponse_upper (hlayout.bar hb) h64 (hsmall s b hb htype).le))]
          at hgrant
        cases hgrant

/-- Behind its set-up, what is recorded of the memory BARs of a function is right. -/
theorem recordsSized_setup (bridges : List PciDevice) (hnum : dev.barsNum ≤ 6) {barsNum : ℕ}
    (hslots : dev.barsNum = barsNum) {layout : BarLayout barsNum} (hlayout : LaidOut dev.cfg layout)
    (hsmall : SmallBars layout) (hfresh : ∀ slot, (dev.bars slot).present = false) :
    RecordsSized layout (pciautoSetupDevice pcie bridges dev regions).2 := by
  subst hslots
  refine ⟨fun slot hpresent htype => ?_, fun slot hpresent b hb => ?_⟩
  · obtain ⟨st, addr, pcie', hround, hgrant⟩ := exists_round_of_present bridges hnum hfresh hpresent
    have hsome : (barGrant regions st slot).isSome = true := by
      rw [hgrant]
      rfl
    have hmem : isIoBar (barResponse dev.cfg slot) = false := by
      rw [(granted_outcome bridges hnum hround hgrant).1] at htype
      cases hio : isIoBar (barResponse dev.cfg slot) with
      | false => rfl
      | true =>
        rw [hio] at htype
        cases htype
    obtain ⟨b, hb, hbtype⟩ := exists_bar_of_memory_granted hnum hlayout hsmall hround hsome hmem
    have hio : b.decoder ≠ .io16 := fun h => by
      rw [h] at hbtype
      cases hbtype
    exact ⟨b, hb, hbtype,
      (sizedBar_of_granted bridges hnum hlayout hround hsome hb hio (hsmall slot b hb hbtype)).size⟩
  · obtain ⟨st, addr, pcie', hround, hgrant⟩ := exists_round_of_present bridges hnum hfresh hpresent
    rw [(granted_outcome bridges hnum hround hgrant).1, (hlayout.bar hb).barResponse]
    show (if isIoBar b.response = true then BarType.io else .mem) = _
    by_cases htype : b.decoder.type = .io
    · rw [if_pos (b.isIoBar_response.2 htype), htype]
    · rw [if_neg fun h => htype (b.isIoBar_response.1 h)]
      cases ht : b.decoder.type with
      | io => exact absurd ht htype
      | mem => rfl

/-- A function that a scan has set up. -/
theorem recordsSized_record {pcie pcie₁ : PciController σ} {bridges : List PciDevice} {hw : HwFunction}
    {b : ℕ} {dev : PciDevice}
    (h : pciautoSetupDevice pcie bridges (hw.record b) pcie.ptr = (pcie₁, dev)) {barsNum : ℕ}
    {layout : BarLayout barsNum} (hslots : dev.barsNum = barsNum) (hlaid : LaidOut dev.cfg layout)
    (hsmall : SmallBars layout) : RecordsSized layout dev := by
  have hnum := record_barsNum hw b
  have hframe := (pciautoSetupDevice_frame pcie bridges hnum pcie.ptr).2
  have hsized := @recordsSized_setup _ pcie (hw.record b) pcie.ptr bridges hnum
  rw [h] at hframe hsized
  have hrecord : dev = { hw.record b with
      cfg := dev.cfg, bars := dev.bars, intx := dev.intx, msi := dev.msi, msix := dev.msix } :=
    hframe.record
  have hnumbers : (hw.record b).barsNum = dev.barsNum := by rw [hrecord]
  exact hsized (hnumbers.trans hslots) (hlaid.congr hframe.device.symm) hsmall fun _ => rfl

end Setup

/-- **What enumeration records of memory BARs is right.** -/
theorem recordsSized_of_enumerate {functions : Forest HwFunction} {bus : PciBus}
    {configured : Forest ConfiguredFunction} {e e' : EnumState σ} (htopology : Topology functions)
    (h : enumerate functions e = .ok (bus, configured) e') :
    ∀ f ∈ configured.toList, ∀ (barsNum : ℕ) (layout : BarLayout barsNum),
      ConformingFunction layout f.dev → SmallBars layout → RecordsSized layout f.dev := by
  refine (scan_of_enumerate htopology h).forall_functions
    (fun _ hsetup barsNum layout hconf hsmall =>
      recordsSized_record hsetup hconf.slots hconf.bars hsmall)
    fun {pcie pcie₁ bridges b dev hw} pcie₂ lastSub hclass hsetup barsNum layout hconf hsmall => ?_
  -- the scan behind a bridge leaves its record of BARs
  have hwritten := @scannedBridge_rewritten _ pcie₁.nextBus pcie₂ pcie₁.nextBus.busNumberLast lastSub
    hw.link { dev with activated := true }
  dsimp only at hconf ⊢
  generalize scannedBridge pcie₁.nextBus pcie₂ pcie₁.nextBus.busNumberLast lastSub hw.link
    { dev with activated := true } = final at hwritten hconf ⊢
  have hrecord : final = { dev with activated := true, cfg := final.cfg } := hwritten.record
  have hbars : final.bars = dev.bars := by rw [hrecord]
  have hslots : dev.barsNum = final.barsNum := by rw [hrecord]
  have hdev := recordsSized_record hsetup (hslots.trans hconf.slots)
    (hconf.bars.congr hwritten.device.symm) hsmall
  exact ⟨by rw [hbars]; exact hdev.size, by rw [hbars]; exact hdev.type⟩

/-! ## The addresses that are answered -/

/-- The BAR of a slot is a recorded memory BAR that holds `x`. -/
def HoldsByte (dev : PciDevice) (x slot : ℕ) : Prop :=
  (dev.bars slot).present = true ∧ (dev.bars slot).type = .mem ∧
    (dev.bars slot).busAddr.toNat ≤ x ∧
    x < (dev.bars slot).busAddr.toNat + (dev.bars slot).size.toNat

instance (dev : PciDevice) (x slot : ℕ) : Decidable (HoldsByte dev x slot) :=
  inferInstanceAs (Decidable (_ ∧ _))

/-- The bytes at `x` in the recorded memory BARs of a function. -/
def recordedBytes (x : ℕ) (f : ConfiguredFunction) : List BarByte :=
  (List.range f.dev.barsNum).filterMap fun slot =>
    if HoldsByte f.dev x slot then some ⟨f, slot, x - (f.dev.bars slot).busAddr.toNat⟩ else none

/-- The memory BARs of a function have all got an address. -/
def BarsPlaced {barsNum : ℕ} (layout : BarLayout barsNum) (dev : PciDevice) : Prop :=
  ∀ slot, ∀ b ∈ layout.bar slot, b.decoder.type = .mem → (dev.bars slot).present = true

/-- **What a function answers.** If its memory BARs are all recorded, rightly sized, and its registers
hold what is recorded, a function answers just the addresses of its recorded memory BARs. -/
theorem memoryAnswers_eq {layout : ∀ f : ConfiguredFunction, BarLayout f.dev.barsNum}
    {f : ConfiguredFunction} (hview : HeaderView (layout f) f.dev)
    (hsized : RecordsSized (layout f) f.dev) (hplaced : BarsPlaced (layout f) f.dev) (x : ℕ) :
    memoryAnswers layout x f = recordedBytes x f := by
  unfold memoryAnswers recordedBytes
  by_cases hon : memoryOn f.dev = true
  · rw [if_pos hon]
    refine List.filterMap_congr fun slot _ => ?_
    cases hb : (layout f).bar slot with
    | none =>
      -- nothing is recorded for a slot without a BAR
      refine (if_neg fun hholds => ?_).symm
      obtain ⟨b, hb', -⟩ := hsized.size slot hholds.1 hholds.2.1
      rw [hb] at hb'
      cases hb'
    | some b =>
      rw [Option.bind_some]
      dsimp only
      by_cases htype : b.decoder.type = .mem
      · -- the address in the registers of a memory BAR is the one that is recorded
        have hpresent := hplaced slot b hb htype
        have hmem := (hsized.type slot hpresent b hb).trans htype
        obtain ⟨b', hb', -, hsize⟩ := hsized.size slot hpresent hmem
        obtain rfl : b = b' := Option.some.inj (hb.symm.trans hb')
        have hheld : (heldAddress f.dev slot b.decoder).toNat
            = (f.dev.bars slot).busAddr.toNat := by
          rw [hview.bars slot b hb hpresent fun hio => by rw [hio] at htype; cases htype]
          exact BitVec.toNat_setWidth_of_le (by decide)
        rw [hheld, ← hsize]
        exact if_congr ⟨fun h => ⟨hpresent, hmem, h.2⟩, fun h => ⟨htype, h.2.2⟩⟩ rfl rfl
      · rw [if_neg fun h => htype h.1, if_neg fun hholds => ?_]
        obtain ⟨b', hb', htype', -⟩ := hsized.size slot hholds.1 hholds.2.1
        obtain rfl : b = b' := Option.some.inj (hb.symm.trans hb')
        exact htype htype'
  · rw [if_neg hon, eq_comm, List.filterMap_eq_nil_iff]
    intro slot _
    exact if_neg fun hholds => hon (hview.memory slot hholds.1 hholds.2.1)

/-! ## Bridges -/

/-- Opening the windows takes no bits of the command value back. -/
theorem prescan_keeps (prefetchable64 : BitVec 16) (io32 : BitVec 8) (st : SetupState σ) {i : ℕ}
    (h : st.command.getLsbD i = true) :
    (prescanIo io32 (prescanPrefetch prefetchable64 st)).command.getLsbD i = true := by
  have hprefetch : (prescanPrefetch prefetchable64 st).command.getLsbD i = true := by
    unfold prescanPrefetch
    split
    · dsimp only
      split <;> exact h
    · rw [BitVec.getLsbD_or, h, Bool.true_or]
  generalize prescanPrefetch prefetchable64 st = st₂ at hprefetch ⊢
  unfold prescanIo
  split
  · dsimp only
    split <;> exact hprefetch
  · rw [BitVec.getLsbD_or, hprefetch, Bool.true_or]

/-- The command register of a bridge can turn on memory and bus mastering. -/
def CanForward (cfg : RegisterFile 4096) : Prop :=
  cfg.Writable 16 pciCommand (pciCommandMemory ||| pciCommandMaster)

/-- A bridge whose windows have been opened with a region of memory forwards in both directions. -/
theorem scannedBridge_forwards {pcie pcie' : PciController σ} {busNumber lastSub : ℕ}
    {link : LinkAnswers} {dev : PciDevice} {res : PciRegion} (hmem : pcie.chosen .mem = some res)
    (hcan : CanForward dev.cfg) :
    memoryOn (scannedBridge pcie pcie' busNumber lastSub link dev) = true ∧
      masterOn (scannedBridge pcie pcie' busNumber lastSub link dev) = true := by
  have hdevice : dev.cfg.SameDevice (pciautoPrescanSetupBridge pcie busNumber link dev).2.cfg :=
    (pciautoPrescanSetupBridge_rewritten pcie busNumber link dev).2.2.2.device
  have hread : pciReadConfig16 (scannedBridge pcie pcie' busNumber lastSub link dev) pciCommand
      = pciReadConfig16 (pciautoPrescanSetupBridge pcie busNumber link dev).2 pciCommand :=
    (pciautoPostscanSetupBridge_rewritten pcie' lastSub
      (pciautoPrescanSetupBridge pcie busNumber link dev).2).2.2.2.read (by decide)
  unfold memoryOn masterOn
  rw [hread]
  unfold pciautoPrescanSetupBridge at hdevice ⊢
  dsimp only at hdevice ⊢
  -- the memory window has put the memory bit into the command value
  have hcommand : (prescanMem (⟨pcie, prescanBusNumbers pcie busNumber dev,
      pciReadConfig16 dev pciCommand⟩ : SetupState σ)).command.getLsbD 1 = true := by
    unfold prescanMem
    dsimp only
    rw [hmem]
    dsimp only
    rw [BitVec.getLsbD_or, show pciCommandMemory.getLsbD 1 = true by decide, Bool.or_true]
  generalize prescanMem _ = st at hcommand hdevice ⊢
  have hkept := prescan_keeps (pciReadConfig16 dev pciPrefMemoryBase &&& pciPrefRangeTypeMask)
    (pciReadConfig8 dev pciIoBase &&& pciIoRangeTypeMask) st hcommand
  generalize prescanIo _ _ = st' at hkept hdevice ⊢
  generalize prescanLink link st'.dev = dev₁ at hdevice ⊢
  have hrw {i : ℕ} (hi : i < 16) (hbit : (pciCommandMemory ||| pciCommandMaster).getLsbD i = true) :
      dev₁.cfg.rw.getLsbD (8 * pciCommand + i) = true := by
    have hcan' := hdevice.writable.2 hcan i hi hbit
    unfold pciWriteConfig16 pciWriteConfig at hcan'
    rwa [if_neg (by decide)] at hcan'
  constructor
  · refine (getLsbD_pciReadConfig_write dev₁ _ (by decide) (by decide)).trans ?_
    rw [if_pos (hrw (by decide) (by decide)), BitVec.getLsbD_or, hkept, Bool.true_or]
  · refine (getLsbD_pciReadConfig_write dev₁ _ (by decide) (by decide)).trans ?_
    rw [if_pos (hrw (by decide) (by decide)), BitVec.getLsbD_or,
      show pciCommandMaster.getLsbD 2 = true by decide, Bool.or_true]

/-- **The bridges of a scan** forward memory transactions in both directions, if there is a region of
memory. -/
theorem Scan.bridgesForward {b last last' : ℕ} {bridges : List PciDevice}
    {pcie pcie' : PciController σ} {functions : Forest HwFunction}
    {configured : Forest ConfiguredFunction}
    (h : Scan b bridges pcie last functions configured pcie' last')
    (hcan : ∀ hw ∈ functions.toList, hw.isBridge = true → CanForward hw.cfg)
    (hsel : pcie.Selected) (hmem : pcie.ptr .mem ≠ none) :
    ∀ f ∈ configured.toList, f.secondary.isSome → memoryOn f.dev = true ∧ masterOn f.dev = true := by
  -- on the scan: the choice of the regions never changes, so every bridge sees one of memory
  induction h with
  | nil =>
    intro f hf
    cases hf
  | leaf _ hsetup _ ih =>
    have hsame := sameChoice_setup hsel hsetup
    intro f hf hsome
    rcases List.mem_cons.1 hf with rfl | hf
    · cases hsome
    · exact ih (fun g hg => hcan g (List.mem_cons_of_mem _ hg)) hsame.selected
        (by rwa [hsame.ptr]) f hf hsome
  | @bridge b bridges pcie last hw children siblings below rest pcie₁ dev pcie₂ lastSub pcie' last'
      hclass hsetup hscan _ ihb ihr =>
    have hsame₁ := sameChoice_setup hsel hsetup
    have hnext := sameChoice_nextBus hsame₁.selected
    have hsame₂ := hsame₁.trans (sameChoice_into hsame₁.selected)
    have hsame₃ := hsame₂.trans (hscan.sameChoice hsame₂.selected)
    have hsame₄ := hsame₃.trans ((onlyRegions_alignWindows pcie₂).sameChoice hsame₃.selected)
    intro f hf hsome
    rcases List.mem_cons.1 hf with rfl | hf
    · have hptr : pcie₁.nextBus.ptr .mem ≠ none := by rwa [(hsame₁.trans hnext).ptr]
      obtain ⟨res, hres⟩ := Option.ne_none_iff_exists'.1 fun hnone =>
        hptr (ptr_eq_none_of_chosen hnext.selected hnone)
      exact scannedBridge_forwards hres
        ((setup_record hsetup).2.2.writable.2 (hcan hw List.mem_cons_self hclass))
    · rcases List.mem_append.1 hf with hf | hf
      · exact ihb (fun g hg => hcan g (List.mem_cons_of_mem _ (List.mem_append_left _ hg)))
          hsame₂.selected (by rwa [hsame₂.ptr]) f hf hsome
      · exact ihr (fun g hg => hcan g (List.mem_cons_of_mem _ (List.mem_append_right _ hg)))
          hsame₄.selected (by rwa [hsame₄.ptr]) f hf hsome

end BcmPcie
