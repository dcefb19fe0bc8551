import BcmPcie.Enumeration.EveryBar

/-! # Where the CPU sees a BAR

`pciauto_setup_device` keeps the CPU's address of a memory BAR, and the 68k's, as they are translated at
the moment the BAR is placed. The pointers of the allocators move on after that, and a translation does
not look at them.

* `SameMap` — controllers that translate alike.
* `TranslatedBar` — a BAR is kept with the translations of its bus address.
* `translated_of_enumerate` — so are all BARs of a machine. -/

namespace BcmPcie

variable {σ : Type}

/-! ## Controllers that translate alike -/

/-- A region without its allocation pointer. -/
def PciRegion.span (res : PciRegion) : PciRegion := { res with busLower := 0 }

/-- The region tables differ in allocation pointers at most, and the aperture is the same. -/
structure SameMap (pcie pcie' : PciController σ) : Prop where
  spans : pcie'.regions.map PciRegion.span = pcie.regions.map PciRegion.span
  windowPhys : pcie'.mmioWindowPhys = pcie.mmioWindowPhys
  windowVirtual : pcie'.mmioWindowVirtual = pcie.mmioWindowVirtual
  windowSize : pcie'.mmioWindowSize = pcie.mmioWindowSize

namespace SameMap

variable {pcie pcie' pcie'' : PciController σ}

/-- Doing nothing keeps the map. -/
theorem refl (pcie : PciController σ) : SameMap pcie pcie := ⟨rfl, rfl, rfl, rfl⟩

/-- Two steps that keep the map keep it together. -/
theorem trans (h : SameMap pcie pcie') (h' : SameMap pcie' pcie'') : SameMap pcie pcie'' :=
  ⟨h'.spans.trans h.spans, h'.windowPhys.trans h.windowPhys, h'.windowVirtual.trans h.windowVirtual,
    h'.windowSize.trans h.windowSize⟩

/-- A region is changed in its pointer alone. -/
theorem updateRegion (p : Option ℕ) {f : PciRegion → PciRegion}
    (hf : ∀ i res, p = some i → pcie.regions[i]? = some res → (f res).span = res.span) :
    SameMap pcie (pcie.updateRegion p f) := by
  cases p with
  | none => exact refl pcie
  | some i =>
    refine ⟨?_, rfl, rfl, rfl⟩
    apply List.ext_getElem?
    intro n
    simp only [PciController.updateRegion, List.getElem?_map, List.getElem?_modify]
    cases hn : pcie.regions[n]? with
    | none => rfl
    | some res =>
      by_cases hi : i = n
      · subst hi
        simp [hf i res rfl hn]
      · simp [hi]

/-- Taking a block from a region keeps the map. -/
theorem allocate {p : Option ℕ} {size addr : BitVec 32} {supports64bit : Bool}
    (h : pcie.allocate p size supports64bit = some (addr, pcie')) : SameMap pcie pcie' := by
  obtain ⟨res, lower, hres, rfl⟩ := PciController.allocate_eq_some h
  refine updateRegion p fun i res' hi hres' => ?_
  unfold PciController.region at hres
  rw [hi, Option.bind_some, hres'] at hres
  rw [Option.some.inj hres]
  rfl

/-- `pciauto_config_init` keeps the map. -/
theorem configInit (pcie : PciController σ) : SameMap pcie (pciautoConfigInit pcie) := by
  have hselect : SameMap pcie pcie.select := ⟨rfl, rfl, rfl, rfl⟩
  have hinit (q : PciController σ) (p : Option ℕ) : SameMap q (q.updateRegion p pciautoRegionInit) :=
    updateRegion p fun _ _ _ _ => rfl
  rw [pciautoConfigInit_eq]
  exact ((hselect.trans (hinit _ _)).trans (hinit _ _)).trans (hinit _ _)

/-- Aligning the regions keeps the map. -/
theorem alignWindows (pcie : PciController σ) : SameMap pcie pcie.alignWindows := by
  have halign (q : PciController σ) (p : Option ℕ) (size : BitVec 32) :
      SameMap q (q.updateRegion p (pciautoRegionAlign · size)) :=
    updateRegion p fun _ _ _ _ => rfl
  exact ((halign _ _ _).trans (halign _ _ _)).trans (halign _ _ _)

/-- Giving out a bus number keeps the map. -/
theorem nextBus (pcie : PciController σ) : SameMap pcie pcie.nextBus := ⟨rfl, rfl, rfl, rfl⟩

/-- A translation sees the spans of the regions alone. -/
theorem busToPhys_span (pcie : PciController σ) (busAddr : BitVec 32) (len : BitVec 64)
    (mask flags : BitVec 32) :
    pciBusToPhys { pcie with regions := pcie.regions.map PciRegion.span } busAddr len mask flags
      = pciBusToPhys pcie busAddr len mask flags := by
  unfold pciBusToPhys
  dsimp only
  rw [List.length_map, List.find?_map]
  have htest : (fun res : PciRegion => decide (res.flags &&& mask = flags ∧ ¬ busAddr < res.busStart ∧
      ¬ res.size ≤ busAddr - res.busStart ∧
      ¬ (res.size - (busAddr - res.busStart)).setWidth 64 < len)) ∘ PciRegion.span
      = fun res : PciRegion => decide (res.flags &&& mask = flags ∧ ¬ busAddr < res.busStart ∧
        ¬ res.size ≤ busAddr - res.busStart ∧
        ¬ (res.size - (busAddr - res.busStart)).setWidth 64 < len) := rfl
  rw [htest]
  cases pcie.regions.find? _ <;> rfl

/-- With the same map a bus address has the same physical address. -/
theorem busToPhys (h : SameMap pcie pcie') (busAddr : BitVec 32) (len : BitVec 64)
    (mask flags : BitVec 32) :
    pciBusToPhys pcie' busAddr len mask flags = pciBusToPhys pcie busAddr len mask flags := by
  rw [← busToPhys_span pcie', ← busToPhys_span pcie, h.spans]
  rfl

/-- And the same virtual address. -/
theorem busToVirt (h : SameMap pcie pcie') (busAddr : BitVec 32) (len : BitVec 64)
    (mask flags : BitVec 32) :
    pciBusToVirt pcie' busAddr len mask flags = pciBusToVirt pcie busAddr len mask flags := by
  unfold pciBusToVirt
  rw [h.busToPhys, h.windowPhys, h.windowVirtual, h.windowSize]

end SameMap

/-! ## BARs -/

/-- The length a BAR is translated with. -/
def PciBarInfo.len (bar : PciBarInfo) : BitVec 64 :=
  if bar.size = 0 then 1#64 else bar.size.setWidth 64

/-- A memory BAR that is present is kept with the translations of its bus address. -/
def TranslatedBar (pcie : PciController σ) (bar : PciBarInfo) : Prop :=
  bar.present = true → bar.type = .mem →
    bar.physAddr = pciBusToPhys pcie bar.busAddr bar.len pciRegionType pciRegionMem ∧
      bar.virtAddr = pciBusToVirt pcie bar.busAddr bar.len pciRegionType pciRegionMem

/-- What is kept of a BAR are its translated addresses. -/
theorem translatedBar_barInfo (pcie : PciController σ) (isIo : Bool) (sizing : BarSizing)
    (addr : BitVec 32) : TranslatedBar pcie (barInfo pcie isIo sizing addr) := by
  intro _ htype
  cases isIo with
  | true => cases htype
  | false => exact ⟨rfl, rfl⟩

/-! ## A machine -/

/-- A grant keeps the map, and gives a BAR the translations of its address. -/
theorem scanGranting_translated (pcie : PciController σ) :
    ScanGranting (SameMap pcie) (TranslatedBar pcie) where
  allocate h halloc := h.trans (.allocate halloc)
  bar h halloc := by
    intro hpresent htype
    have hmap := h.trans (.allocate halloc)
    have htranslated := translatedBar_barInfo _ _ _ _ hpresent htype
    rwa [hmap.busToPhys, hmap.busToVirt] at htranslated
  absent bar h := fun hpresent => absurd hpresent (by rw [h]; exact Bool.false_ne_true)
  nextBus h := h.trans (.nextBus _)
  alignWindows h := h.trans (.alignWindows _)
  configInit h := h.trans (.configInit _)

/-- **Every memory BAR of a machine** is kept with the translations of its bus address. -/
theorem translated_of_enumerate {functions : Forest HwFunction} {bus : PciBus}
    {configured : Forest ConfiguredFunction} {s s' : EnumState σ} (htopology : Topology functions)
    (h : enumerate functions s = .ok (bus, configured) s') :
    ∀ bar ∈ memoryBars configured,
      bar.physAddr = pciBusToPhys s.pcie bar.busAddr bar.len pciRegionType pciRegionMem ∧
        bar.virtAddr = pciBusToVirt s.pcie bar.busAddr bar.len pciRegionType pciRegionMem := by
  obtain ⟨-, hbars⟩ := (scan_of_enumerate htopology h).everyBar
    (scanGranting_translated (pciautoConfigInit s.pcie)) (.refl _)
  have hinit := SameMap.configInit s.pcie
  intro bar hbar
  obtain ⟨f, hf, slot, rfl, hpresent, htype⟩ := slot_of_mem_memoryBars hbar
  have htranslated := hbars f hf slot hpresent htype
  rwa [hinit.busToPhys, hinit.busToVirt] at htranslated

end BcmPcie
