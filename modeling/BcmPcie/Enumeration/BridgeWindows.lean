import BcmPcie.Enumeration.Bridge

/-! # The windows of a bridge

What the bus number and window registers of a bridge read as once its windows were opened and closed,
with any scan of the bus behind it in between. A window runs from the pointer before the scan to the
pointer after it, both rounded up to 1 MiB.

* `scanned_busNumbers` — the primary, secondary and subordinate bus numbers.
* `scanned_memoryWindow`, `scanned_prefetchWindow` — the two memory windows. -/

namespace BcmPcie

open Bump

variable {σ : Type*}

/-! ## Windows as numbers -/

/-- A base or limit register of a memory window, without its type bits. -/
def windowField (value : BitVec 16) : ℕ := (value &&& 0xfff0#16).toNat * 65536

/-- The memory window `[memoryBase, memoryEnd)` a bridge decodes. -/
def memoryBase (dev : PciDevice) : ℕ := windowField (pciReadConfig16 dev pciMemoryBase)
def memoryEnd (dev : PciDevice) : ℕ := windowField (pciReadConfig16 dev pciMemoryLimit) + 0x100000

/-- The upper half of a prefetchable base or limit, in a bridge with 64 bits of it. -/
def upperHalf (dev : PciDevice) (register upper : ℕ) : ℕ :=
  if pciReadConfig16 dev register &&& pciPrefRangeTypeMask = pciPrefRangeType64 then
    (pciReadConfig32 dev upper).toNat * 2 ^ 32
  else 0

/-- The upper half counts only where the register says 64 bits. -/
theorem upperHalf_eq_zero {dev : PciDevice} {register upper : ℕ}
    (h : pciReadConfig16 dev register &&& pciPrefRangeTypeMask = pciPrefRangeType64 →
      pciReadConfig32 dev upper = 0) : upperHalf dev register upper = 0 := by
  unfold upperHalf
  split
  · rename_i h64
    rw [h h64]
    rfl
  · rfl

/-- The prefetchable window `[prefetchBase, prefetchEnd)` a bridge decodes. -/
def prefetchBase (dev : PciDevice) : ℕ :=
  windowField (pciReadConfig16 dev pciPrefMemoryBase)
    + upperHalf dev pciPrefMemoryBase pciPrefBaseUpper32
def prefetchEnd (dev : PciDevice) : ℕ :=
  windowField (pciReadConfig16 dev pciPrefMemoryLimit) + 0x100000
    + upperHalf dev pciPrefMemoryLimit pciPrefLimitUpper32

/-- The type bits of a window register are no part of its address. -/
theorem windowField_or (value : BitVec 16) {type : BitVec 16} (htype : type &&& 0xfff0#16 = 0) :
    windowField (value ||| type) = windowField value := by
  have hand : (value ||| type) &&& 0xfff0#16 = value &&& 0xfff0#16 := by
    rw [BitVec.and_comm, BitVec.and_or_distrib_left, BitVec.and_comm _ type, htype, BitVec.and_comm]
    simp
  unfold windowField
  rw [hand]

/-- A limit is the megabyte of the last address. -/
theorem windowLimit_eq (lower : BitVec 32) : windowLimit lower = windowBase (lower - 1) := by
  have hmask : ∀ i : Fin 16, (0xfff00000#32).getLsbD (16 + i) = (pciMemoryRangeMask).getLsbD i := by
    decide
  unfold windowLimit windowBase
  generalize lower - 1 = x
  apply BitVec.eq_of_getLsbD_eq
  intro i hi
  simp only [BitVec.getLsbD_setWidth, BitVec.getLsbD_and, BitVec.getLsbD_ushiftRight]
  rw [hmask ⟨i, hi⟩]
  cases (pciMemoryRangeMask).getLsbD i <;> simp

/-- A window register holds the megabytes of an address. -/
theorem windowField_windowBase (x : BitVec 32) (type : BitVec 16) (htype : type &&& 0xfff0#16 = 0) :
    windowField (windowBase x ||| type) = x.toNat / 2 ^ 20 * 2 ^ 20 := by
  have hshift : (windowBase x ||| type) &&& 0xfff0#16 = ((x >>> 20).setWidth 16) <<< 4 := by
    have hhigh : ∀ i : Fin 16, (0xfff00000#32).getLsbD (16 + i) = decide (4 ≤ i.val) := by decide
    have hrange : ∀ i : Fin 16, (pciMemoryRangeMask).getLsbD i = decide (4 ≤ i.val) := by decide
    have hfield : ∀ i : Fin 16, (0xfff0#16).getLsbD i = decide (4 ≤ i.val) := by decide
    apply BitVec.eq_of_getLsbD_eq
    intro i hi
    have hbit : (type &&& 0xfff0#16).getLsbD i = false := by rw [htype]; simp
    rw [BitVec.getLsbD_and, hfield ⟨i, hi⟩] at hbit
    simp only [windowBase, BitVec.getLsbD_and, BitVec.getLsbD_or, BitVec.getLsbD_setWidth,
      BitVec.getLsbD_ushiftRight, BitVec.getLsbD_shiftLeft, hhigh ⟨i, hi⟩, hrange ⟨i, hi⟩,
      hfield ⟨i, hi⟩]
    by_cases h4 : 4 ≤ i
    · have hsum : 20 + (i - 4) = 16 + i := by omega
      have hlt : ¬ i < 4 := by omega
      have htypeBit : type.getLsbD i = false := by simpa [h4] using hbit
      rw [htypeBit]
      simp [h4, hi, hsum, hlt, show i - 4 < 16 by omega]
    · have hlt : i < 4 := by omega
      simp [h4, hlt]
  have hlt : x.toNat / 2 ^ 20 < 2 ^ 12 := by
    have := x.isLt
    omega
  unfold windowField
  rw [hshift, BitVec.toNat_shiftLeft, BitVec.toNat_setWidth, BitVec.toNat_ushiftRight,
    Nat.shiftRight_eq_div_pow, Nat.shiftLeft_eq]
  omega

/-! ## The registers after a scan -/

/-- A bridge implements its bus number registers in full. -/
def BusNumberRegisters (cfg : RegisterFile 4096) : Prop :=
  ∀ r ∈ [pciPrimaryBus, pciSecondaryBus, pciSubordinateBus], cfg.Writable 8 r (BitVec.allOnes 8)

/-- Whether the bus numbers can be written is a property of the hardware. -/
theorem BusNumberRegisters.of_sameDevice {cfg cfg' : RegisterFile 4096}
    (hconf : BusNumberRegisters cfg) (h : cfg.SameDevice cfg') : BusNumberRegisters cfg' :=
  fun r hr => h.writable.2 (hconf r hr)

/-- The registers that hold the two ends of a window. -/
def windowRegisters : RegionKind → List ℕ
  | .io => []
  | .mem => [pciMemoryBase, pciMemoryLimit]
  | .prefetch => [pciPrefMemoryBase, pciPrefMemoryLimit]

/-- A bridge implements its window for regions of kind `k`: the addresses of both ends, and for the
prefetchable window upper halves that can be cleared. -/
structure WindowRegisters (cfg : RegisterFile 4096) (k : RegionKind) : Prop where
  ends : ∀ r ∈ windowRegisters k, cfg.Writable 16 r 0xfff0#16
  upper : k = .prefetch → ∀ r ∈ [pciPrefBaseUpper32, pciPrefLimitUpper32], cfg.response 32 r 0 = 0

/-- What a bridge implements of a window does not depend on what is in its registers. -/
theorem WindowRegisters.of_sameDevice {cfg cfg' : RegisterFile 4096} {k : RegionKind}
    (hconf : WindowRegisters cfg k) (h : cfg.SameDevice cfg') : WindowRegisters cfg' k :=
  ⟨fun _ hr => h.writable.2 (hconf.ends _ hr),
    fun hk _ hr => (h.response 32 _ 0).trans (hconf.upper hk _ hr)⟩

/-- What a bridge implements of the windows in its header: the addresses of the two memory windows,
and upper halves that can be cleared. -/
structure ConformingBridge (cfg : RegisterFile 4096) : Prop where
  windows : ∀ r ∈ [pciMemoryBase, pciMemoryLimit, pciPrefMemoryBase, pciPrefMemoryLimit],
    cfg.Writable 16 r 0xfff0#16
  upper : ∀ r ∈ [pciPrefBaseUpper32, pciPrefLimitUpper32], cfg.response 32 r 0 = 0

/-- What such a bridge implements does not depend on what is in its registers. -/
theorem ConformingBridge.of_sameDevice {cfg cfg' : RegisterFile 4096} (hconf : ConformingBridge cfg)
    (h : cfg.SameDevice cfg') : ConformingBridge cfg' :=
  ⟨fun _ hr => h.writable.2 (hconf.windows _ hr),
    fun _ hr => (h.response 32 _ 0).trans (hconf.upper _ hr)⟩

/-- Such a bridge implements all its windows. -/
theorem ConformingBridge.registers {cfg : RegisterFile 4096} (hconf : ConformingBridge cfg)
    (k : RegionKind) : WindowRegisters cfg k where
  ends r hr := by
    have hlisted : ∀ k, ∀ r ∈ windowRegisters k,
        r ∈ [pciMemoryBase, pciMemoryLimit, pciPrefMemoryBase, pciPrefMemoryLimit] := by
      intro k
      cases k <;> decide
    exact hconf.windows r (hlisted k r hr)
  upper _ := hconf.upper

/-- A bridge does not have the window for regions of kind `k`. The prefetchable one is optional: where it
is not there its registers are hard-wired to zero. -/
def NoWindow (cfg : RegisterFile 4096) (k : RegionKind) : Prop :=
  k = .prefetch ∧ ∀ r ∈ [(16, pciPrefMemoryBase), (16, pciPrefMemoryLimit), (32, pciPrefBaseUpper32),
    (32, pciPrefLimitUpper32)], cfg.Hardwired r.1 r.2 ∧ cfg.read r.1 r.2 = 0

/-- Whether a bridge has a window does not depend on what is in its registers. -/
theorem NoWindow.of_sameDevice {cfg cfg' : RegisterFile 4096} {k : RegionKind} (h : NoWindow cfg k)
    (hsame : cfg.SameDevice cfg') : NoWindow cfg' k := by
  refine ⟨h.1, fun r hr => ?_⟩
  obtain ⟨hwired, hzero⟩ := h.2 r hr
  refine ⟨fun i hi => ?_, (hsame.read hwired).trans hzero⟩
  rw [hsame.1]
  exact hwired i hi

/-- A window that is not there is not implemented. -/
theorem NoWindow.not_windowRegisters {cfg : RegisterFile 4096} {k : RegionKind} (h : NoWindow cfg k) :
    ¬ WindowRegisters cfg k := by
  intro hregisters
  obtain ⟨rfl, hwired⟩ := h
  have hopen := hregisters.ends pciPrefMemoryBase List.mem_cons_self 4 (by decide) (by decide)
  rw [(hwired _ List.mem_cons_self).1 4 (by decide)] at hopen
  cases hopen

/-- Its registers read as the first megabyte. -/
theorem NoWindow.prefetchEnd_eq {dev : PciDevice} {k : RegionKind} (h : NoWindow dev.cfg k) :
    prefetchEnd dev = 2 ^ 20 := by
  have hlimit : pciReadConfig16 dev pciPrefMemoryLimit = 0 :=
    (h.2 (16, pciPrefMemoryLimit) (by decide)).2
  have hupper : pciReadConfig32 dev pciPrefLimitUpper32 = 0 :=
    (h.2 (32, pciPrefLimitUpper32) (by decide)).2
  unfold prefetchEnd
  rw [hlimit, upperHalf_eq_zero fun _ => hupper]
  rfl

/-- A fully writable register reads back what is written to it. -/
theorem pciReadConfig_write_of_writable (dev : PciDevice) {w offset : ℕ} (value : BitVec w)
    (hoff : offset < 4096) (h : dev.cfg.Writable w offset (BitVec.allOnes w)) :
    pciReadConfig w (pciWriteConfig w dev offset value) offset = value := by
  have hand := pciReadConfig_write_and dev value (BitVec.allOnes w) hoff h
  simpa only [BitVec.and_allOnes] using hand

/-- The part of a window register that holds an address reads back what is written to it. -/
theorem windowField_write (dev : PciDevice) {offset : ℕ} (value : BitVec 16) (hoff : offset < 4096)
    (h : dev.cfg.Writable 16 offset 0xfff0#16) :
    windowField (pciReadConfig16 (pciWriteConfig16 dev offset value) offset) = windowField value := by
  unfold windowField
  rw [pciReadConfig_write_and dev value 0xfff0#16 hoff h]

/-- The type bits of a window register keep their value when it is written along with the address. -/
theorem windowType_write (dev : PciDevice) {offset : ℕ} (x : BitVec 32) (type : BitVec 16)
    (hoff : offset < 4096) (htype : pciReadConfig16 dev offset &&& pciPrefRangeTypeMask = type) :
    pciReadConfig16 (pciWriteConfig16 dev offset (windowBase x ||| type)) offset
      &&& pciPrefRangeTypeMask = type := by
  have hmask : ∀ i : Fin 16, (pciPrefRangeTypeMask).getLsbD i = decide (i.val < 4) := by decide
  have hrange : ∀ i : Fin 16, (pciMemoryRangeMask).getLsbD i = decide (4 ≤ i.val) := by decide
  apply BitVec.eq_of_getLsbD_eq
  intro i hi
  have hold : ((pciReadConfig16 dev offset).getLsbD i && decide (i < 4)) = type.getLsbD i := by
    rw [← htype, BitVec.getLsbD_and, hmask ⟨i, hi⟩]
  rw [BitVec.getLsbD_and, hmask ⟨i, hi⟩]
  refine (congrArg (· && decide (i < 4)) (getLsbD_pciReadConfig_write dev _ hoff hi)).trans ?_
  by_cases h4 : i < 4
  · have hwindow : (windowBase x).getLsbD i = false := by
      simp only [windowBase, BitVec.getLsbD_setWidth, BitVec.getLsbD_and, hrange ⟨i, hi⟩]
      simp [h4]
    rw [BitVec.getLsbD_or, hwindow, Bool.false_or]
    simp only [h4, decide_true, Bool.and_true] at hold ⊢
    split
    · rfl
    · exact hold
  · simp only [h4, decide_false, Bool.and_false] at hold ⊢
    exact hold

section Scanned

variable (pcie pcie' : PciController σ) (busNumber lastSub : ℕ) (link : LinkAnswers) (dev : PciDevice)

/-- A bridge once its windows were opened and closed. -/
def scannedBridge : PciDevice :=
  (pciautoPostscanSetupBridge pcie' lastSub
    (pciautoPrescanSetupBridge pcie busNumber link dev).2).2

/-- The scan of a bridge writes its bus numbers, its windows and its link. -/
theorem scannedBridge_rewritten :
    Rewritten (prescanRanges ++ postscanRanges) dev
      (scannedBridge pcie pcie' busNumber lastSub link dev) :=
  ((pciautoPrescanSetupBridge_rewritten pcie busNumber link dev).2.2.2.mono
    (fun _ hr => List.mem_append_left _ hr)).trans
  ((pciautoPostscanSetupBridge_rewritten pcie' lastSub _).2.2.2.mono
    (fun _ hr => List.mem_append_right _ hr))

variable {pcie pcie' busNumber lastSub link dev}

/-- **The bus numbers of a bridge.** -/
theorem scanned_busNumbers (hconf : BusNumberRegisters dev.cfg) :
    let dev' := scannedBridge pcie pcie' busNumber lastSub link dev
    pciReadConfig8 dev' pciPrimaryBus = BitVec.ofNat 8 (pciBus dev.bdf - pcie.busNumberBase) ∧
      pciReadConfig8 dev' pciSecondaryBus = BitVec.ofNat 8 (busNumber - pcie.busNumberBase) ∧
      pciReadConfig8 dev' pciSubordinateBus = BitVec.ofNat 8 (lastSub - pcie'.busNumberBase) := by
  intro dev'
  obtain ⟨-, -, hnumbers, hpre⟩ := pciautoPrescanSetupBridge_rewritten pcie busNumber link dev
  obtain ⟨-, -, hsub, hpost⟩ := pciautoPostscanSetupBridge_rewritten pcie' lastSub
    (pciautoPrescanSetupBridge pcie busNumber link dev).2
  refine ⟨?_, ?_, ?_⟩
  · have hprimary : dev.cfg.Writable 8 pciPrimaryBus (BitVec.allOnes 8) :=
      hconf _ (by decide)
    refine ((hpost.read (by decide)).trans (hnumbers.read (by decide))).trans ?_
    unfold prescanBusNumbers
    dsimp only
    rw [pciReadConfig_write_of_apart _ _ (by decide), pciReadConfig_write_of_apart _ _ (by decide)]
    exact pciReadConfig_write_of_writable dev _ (by decide) hprimary
  · have hsecondary : dev.cfg.Writable 8 pciSecondaryBus (BitVec.allOnes 8) :=
      hconf _ (by decide)
    refine ((hpost.read (by decide)).trans (hnumbers.read (by decide))).trans ?_
    unfold prescanBusNumbers
    dsimp only
    rw [pciReadConfig_write_of_apart _ _ (by decide)]
    exact pciReadConfig_write_of_writable _ _ (by decide) (pciWriteConfig_writable _ _ _ _ |>.2 hsecondary)
  · have hsubordinate : (pciautoPrescanSetupBridge pcie busNumber link dev).2.cfg.Writable 8
        pciSubordinateBus (BitVec.allOnes 8) :=
      hpre.device.writable.2 (hconf _ (by decide))
    exact (hsub.read (by decide)).trans
      (pciReadConfig_write_of_writable _ _ (by decide) hsubordinate)

/-- The rounded pointer, as the registers of a window get it. -/
theorem toNat_align_window (res : PciRegion) :
    let lower := (pciautoRegionAlign res configPciBridgeMemAlignment).busLower
    lower.toNat = alignUp res.pointer (2 ^ 20) % 2 ^ 32 ∧
      (lower - 1).toNat = alignUp res.pointer (2 ^ 20) - 1 := by
  intro lower
  have hgrain : configPciBridgeMemAlignment.toNat = 2 ^ 20 := rfl
  have hround := pointer_pciautoRegionAlign res hgrain
  have hpred : (lower - 1).toNat + 1 = alignUp res.pointer (2 ^ 20) := hround
  exact ⟨toNat_allocate_addr res hgrain, by omega⟩

/-- The base register of a window opened at the pointer of a region. -/
theorem windowField_base (res : PciRegion) {type : BitVec 16} (htype : type &&& 0xfff0#16 = 0) :
    windowField (windowBase (pciautoRegionAlign res configPciBridgeMemAlignment).busLower ||| type)
      = alignUp res.pointer (2 ^ 20) % 2 ^ 32 := by
  obtain ⟨c, hc⟩ := dvd_alignUp res.pointer (2 ^ 20)
  rw [windowField_windowBase _ _ htype, (toNat_align_window res).1, hc]
  omega

/-- The limit register of a window closed at the pointer of a region. -/
theorem windowField_limit (res : PciRegion) {type : BitVec 16} (htype : type &&& 0xfff0#16 = 0) :
    windowField (windowLimit (pciautoRegionAlign res configPciBridgeMemAlignment).busLower ||| type)
      + 0x100000 = alignUp res.pointer (2 ^ 20) := by
  obtain ⟨c, hc⟩ := dvd_alignUp res.pointer (2 ^ 20)
  have hpos := res.pointer_pos
  have hle : res.pointer ≤ alignUp res.pointer (2 ^ 20) := le_alignUp (by decide) res.pointer
  rw [windowLimit_eq, windowField_windowBase _ _ htype, (toNat_align_window res).2]
  omega

/-- **The memory window of a bridge** runs from the pointer before the scan to the pointer after
it, on a bridge that implements its two registers. -/
theorem scanned_memoryWindow_pointer {res res' : PciRegion} (h : pcie.chosen .mem = some res)
    (h' : pcie'.chosen .mem = some res')
    (hconf : ∀ r ∈ [pciMemoryBase, pciMemoryLimit], dev.cfg.Writable 16 r 0xfff0#16) :
    let dev' := scannedBridge pcie pcie' busNumber lastSub link dev
    memoryBase dev' = alignUp res.pointer (2 ^ 20) % 2 ^ 32 ∧
      memoryEnd dev' = alignUp res'.pointer (2 ^ 20) := by
  intro dev'
  obtain ⟨-, hbase, hnumbers, hpre⟩ := pciautoPrescanSetupBridge_rewritten pcie busNumber link dev
  obtain ⟨-, hlimit, hsub, hpost⟩ := pciautoPostscanSetupBridge_rewritten pcie' lastSub
    (pciautoPrescanSetupBridge pcie busNumber link dev).2
  -- a window register is written alone here; the prefetchable ones keep their type bits
  have hor (value : BitVec 16) : value = value ||| 0 := by simp
  constructor
  -- the base is written by the prescan and left alone after it
  · have hread : pciReadConfig16 dev' pciMemoryBase = _ :=
      (hpost.read (by decide)).trans (hbase.read (by decide))
    have hwritable := (rewritten_prescanBusNumbers pcie busNumber dev).device.writable.2
      (hconf pciMemoryBase (by decide))
    unfold memoryBase
    rw [hread]
    unfold prescanMem
    dsimp only
    rw [h]
    dsimp only
    rw [windowField_write _ _ (by decide) hwritable, hor (windowBase _),
      windowField_base res (by decide)]
  -- the limit is written by the postscan
  · have hread : pciReadConfig16 dev' pciMemoryLimit = _ := hlimit.read (by decide)
    have hwritable := hpre.device.writable.2 (hconf pciMemoryLimit (by decide))
    unfold memoryEnd
    rw [hread]
    unfold postscanMem
    rw [h']
    dsimp only
    rw [windowField_write _ _ (by decide) (pciWriteConfig_writable _ _ _ _ |>.2 hwritable),
      hor (windowLimit _), windowField_limit res' (by decide)]

/-- The same, where the pointers are known as numbers. -/
theorem scanned_memoryWindow {res : PciRegion} {p q : ℕ} (h : RegionAt pcie .mem (some res) p)
    (h' : RegionAt pcie' .mem (some res) q) (hconf : WindowRegisters dev.cfg .mem) :
    let dev' := scannedBridge pcie pcie' busNumber lastSub link dev
    memoryBase dev' = alignUp p (2 ^ 20) % 2 ^ 32 ∧ memoryEnd dev' = alignUp q (2 ^ 20) := by
  have hwindow := @scanned_memoryWindow_pointer _ _ _ busNumber lastSub link dev _ _ h.chosen h'.chosen
    hconf.ends
  rwa [h.pointer_eq, h'.pointer_eq] at hwindow

/-- The base of a prefetchable window opened at the pointer `p`, with its upper half cleared. -/
theorem prescan_prefetchBase {res : PciRegion} {p : ℕ} (h : RegionAt pcie .prefetch (some res) p)
    (hsel : pcie.Selected) (hconf : WindowRegisters dev.cfg .prefetch) :
    prefetchBase (pciautoPrescanSetupBridge pcie busNumber link dev).2 = alignUp p (2 ^ 20) % 2 ^ 32 := by
  obtain ⟨hrest, -, -, hpre⟩ := pciautoPrescanSetupBridge_rewritten pcie busNumber link dev
  set type := pciReadConfig16 dev pciPrefMemoryBase &&& pciPrefRangeTypeMask with htype
  set dev₀ := prescanBusNumbers pcie busNumber dev with hdev₀
  set st₁ := prescanMem ⟨pcie, dev₀, pciReadConfig16 dev pciCommand⟩ with hst₁
  have hmem : Rewritten [(pciMemoryBase, 2)] dev₀ st₁.dev :=
    rewritten_prescanMem ⟨pcie, dev₀, pciReadConfig16 dev pciCommand⟩
  have hdev₁ : Rewritten [(pciPrimaryBus, 3), (pciMemoryBase, 2)] dev st₁.dev :=
    ((rewritten_prescanBusNumbers pcie busNumber dev).mono (by decide)).trans
      (hmem.mono (by decide))
  have htype₁ : pciReadConfig16 st₁.dev pciPrefMemoryBase &&& pciPrefRangeTypeMask = type := by
    rw [htype]
    exact congrArg (· &&& pciPrefRangeTypeMask) (hdev₁.read (by decide))
  have hfield : type &&& 0xfff0#16 = 0 := by
    rw [htype, BitVec.and_assoc]
    simp
  have hchosen : st₁.pcie.chosen .prefetch = some (res.atPointer p) := by
    rw [hst₁, prescanMem_pcie, hsel.chosen_updateRegion_of_ne (by decide), h.chosen]
    rfl
  set lower := (pciautoRegionAlign (res.atPointer p) configPciBridgeMemAlignment).busLower with hlower
  set dev₂ := pciWriteConfig16 st₁.dev pciPrefMemoryBase (windowBase lower ||| type) with hdev₂
  have hst₂ : (prescanPrefetch type st₁).dev
      = if type = pciPrefRangeType64 then pciWriteConfig32 dev₂ pciPrefBaseUpper32 0 else dev₂ := by
    unfold prescanPrefetch
    rw [hchosen]
  have hwritable := hdev₁.device.writable.2 (hconf.ends pciPrefMemoryBase (by decide))
  have hbase : windowField (pciReadConfig16 dev₂ pciPrefMemoryBase) = alignUp p (2 ^ 20) % 2 ^ 32 := by
    rw [hdev₂, windowField_write _ _ (by decide) hwritable, hlower, windowField_base _ hfield,
      h.pointer_eq]
  have htype₂ : pciReadConfig16 dev₂ pciPrefMemoryBase &&& pciPrefRangeTypeMask = type :=
    windowType_write st₁.dev lower type (by decide) htype₁
  -- what the other groups write does not reach the two registers
  have hbaseRead := @Rewritten.read _ _ _ hrest 16 pciPrefMemoryBase (by decide)
  have hupperRead := @Rewritten.read _ _ _ hrest 32 pciPrefBaseUpper32 (by decide)
  rw [hst₂] at hbaseRead hupperRead
  have hbaseRead₂ : pciReadConfig16 (pciautoPrescanSetupBridge pcie busNumber link dev).2
      pciPrefMemoryBase = pciReadConfig16 dev₂ pciPrefMemoryBase := by
    refine hbaseRead.trans ?_
    split
    · exact pciReadConfig_write_of_apart _ _ (by decide)
    · rfl
  have hupper : upperHalf (pciautoPrescanSetupBridge pcie busNumber link dev).2 pciPrefMemoryBase
      pciPrefBaseUpper32 = 0 := by
    refine upperHalf_eq_zero fun h64 => hupperRead.trans ?_
    rw [hbaseRead₂, htype₂] at h64
    have hdev₂' : Rewritten [(pciPrefMemoryBase, 2)] st₁.dev dev₂ :=
      rewritten_write 2 _ le_rfl le_rfl
    rw [if_pos h64]
    exact (pciReadConfig_write_self _ _ _ (by decide)).trans
      (((hdev₁.device.trans hdev₂'.device).response 32 _ 0).trans (hconf.upper rfl _ (by decide)))
  unfold prefetchBase
  rw [hupper, hbaseRead₂, hbase, Nat.add_zero]

/-- The end of a prefetchable window closed at the pointer `q`, with its upper half cleared. -/
theorem postscan_prefetchEnd {res : PciRegion} {q : ℕ} (h : RegionAt pcie .prefetch (some res) q)
    (hsel : pcie.Selected) (hconf : WindowRegisters dev.cfg .prefetch) :
    prefetchEnd (pciautoPostscanSetupBridge pcie lastSub dev).2 = alignUp q (2 ^ 20) := by
  obtain ⟨hrest, -, -, -⟩ := pciautoPostscanSetupBridge_rewritten pcie lastSub dev
  set dev₀ := pciWriteConfig8 dev pciSubordinateBus (BitVec.ofNat 8 (lastSub - pcie.busNumberBase))
  set r₁ := postscanMem pcie dev₀ with hr₁
  have hmem : Rewritten [(pciMemoryLimit, 2)] dev₀ r₁.2 := rewritten_postscanMem pcie dev₀
  have hdevice₀ : Rewritten [(pciSubordinateBus, 1)] dev dev₀ := rewritten_write 1 _ le_rfl le_rfl
  have hdevice := hdevice₀.device.trans hmem.device
  have hchosen : r₁.1.chosen .prefetch = some (res.atPointer q) := by
    refine Eq.trans ?_ h.chosen
    rw [hr₁]
    unfold postscanMem
    split
    · rfl
    · exact hsel.chosen_updateRegion_of_ne (show RegionKind.mem ≠ .prefetch by decide) _
  set type := pciReadConfig16 r₁.2 pciPrefMemoryLimit &&& pciPrefRangeTypeMask with htype
  have hfield : type &&& 0xfff0#16 = 0 := by
    rw [htype, BitVec.and_assoc]
    simp
  set lower := (pciautoRegionAlign (res.atPointer q) configPciBridgeMemAlignment).busLower with hlower
  set dev₂ := pciWriteConfig16 r₁.2 pciPrefMemoryLimit (windowLimit lower ||| type) with hdev₂
  have hr₂ : (postscanPrefetch r₁.1 r₁.2).2
      = if type = pciPrefRangeType64 then pciWriteConfig32 dev₂ pciPrefLimitUpper32 0 else dev₂ := by
    unfold postscanPrefetch
    rw [hchosen]
  have hwritable := hdevice.writable.2 (hconf.ends pciPrefMemoryLimit (by decide))
  have hlimit : windowField (pciReadConfig16 dev₂ pciPrefMemoryLimit) + 0x100000
      = alignUp q (2 ^ 20) := by
    rw [hdev₂, windowField_write _ _ (by decide) hwritable, hlower, windowField_limit _ hfield,
      h.pointer_eq]
  have htype₂ : pciReadConfig16 dev₂ pciPrefMemoryLimit &&& pciPrefRangeTypeMask = type := by
    rw [hdev₂, windowLimit_eq]
    exact windowType_write r₁.2 (lower - 1) type (by decide) htype.symm
  -- what the I/O group writes does not reach the two registers
  have hlimitRead := @Rewritten.read _ _ _ hrest 16 pciPrefMemoryLimit (by decide)
  have hupperRead := @Rewritten.read _ _ _ hrest 32 pciPrefLimitUpper32 (by decide)
  rw [hr₂] at hlimitRead hupperRead
  have hlimitRead₂ : pciReadConfig16 (pciautoPostscanSetupBridge pcie lastSub dev).2
      pciPrefMemoryLimit = pciReadConfig16 dev₂ pciPrefMemoryLimit := by
    refine hlimitRead.trans ?_
    split
    · exact pciReadConfig_write_of_apart _ _ (by decide)
    · rfl
  have hupper : upperHalf (pciautoPostscanSetupBridge pcie lastSub dev).2 pciPrefMemoryLimit
      pciPrefLimitUpper32 = 0 := by
    refine upperHalf_eq_zero fun h64 => hupperRead.trans ?_
    rw [hlimitRead₂, htype₂] at h64
    have hdev₂' : Rewritten [(pciPrefMemoryLimit, 2)] r₁.2 dev₂ := rewritten_write 2 _ le_rfl le_rfl
    rw [if_pos h64]
    exact (pciReadConfig_write_self _ _ _ (by decide)).trans
      (((hdevice.trans hdev₂'.device).response 32 _ 0).trans (hconf.upper rfl _ (by decide)))
  unfold prefetchEnd
  rw [hupper, hlimitRead₂, hlimit]

/-- **The prefetchable window of a bridge** runs from the pointer before the scan to the pointer
after it. -/
theorem scanned_prefetchWindow {res : PciRegion} {p q : ℕ}
    (h : RegionAt pcie .prefetch (some res) p) (h' : RegionAt pcie' .prefetch (some res) q)
    (hsel : pcie.Selected) (hsel' : pcie'.Selected) (hconf : WindowRegisters dev.cfg .prefetch) :
    let dev' := scannedBridge pcie pcie' busNumber lastSub link dev
    prefetchBase dev' = alignUp p (2 ^ 20) % 2 ^ 32 ∧ prefetchEnd dev' = alignUp q (2 ^ 20) := by
  intro dev'
  obtain ⟨-, -, -, hpre⟩ := pciautoPrescanSetupBridge_rewritten pcie busNumber link dev
  obtain ⟨-, -, -, hpost⟩ := pciautoPostscanSetupBridge_rewritten pcie' lastSub
    (pciautoPrescanSetupBridge pcie busNumber link dev).2
  refine ⟨?_, postscan_prefetchEnd h' hsel' (hconf.of_sameDevice hpre.device)⟩
  rw [← @prescan_prefetchBase _ _ busNumber link _ _ _ h hsel hconf]
  have hbase : pciReadConfig16 dev' pciPrefMemoryBase = _ := hpost.read (by decide)
  have hupper : pciReadConfig32 dev' pciPrefBaseUpper32 = _ := hpost.read (by decide)
  unfold prefetchBase upperHalf
  rw [hbase, hupper]

/-- Clearing half of a register that reads as zero leaves it zero. -/
theorem pciReadConfig32_clear_low (dev : PciDevice) {offset : ℕ} (hoff : offset < 4096)
    (h : pciReadConfig32 dev offset = 0) :
    pciReadConfig32 (pciWriteConfig16 dev offset 0) offset = 0 := by
  have hlt : ¬ 4096 ≤ offset := Nat.not_le.2 hoff
  simp only [pciReadConfig32, pciWriteConfig16, pciReadConfig, pciWriteConfig, if_neg hlt] at h ⊢
  apply BitVec.eq_of_getLsbD_eq
  intro i hi
  rw [RegisterFile.getLsbD_read_write _ _ _ _ _ _ _ hi, h]
  split <;> simp

/-- Without a prefetchable region, closing the windows leaves the prefetchable window alone. -/
theorem postscan_rewritten_of_no_prefetch (h : pcie.chosen .prefetch = none) (hsel : pcie.Selected) :
    Rewritten [(pciSubordinateBus, 1), (pciMemoryLimit, 2), (pciIoLimit, 1), (pciIoLimitUpper16, 2)]
      dev (pciautoPostscanSetupBridge pcie lastSub dev).2 := by
  set dev₀ := pciWriteConfig8 dev pciSubordinateBus (BitVec.ofNat 8 (lastSub - pcie.busNumberBase))
  have hdev₀ : Rewritten [(pciSubordinateBus, 1)] dev dev₀ := rewritten_write 1 _ le_rfl le_rfl
  have hchosen : (postscanMem pcie dev₀).1.chosen .prefetch = none := by
    refine Eq.trans ?_ h
    unfold postscanMem
    split
    · rfl
    · exact hsel.chosen_updateRegion_of_ne (show RegionKind.mem ≠ .prefetch by decide) _
  have hprefetch : postscanPrefetch (postscanMem pcie dev₀).1 (postscanMem pcie dev₀).2
      = postscanMem pcie dev₀ := by
    unfold postscanPrefetch
    rw [hchosen]
  have hscan : (pciautoPostscanSetupBridge pcie lastSub dev).2
      = (postscanIo (postscanMem pcie dev₀).1 (postscanMem pcie dev₀).2).2 := by
    unfold pciautoPostscanSetupBridge
    dsimp only
    rw [hprefetch]
  rw [hscan]
  exact ((hdev₀.mono (by decide)).trans ((rewritten_postscanMem pcie dev₀).mono (by decide))).trans
    ((rewritten_postscanIo _ _).mono (by decide))

/-- Without a prefetchable region the prefetchable window of a bridge is closed, if the upper halves
of its registers were zero: only their lower halves are cleared. -/
theorem scanned_prefetchClosed (h : pcie.chosen .prefetch = none) (hsel : pcie.Selected)
    (h' : pcie'.chosen .prefetch = none) (hsel' : pcie'.Selected)
    (hconf : WindowRegisters dev.cfg .prefetch)
    (hupper : ∀ r ∈ [pciPrefBaseUpper32, pciPrefLimitUpper32], pciReadConfig32 dev r = 0) :
    let dev' := scannedBridge pcie pcie' busNumber lastSub link dev
    prefetchBase dev' = 0xfff00000 ∧ prefetchEnd dev' = 0x100000 := by
  intro dev'
  obtain ⟨hrest, -, -, -⟩ := pciautoPrescanSetupBridge_rewritten pcie busNumber link dev
  have hpost : Rewritten _ _ dev' := postscan_rewritten_of_no_prefetch h' hsel'
  set type := pciReadConfig16 dev pciPrefMemoryBase &&& pciPrefRangeTypeMask with htype
  have hfield : type &&& 0xfff0#16 = 0 := by
    rw [htype, BitVec.and_assoc]
    simp
  -- the stages of the prescan, each with the registers it rewrites
  set dev₀ := prescanBusNumbers pcie busNumber dev
  set st₁ := prescanMem ⟨pcie, dev₀, pciReadConfig16 dev pciCommand⟩ with hst₁
  have hmem : Rewritten [(pciMemoryBase, 2)] dev₀ st₁.dev :=
    rewritten_prescanMem ⟨pcie, dev₀, pciReadConfig16 dev pciCommand⟩
  have hdev₁ : Rewritten [(pciPrimaryBus, 3), (pciMemoryBase, 2)] dev st₁.dev :=
    ((rewritten_prescanBusNumbers pcie busNumber dev).mono (by decide)).trans
      (hmem.mono (by decide))
  have hchosen : st₁.pcie.chosen .prefetch = none := by
    rw [hst₁, prescanMem_pcie, hsel.chosen_updateRegion_of_ne (by decide), h]
  set dev₂ := pciWriteConfig16 st₁.dev pciPrefMemoryBase (0xfff0#16 ||| type) with hdev₂
  set dev₃ := pciWriteConfig16 dev₂ pciPrefMemoryLimit type with hdev₃
  have hdev₃' : Rewritten [(pciPrefMemoryBase, 4)] st₁.dev dev₃ :=
    (rewritten_write 2 _ (by decide) (by decide)).trans (rewritten_write 2 _ (by decide) (by decide))
  -- only a window that decodes 64 bits has its upper halves written
  have hst₂ : (prescanPrefetch type st₁).dev
      = if type = pciPrefRangeType64 then
          pciWriteConfig16 (pciWriteConfig16 dev₃ pciPrefBaseUpper32 0) pciPrefLimitUpper32 0
        else dev₃ := by
    unfold prescanPrefetch
    rw [hchosen]
    dsimp only
    split <;> rfl
  have hst₂' : Rewritten [(pciPrefBaseUpper32, 2), (pciPrefLimitUpper32, 2)] dev₃
      (prescanPrefetch type st₁).dev := by
    rw [hst₂]
    split
    · exact (rewritten_pciWriteConfig dev₃ 2 0 List.mem_cons_self le_rfl le_rfl).trans
        (rewritten_pciWriteConfig _ 2 0 (List.mem_cons_of_mem _ (List.mem_singleton_self _)) le_rfl
          le_rfl)
    · exact Rewritten.refl _ _
  have hwritable (register : ℕ) (hr : register ∈ [pciPrefMemoryBase, pciPrefMemoryLimit]) :
      st₁.dev.cfg.Writable 16 register 0xfff0#16 :=
    hdev₁.device.writable.2 (hconf.ends register hr)
  -- base above limit, in the two registers that are always written
  have hbase : windowField (pciReadConfig16 dev' pciPrefMemoryBase) = 0xfff00000 := by
    have hread : pciReadConfig16 dev' pciPrefMemoryBase = pciReadConfig16 dev₂ pciPrefMemoryBase :=
      (((hpost.read (by decide)).trans (hrest.read (by decide))).trans (hst₂'.read (by decide))).trans
        (pciReadConfig_write_of_apart _ _ (by decide))
    rw [hread, hdev₂, windowField_write _ _ (by decide) (hwritable _ (by decide)),
      windowField_or _ hfield]
    decide
  have hlimit : windowField (pciReadConfig16 dev' pciPrefMemoryLimit) = 0 := by
    have hread : pciReadConfig16 dev' pciPrefMemoryLimit = pciReadConfig16 dev₃ pciPrefMemoryLimit :=
      ((hpost.read (by decide)).trans (hrest.read (by decide))).trans (hst₂'.read (by decide))
    rw [hread, hdev₃, windowField_write _ _ (by decide)
      (pciWriteConfig_writable _ _ _ _ |>.2 (hwritable _ (by decide))), windowField, hfield]
    rfl
  -- an upper half is zero either way: it was, and is cleared if anything
  have hzero (register : ℕ) (hr : register ∈ [pciPrefBaseUpper32, pciPrefLimitUpper32]) :
      pciReadConfig32 dev' register = 0 := by
    have hap : ∀ register ∈ [pciPrefBaseUpper32, pciPrefLimitUpper32], register < 4096 ∧
        ∀ r ∈ [(pciSubordinateBus, 1), (pciMemoryLimit, 2), (pciIoLimit, 1), (pciIoLimitUpper16, 2)]
          ++ prescanRanges.drop 3 ++ [(pciPrefMemoryBase, 4)]
          ++ [(pciPrimaryBus, 3), (pciMemoryBase, 2)],
          RegisterFile.Apart (8 * r.2) r.1 32 register := by decide
    obtain ⟨hoff, hap⟩ := hap register hr
    simp only [List.mem_append, or_imp, forall_and] at hap
    obtain ⟨⟨⟨hap₁, hap₂⟩, hap₃⟩, hap₄⟩ := hap
    have hold : pciReadConfig32 dev₃ register = 0 :=
      ((hdev₃'.read hap₃).trans (hdev₁.read hap₄)).trans (hupper register hr)
    refine ((hpost.read hap₁).trans (hrest.read hap₂)).trans ?_
    rw [hst₂]
    split
    · rcases List.mem_pair.1 hr with rfl | rfl
      · exact (pciReadConfig_write_of_apart _ _ (by decide)).trans
          (pciReadConfig32_clear_low dev₃ hoff hold)
      · exact pciReadConfig32_clear_low _ hoff
          ((pciReadConfig_write_of_apart _ _ (by decide)).trans hold)
    · exact hold
  constructor
  · unfold prefetchBase
    rw [hbase, upperHalf_eq_zero fun _ => hzero _ (by decide)]
  · unfold prefetchEnd
    rw [hlimit, upperHalf_eq_zero fun _ => hzero _ (by decide)]

end Scanned

end BcmPcie
