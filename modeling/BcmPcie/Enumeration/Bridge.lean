import BcmPcie.Enumeration.RegionState
import BcmPcie.Enumeration.SetupDevice

/-! # Setting up a bridge

`pciauto_prescan_setup_bridge`, which opens the windows of a bridge before the bus behind it is
scanned, and `pciauto_postscan_setup_bridge`, which closes them behind the last address handed out,
with the link fix-up of `pciauto_exp_fixup_link` in between. The bases are written from the pointers
before the scan, the limits from the pointers after it.

* `pciautoPrescanSetupBridge_pcie`, `RegionAt.alignWindows` — the pointers they leave.
* `pciautoPrescanSetupBridge_rewritten`, `pciautoPostscanSetupBridge_rewritten` — the registers they
  write. -/

namespace BcmPcie

open Bump

variable {σ : Type*}

/-! ## The link below a port -/

/-- What `pciauto_exp_link_stable` finds: whether the link below a port works as it is, and whether it
does at 2.5 GT/s. -/
structure LinkAnswers where
  asIs : Bool := true
  restricted : Bool := true
  deriving DecidableEq, Repr

/-- `pciauto_exp_fixup_link`: retrain a link that does not work at its lowest speed. -/
def pciautoExpFixupLink (link : LinkAnswers) (dev : PciDevice) (pcieOff : ℕ) : PciDevice :=
  let expFlags := pciReadConfig16 dev (pcieOff + pciExpFlags)
  if expFlags &&& pciExpFlagsVers < 2 then dev
  else
    let expType := (expFlags &&& pciExpFlagsType) >>> 4
    if ¬ (expType = pciExpTypeRootPort ∨ expType = pciExpTypeDownstream ∨
        expType = pciExpTypePcieBridge) then dev
    else if pciReadConfig32 dev (pcieOff + pciExpLnkcap) &&& pciExpLnkcapSls ≤ pciExpLnkcapSls25gb then
      dev
    else if pciReadConfig16 dev (pcieOff + pciExpLnksta) &&& (pciExpLnkstaLbms ||| pciExpLnkstaDllla)
        ≠ pciExpLnkstaLbms then dev
    else if link.asIs then dev
    else
      let expLnkctl := pciReadConfig16 dev (pcieOff + pciExpLnkctl)
      let expLnkctl2 := pciReadConfig16 dev (pcieOff + pciExpLnkctl2)
      let dev := pciWriteConfig16 dev (pcieOff + pciExpLnkctl2)
        ((expLnkctl2 &&& ~~~pciExpLnkctl2Tls) ||| pciExpLnkctl2Tls25gt)
      let dev := pciWriteConfig16 dev (pcieOff + pciExpLnkctl) (expLnkctl ||| pciExpLnkctlRl)
      if link.restricted then dev
      else
        let dev := pciWriteConfig16 dev (pcieOff + pciExpLnkctl2) expLnkctl2
        pciWriteConfig16 dev (pcieOff + pciExpLnkctl) (expLnkctl ||| pciExpLnkctlRl)

/-! ## Opening the windows -/

/-- The base of a memory window that starts at `lower`, in units of 64 KiB. -/
def windowBase (lower : BitVec 32) : BitVec 16 :=
  (((lower &&& 0xfff00000#32) >>> 16) &&& pciMemoryRangeMask).setWidth 16

/-- The limit of a memory window that ends below `lower`. -/
def windowLimit (lower : BitVec 32) : BitVec 16 :=
  (((lower - 1) >>> 16) &&& pciMemoryRangeMask).setWidth 16

/-- The registers of the memory window, before the scan. -/
def prescanMem (st : SetupState σ) : SetupState σ :=
  match st.pcie.chosen .mem with
  | none => st
  | some res =>
    let res := pciautoRegionAlign res configPciBridgeMemAlignment
    let pcie := st.pcie.updateRegion st.pcie.pciMem
      (pciautoRegionAlign · configPciBridgeMemAlignment)
    ⟨pcie, pciWriteConfig16 st.dev pciMemoryBase (windowBase res.busLower),
      st.command ||| pciCommandMemory⟩

/-- The registers of the prefetchable window, before the scan. Without a prefetchable region the
window is closed. -/
def prescanPrefetch (prefetchable64 : BitVec 16) (st : SetupState σ) : SetupState σ :=
  match st.pcie.chosen .prefetch with
  | none =>
    let dev := pciWriteConfig16 st.dev pciPrefMemoryBase (0xfff0#16 ||| prefetchable64)
    let dev := pciWriteConfig16 dev pciPrefMemoryLimit prefetchable64
    if prefetchable64 = pciPrefRangeType64 then
      let dev := pciWriteConfig16 dev pciPrefBaseUpper32 0
      { st with dev := pciWriteConfig16 dev pciPrefLimitUpper32 0 }
    else { st with dev := dev }
  | some res =>
    let res := pciautoRegionAlign res configPciBridgeMemAlignment
    let pcie := st.pcie.updateRegion st.pcie.pciPrefetch
      (pciautoRegionAlign · configPciBridgeMemAlignment)
    let dev := pciWriteConfig16 st.dev pciPrefMemoryBase (windowBase res.busLower ||| prefetchable64)
    let dev :=
      if prefetchable64 = pciPrefRangeType64 then pciWriteConfig32 dev pciPrefBaseUpper32 0 else dev
    ⟨pcie, dev, st.command ||| pciCommandMemory⟩

/-- The registers of the I/O window, before the scan. Without an I/O region the window is closed. -/
def prescanIo (io32 : BitVec 8) (st : SetupState σ) : SetupState σ :=
  match st.pcie.chosen .io with
  | none =>
    let dev := pciWriteConfig8 st.dev pciIoBase (0xf0#8 ||| io32)
    let dev := pciWriteConfig8 dev pciIoLimit io32
    if io32 = pciIoRangeType32 then
      let dev := pciWriteConfig16 dev pciIoBaseUpper16 0
      { st with dev := pciWriteConfig16 dev pciIoLimitUpper16 0 }
    else { st with dev := dev }
  | some res =>
    let res := pciautoRegionAlign res 0x1000#32
    let pcie := st.pcie.updateRegion st.pcie.pciIo (pciautoRegionAlign · 0x1000#32)
    let dev := pciWriteConfig8 st.dev pciIoBase
      ((((res.busLower &&& 0x0000f000#32) >>> 8) &&& pciIoRangeMask).setWidth 8 ||| io32)
    let dev :=
      if io32 = pciIoRangeType32 then
        pciWriteConfig16 dev pciIoBaseUpper16 (((res.busLower &&& 0xffff0000#32) >>> 16).setWidth 16)
      else dev
    ⟨pcie, dev, st.command ||| pciCommandIo⟩

/-- The bus number registers of a bridge, before the scan. -/
def prescanBusNumbers (pcie : PciController σ) (busNumber : ℕ) (dev : PciDevice) : PciDevice :=
  let dev := pciWriteConfig8 dev pciPrimaryBus (BitVec.ofNat 8 (pciBus dev.bdf - pcie.busNumberBase))
  let dev := pciWriteConfig8 dev pciSecondaryBus (BitVec.ofNat 8 (busNumber - pcie.busNumberBase))
  pciWriteConfig8 dev pciSubordinateBus 0xff

/-- The link below a bridge with a PCI Express capability. -/
def prescanLink (link : LinkAnswers) (dev : PciDevice) : PciDevice :=
  let pcieOff := pciFindCapability dev pciCapIdExp
  if pcieOff ≠ 0 then pciautoExpFixupLink link dev pcieOff else dev

/-- `pciauto_prescan_setup_bridge`, for a bridge to bus `busNumber`. -/
def pciautoPrescanSetupBridge (pcie : PciController σ) (busNumber : ℕ) (link : LinkAnswers)
    (dev : PciDevice) : PciController σ × PciDevice :=
  let cmdstat := pciReadConfig16 dev pciCommand
  let prefetchable64 := pciReadConfig16 dev pciPrefMemoryBase &&& pciPrefRangeTypeMask
  let io32 := pciReadConfig8 dev pciIoBase &&& pciIoRangeTypeMask
  let dev := prescanBusNumbers pcie busNumber dev
  let st := prescanMem ⟨pcie, dev, cmdstat⟩
  let st := prescanPrefetch prefetchable64 st
  let st := prescanIo io32 st
  let dev := prescanLink link st.dev
  (st.pcie, pciWriteConfig16 dev pciCommand (st.command ||| pciCommandMaster))

/-! ## Closing the windows -/

/-- The register of the memory window, after the scan. -/
def postscanMem (pcie : PciController σ) (dev : PciDevice) : PciController σ × PciDevice :=
  match pcie.chosen .mem with
  | none => (pcie, dev)
  | some res =>
    let res := pciautoRegionAlign res configPciBridgeMemAlignment
    (pcie.updateRegion pcie.pciMem (pciautoRegionAlign · configPciBridgeMemAlignment),
      pciWriteConfig16 dev pciMemoryLimit (windowLimit res.busLower))

/-- The registers of the prefetchable window, after the scan. -/
def postscanPrefetch (pcie : PciController σ) (dev : PciDevice) : PciController σ × PciDevice :=
  match pcie.chosen .prefetch with
  | none => (pcie, dev)
  | some res =>
    let prefetchable64 := pciReadConfig16 dev pciPrefMemoryLimit &&& pciPrefRangeTypeMask
    let res := pciautoRegionAlign res configPciBridgeMemAlignment
    let dev := pciWriteConfig16 dev pciPrefMemoryLimit (windowLimit res.busLower ||| prefetchable64)
    (pcie.updateRegion pcie.pciPrefetch (pciautoRegionAlign · configPciBridgeMemAlignment),
      if prefetchable64 = pciPrefRangeType64 then pciWriteConfig32 dev pciPrefLimitUpper32 0 else dev)

/-- The registers of the I/O window, after the scan. -/
def postscanIo (pcie : PciController σ) (dev : PciDevice) : PciController σ × PciDevice :=
  match pcie.chosen .io with
  | none => (pcie, dev)
  | some res =>
    let io32 := pciReadConfig8 dev pciIoLimit &&& pciIoRangeTypeMask
    let res := pciautoRegionAlign res 0x1000#32
    let dev := pciWriteConfig8 dev pciIoLimit
      (((((res.busLower - 1) &&& 0x0000f000#32) >>> 8) &&& pciIoRangeMask).setWidth 8 ||| io32)
    (pcie.updateRegion pcie.pciIo (pciautoRegionAlign · 0x1000#32),
      if io32 = pciIoRangeType32 then
        pciWriteConfig16 dev pciIoLimitUpper16
          ((((res.busLower - 1) &&& 0xffff0000#32) >>> 16).setWidth 16)
      else dev)

/-- `pciauto_postscan_setup_bridge`, for a bridge to a bus whose subtree ends at bus `lastSub`. -/
def pciautoPostscanSetupBridge (pcie : PciController σ) (lastSub : ℕ) (dev : PciDevice) :
    PciController σ × PciDevice :=
  let dev := pciWriteConfig8 dev pciSubordinateBus (BitVec.ofNat 8 (lastSub - pcie.busNumberBase))
  let (pcie, dev) := postscanMem pcie dev
  let (pcie, dev) := postscanPrefetch pcie dev
  postscanIo pcie dev

/-! ## The regions of a bridge's windows -/

namespace PciController

/-- The pointers of the regions in use rounded up to where a bridge's windows can start or end. -/
def alignWindows (pcie : PciController σ) : PciController σ :=
  let pcie := pcie.updateRegion (pcie.ptr .mem) (pciautoRegionAlign · configPciBridgeMemAlignment)
  let pcie := pcie.updateRegion (pcie.ptr .prefetch)
    (pciautoRegionAlign · configPciBridgeMemAlignment)
  pcie.updateRegion (pcie.ptr .io) (pciautoRegionAlign · 0x1000#32)

/-- Without a region of the kind nothing is changed. -/
theorem updateRegion_of_chosen_none {pcie : PciController σ} {k : RegionKind}
    (h : pcie.chosen k = none) (f : PciRegion → PciRegion) : pcie.updateRegion (pcie.ptr k) f = pcie := by
  unfold chosen region at h
  unfold updateRegion
  cases hk : pcie.ptr k with
  | none => rfl
  | some i =>
    rw [hk, Option.bind_some] at h
    have hmodify : pcie.regions.modify i f = pcie.regions := by
      apply List.ext_getElem?
      intro n
      rw [List.getElem?_modify]
      by_cases hn : i = n
      · subst hn
        rw [h]
        rfl
      · simp [hn]
    dsimp only
    rw [hmodify]

end PciController

/-- The prescan of the memory window aligns the memory region. -/
theorem prescanMem_pcie (st : SetupState σ) :
    (prescanMem st).pcie = st.pcie.updateRegion (st.pcie.ptr .mem)
      (pciautoRegionAlign · configPciBridgeMemAlignment) := by
  unfold prescanMem
  split
  · rename_i h
    exact (PciController.updateRegion_of_chosen_none h _).symm
  · rfl

/-- The prescan of the prefetchable window aligns the prefetchable region. -/
theorem prescanPrefetch_pcie (prefetchable64 : BitVec 16) (st : SetupState σ) :
    (prescanPrefetch prefetchable64 st).pcie = st.pcie.updateRegion (st.pcie.ptr .prefetch)
      (pciautoRegionAlign · configPciBridgeMemAlignment) := by
  unfold prescanPrefetch
  split
  · rename_i h
    rw [PciController.updateRegion_of_chosen_none h]
    dsimp only
    split <;> rfl
  · rfl

/-- The prescan of the I/O window aligns the I/O region. -/
theorem prescanIo_pcie (io32 : BitVec 8) (st : SetupState σ) :
    (prescanIo io32 st).pcie
      = st.pcie.updateRegion (st.pcie.ptr .io) (pciautoRegionAlign · 0x1000#32) := by
  unfold prescanIo
  split
  · rename_i h
    rw [PciController.updateRegion_of_chosen_none h]
    dsimp only
    split <;> rfl
  · rfl

/-- Opening the windows rounds the pointers up. -/
theorem pciautoPrescanSetupBridge_pcie (pcie : PciController σ) (busNumber : ℕ) (link : LinkAnswers)
    (dev : PciDevice) :
    (pciautoPrescanSetupBridge pcie busNumber link dev).1 = pcie.alignWindows := by
  unfold pciautoPrescanSetupBridge PciController.alignWindows
  dsimp only
  rw [prescanIo_pcie, prescanPrefetch_pcie, prescanMem_pcie]

/-- Closing them rounds the pointers up again. -/
theorem pciautoPostscanSetupBridge_pcie (pcie : PciController σ) (lastSub : ℕ) (dev : PciDevice) :
    (pciautoPostscanSetupBridge pcie lastSub dev).1 = pcie.alignWindows := by
  have hmem (pcie : PciController σ) (dev : PciDevice) :
      (postscanMem pcie dev).1 = pcie.updateRegion (pcie.ptr .mem)
        (pciautoRegionAlign · configPciBridgeMemAlignment) := by
    unfold postscanMem
    split
    · rename_i h
      exact (PciController.updateRegion_of_chosen_none h _).symm
    · rfl
  have hprefetch (pcie : PciController σ) (dev : PciDevice) :
      (postscanPrefetch pcie dev).1 = pcie.updateRegion (pcie.ptr .prefetch)
        (pciautoRegionAlign · configPciBridgeMemAlignment) := by
    unfold postscanPrefetch
    split
    · rename_i h
      exact (PciController.updateRegion_of_chosen_none h _).symm
    · rfl
  have hio (pcie : PciController σ) (dev : PciDevice) :
      (postscanIo pcie dev).1
        = pcie.updateRegion (pcie.ptr .io) (pciautoRegionAlign · 0x1000#32) := by
    unfold postscanIo
    split
    · rename_i h
      exact (PciController.updateRegion_of_chosen_none h _).symm
    · rfl
  unfold pciautoPostscanSetupBridge PciController.alignWindows
  dsimp only
  rw [hio, hprefetch, hmem]

/-- Aligning a region changes the regions only. -/
theorem onlyRegions_align (pcie : PciController σ) (k : RegionKind) (size : BitVec 32) :
    OnlyRegions pcie (pcie.updateRegion (pcie.ptr k) (pciautoRegionAlign · size)) := by
  refine ⟨?_, fun hs => hs.updateRegion _ fun _ _ _ _ => rfl⟩
  unfold PciController.updateRegion
  split <;> rfl

/-- Aligning the three regions changes the regions only. -/
theorem onlyRegions_alignWindows (pcie : PciController σ) : OnlyRegions pcie pcie.alignWindows :=
  ((onlyRegions_align pcie .mem _).trans (onlyRegions_align _ .prefetch _)).trans
    (onlyRegions_align _ .io _)

/-- Rounding up to a grain that divides the bus does not leave it. -/
theorem alignUp_le_bus {p grain : ℕ} (hgrain : grain ∣ 2 ^ 32) (hp : p ≤ 2 ^ 32) :
    alignUp p grain ≤ 2 ^ 32 := alignUp_le hp hgrain

/-- `RegionAt` after its region was rounded, whether there is one or not. -/
theorem RegionAt.round {pcie : PciController σ} {k : RegionKind} {res : Option PciRegion} {p : ℕ}
    (h : RegionAt pcie k res p) {size : BitVec 32} {n : ℕ} (hsize : size.toNat = 2 ^ n) :
    RegionAt (pcie.updateRegion (pcie.ptr k) (pciautoRegionAlign · size)) k res
      (alignUp p size.toNat) := by
  cases res with
  | some res => exact h.align hsize
  | none =>
    have hpos : 0 < size.toNat := by rw [hsize]; exact Nat.two_pow_pos n
    have hn : n < 32 := (Nat.pow_lt_pow_iff_right (by decide : 1 < 2)).1 (hsize ▸ size.isLt)
    refine ⟨(h.align hsize).chosen, h.fits, h.start_le.trans (le_alignUp hpos p), ?_⟩
    rw [hsize]
    exact alignUp_le_bus (Nat.pow_dvd_pow 2 (by omega)) h.le

/-- Where the pointer of a region of memory stands after a bridge's windows were opened or closed. -/
theorem RegionAt.alignWindows {pcie : PciController σ} {k : RegionKind} {res : Option PciRegion}
    {p : ℕ} (h : RegionAt pcie k res p) (hsel : pcie.Selected) (hk : k ≠ .io) :
    RegionAt pcie.alignWindows k res (alignUp p (2 ^ 20)) := by
  have hgrain : configPciBridgeMemAlignment.toNat = 2 ^ 20 := rfl
  have hframe {k' : RegionKind} (hne : k' ≠ k) {pcie : PciController σ} {q : ℕ} (size : BitVec 32)
      (hsel : pcie.Selected) (h : RegionAt pcie k res q) :
      RegionAt (pcie.updateRegion (pcie.ptr k') (pciautoRegionAlign · size)) k res q :=
    h.congr (hsel.chosen_updateRegion_of_ne hne _)
  unfold PciController.alignWindows
  have hsel₁ := (onlyRegions_align pcie .mem configPciBridgeMemAlignment).selected hsel
  have hsel₂ := (onlyRegions_align _ .prefetch configPciBridgeMemAlignment).selected hsel₁
  cases k with
  | io => exact absurd rfl hk
  | mem => exact hframe (by decide) _ hsel₂ (hframe (by decide) _ hsel₁ (h.round hgrain))
  | prefetch => exact hframe (by decide) _ hsel₂ ((hframe (by decide) _ hsel h).round hgrain)

/-! ## The registers written -/

section Registers

variable {ranges : List (ℕ × ℕ)}

/-- The fix-up of the link writes in the capabilities only. -/
theorem rewritten_pciautoExpFixupLink (link : LinkAnswers) (dev : PciDevice) {pcieOff : ℕ}
    (hoff : 64 ≤ pcieOff) (hoff' : pcieOff < 256) :
    Rewritten [(64, 4032)] dev (pciautoExpFixupLink link dev pcieOff) := by
  have hwrite (dev : PciDevice) (register : ℕ) (value : BitVec 16) (hr : register < 64) :
      Rewritten [(64, 4032)] dev (pciWriteConfig16 dev (pcieOff + register) value) :=
    rewritten_pciWriteConfig dev 2 value (List.mem_singleton_self _) (by dsimp only; omega)
      (by dsimp only; omega)
  have hwrites (dev : PciDevice) (v w : BitVec 16) :
      Rewritten [(64, 4032)] dev (pciWriteConfig16 (pciWriteConfig16 dev (pcieOff + pciExpLnkctl2) v)
        (pcieOff + pciExpLnkctl) w) :=
    (hwrite dev _ v (by decide)).trans (hwrite _ _ w (by decide))
  unfold pciautoExpFixupLink
  dsimp only
  repeat' split
  all_goals first | exact Rewritten.refl _ _ | skip
  · exact hwrites dev _ _
  · exact (hwrites dev _ _).trans (hwrites _ _ _)

/-- So does the prescan of a link. -/
theorem rewritten_prescanLink (link : LinkAnswers) (dev : PciDevice) :
    Rewritten [(64, 4032)] dev (prescanLink link dev) := by
  unfold prescanLink
  dsimp only
  obtain h | ⟨hlow, hhigh, -⟩ := pciFindCapability_spec dev pciCapIdExp
  · rw [if_neg (by simpa using h)]
    exact Rewritten.refl _ _
  · rw [if_pos (by omega)]
    exact rewritten_pciautoExpFixupLink link dev hlow hhigh

/-- A write of a register inside the only range of a list. -/
theorem rewritten_write {dev : PciDevice} (len : ℕ) {offset low size : ℕ} (value : BitVec (8 * len))
    (hlow : low ≤ offset) (hhigh : offset + len ≤ low + size) :
    Rewritten [(low, size)] dev (pciWriteConfig (8 * len) dev offset value) :=
  rewritten_pciWriteConfig dev len value (List.mem_singleton_self _) hlow hhigh

/-- The bus numbers are written to their three registers. -/
theorem rewritten_prescanBusNumbers (pcie : PciController σ) (busNumber : ℕ) (dev : PciDevice) :
    Rewritten [(pciPrimaryBus, 3)] dev (prescanBusNumbers pcie busNumber dev) :=
  ((rewritten_write 1 _ (by decide) (by decide)).trans
    (rewritten_write 1 _ (by decide) (by decide))).trans (rewritten_write 1 _ (by decide) (by decide))

/-- The prescan of the memory window writes its base only. -/
theorem rewritten_prescanMem (st : SetupState σ) :
    Rewritten [(pciMemoryBase, 2)] st.dev (prescanMem st).dev := by
  unfold prescanMem
  split
  · exact Rewritten.refl _ _
  · exact rewritten_write 2 _ (by decide) (by decide)

/-- The prescan of the prefetchable window writes its base, and the upper halves. -/
theorem rewritten_prescanPrefetch (prefetchable64 : BitVec 16) (st : SetupState σ) :
    Rewritten [(pciPrefMemoryBase, 12)] st.dev (prescanPrefetch prefetchable64 st).dev := by
  have hwrite (dev : PciDevice) (register : ℕ) (value : BitVec 16)
      (hr : pciPrefMemoryBase ≤ register ∧ register < 0x2f) :
      Rewritten [(pciPrefMemoryBase, 12)] dev (pciWriteConfig16 dev register value) :=
    rewritten_write 2 value hr.1 (by have := hr.2; dsimp only [pciPrefMemoryBase]; omega)
  unfold prescanPrefetch
  split
  · have hclosed := (hwrite st.dev pciPrefMemoryBase (0xfff0#16 ||| prefetchable64) (by decide)).trans
      (hwrite _ pciPrefMemoryLimit prefetchable64 (by decide))
    dsimp only
    split
    · exact (hclosed.trans (hwrite _ _ 0 (by decide))).trans (hwrite _ _ 0 (by decide))
    · exact hclosed
  · rename_i res _
    have hbase := hwrite st.dev pciPrefMemoryBase
      (windowBase (pciautoRegionAlign res configPciBridgeMemAlignment).busLower ||| prefetchable64)
      (by decide)
    dsimp only
    split
    · exact hbase.trans (rewritten_write 4 _ (by decide) (by decide))
    · exact hbase

/-- The prescan of the I/O window writes its base, and the upper halves. -/
theorem rewritten_prescanIo (io32 : BitVec 8) (st : SetupState σ) :
    Rewritten [(pciIoBase, 2), (pciIoBaseUpper16, 4)] st.dev (prescanIo io32 st).dev := by
  have hlow (dev : PciDevice) (register : ℕ) (value : BitVec 8)
      (hr : pciIoBase ≤ register ∧ register < 0x1e) :
      Rewritten [(pciIoBase, 2), (pciIoBaseUpper16, 4)] dev (pciWriteConfig8 dev register value) :=
    rewritten_pciWriteConfig dev 1 value List.mem_cons_self hr.1
      (by have := hr.2; dsimp only [pciIoBase]; omega)
  have hhigh (dev : PciDevice) (register : ℕ) (value : BitVec 16)
      (hr : pciIoBaseUpper16 ≤ register ∧ register < 0x33) :
      Rewritten [(pciIoBase, 2), (pciIoBaseUpper16, 4)] dev (pciWriteConfig16 dev register value) :=
    rewritten_pciWriteConfig dev 2 value (List.mem_cons_of_mem _ (List.mem_singleton_self _)) hr.1
      (by have := hr.2; dsimp only [pciIoBaseUpper16]; omega)
  unfold prescanIo
  split
  · have hclosed := (hlow st.dev pciIoBase (0xf0#8 ||| io32) (by decide)).trans
      (hlow _ pciIoLimit io32 (by decide))
    dsimp only
    split
    · exact (hclosed.trans (hhigh _ _ 0 (by decide))).trans (hhigh _ _ 0 (by decide))
    · exact hclosed
  · rename_i res _
    have hbase := hlow st.dev pciIoBase
      (((((pciautoRegionAlign res 0x1000#32).busLower &&& 0x0000f000#32) >>> 8)
        &&& pciIoRangeMask).setWidth 8 ||| io32) (by decide)
    dsimp only
    split
    · exact hbase.trans (hhigh _ _ _ (by decide))
    · exact hbase

/-- The registers that opening the windows writes, in the order of the groups. -/
def prescanRanges : List (ℕ × ℕ) :=
  [(pciPrimaryBus, 3), (pciMemoryBase, 2), (pciPrefMemoryBase, 12), (pciIoBase, 2),
    (pciIoBaseUpper16, 4), (64, 4032), (pciCommand, 2)]

/-- Each group of registers is left alone by the ones behind it. -/
theorem pciautoPrescanSetupBridge_rewritten (pcie : PciController σ) (busNumber : ℕ)
    (link : LinkAnswers) (dev : PciDevice) :
    let dev₀ := prescanBusNumbers pcie busNumber dev
    let st₁ := prescanMem ⟨pcie, dev₀, pciReadConfig16 dev pciCommand⟩
    let st₂ := prescanPrefetch (pciReadConfig16 dev pciPrefMemoryBase &&& pciPrefRangeTypeMask) st₁
    let dev' := (pciautoPrescanSetupBridge pcie busNumber link dev).2
    Rewritten (prescanRanges.drop 3) st₂.dev dev' ∧ Rewritten (prescanRanges.drop 2) st₁.dev dev' ∧
      Rewritten (prescanRanges.drop 1) dev₀ dev' ∧ Rewritten prescanRanges dev dev' := by
  intro dev₀ st₁ st₂ dev'
  set st₃ := prescanIo (pciReadConfig8 dev pciIoBase &&& pciIoRangeTypeMask) st₂
  have hcommand : Rewritten [(pciCommand, 2)] (prescanLink link st₃.dev) dev' :=
    rewritten_write 2 _ (by decide) (by decide)
  have h₂ : Rewritten (prescanRanges.drop 3) st₂.dev dev' :=
    (((rewritten_prescanIo _ st₂).mono (by decide)).trans
      ((rewritten_prescanLink link st₃.dev).mono (by decide))).trans (hcommand.mono (by decide))
  have h₁ : Rewritten (prescanRanges.drop 2) st₁.dev dev' :=
    ((rewritten_prescanPrefetch _ st₁).mono (by decide)).trans (h₂.mono (by decide))
  have h₀ : Rewritten (prescanRanges.drop 1) dev₀ dev' :=
    ((rewritten_prescanMem _).mono (by decide)).trans (h₁.mono (by decide))
  exact ⟨h₂, h₁, h₀, ((rewritten_prescanBusNumbers pcie busNumber dev).mono (by decide)).trans
    (h₀.mono (by decide))⟩

/-- The postscan of the memory window writes its limit only. -/
theorem rewritten_postscanMem (pcie : PciController σ) (dev : PciDevice) :
    Rewritten [(pciMemoryLimit, 2)] dev (postscanMem pcie dev).2 := by
  unfold postscanMem
  split
  · exact Rewritten.refl _ _
  · exact rewritten_write 2 _ (by decide) (by decide)

/-- The postscan of the prefetchable window writes its limit, with the upper half. -/
theorem rewritten_postscanPrefetch (pcie : PciController σ) (dev : PciDevice) :
    Rewritten [(pciPrefMemoryLimit, 2), (pciPrefLimitUpper32, 4)] dev
      (postscanPrefetch pcie dev).2 := by
  unfold postscanPrefetch
  split
  · exact Rewritten.refl _ _
  · have hlimit (value : BitVec 16) : Rewritten [(pciPrefMemoryLimit, 2), (pciPrefLimitUpper32, 4)]
        dev (pciWriteConfig16 dev pciPrefMemoryLimit value) :=
      rewritten_pciWriteConfig dev 2 value List.mem_cons_self le_rfl le_rfl
    dsimp only
    split
    · exact (hlimit _).trans ((rewritten_write 4 _ le_rfl le_rfl).mono (by decide))
    · exact hlimit _

/-- The postscan of the I/O window writes its limit, with the upper half. -/
theorem rewritten_postscanIo (pcie : PciController σ) (dev : PciDevice) :
    Rewritten [(pciIoLimit, 1), (pciIoLimitUpper16, 2)] dev (postscanIo pcie dev).2 := by
  unfold postscanIo
  split
  · exact Rewritten.refl _ _
  · have hlimit (value : BitVec 8) : Rewritten [(pciIoLimit, 1), (pciIoLimitUpper16, 2)]
        dev (pciWriteConfig8 dev pciIoLimit value) :=
      rewritten_pciWriteConfig dev 1 value List.mem_cons_self le_rfl le_rfl
    dsimp only
    split
    · exact (hlimit _).trans ((rewritten_write 2 _ le_rfl le_rfl).mono (by decide))
    · exact hlimit _

/-- The registers that closing the windows writes, in the order of the groups. -/
def postscanRanges : List (ℕ × ℕ) :=
  [(pciSubordinateBus, 1), (pciMemoryLimit, 2), (pciPrefMemoryLimit, 2), (pciPrefLimitUpper32, 4),
    (pciIoLimit, 1), (pciIoLimitUpper16, 2)]

/-- Each group of registers is left alone by the ones behind it. -/
theorem pciautoPostscanSetupBridge_rewritten (pcie : PciController σ) (lastSub : ℕ)
    (dev : PciDevice) :
    let dev₀ := pciWriteConfig8 dev pciSubordinateBus
      (BitVec.ofNat 8 (lastSub - pcie.busNumberBase))
    let r₁ := postscanMem pcie dev₀
    let r₂ := postscanPrefetch r₁.1 r₁.2
    let dev' := (pciautoPostscanSetupBridge pcie lastSub dev).2
    Rewritten (postscanRanges.drop 4) r₂.2 dev' ∧ Rewritten (postscanRanges.drop 2) r₁.2 dev' ∧
      Rewritten (postscanRanges.drop 1) dev₀ dev' ∧ Rewritten postscanRanges dev dev' := by
  intro dev₀ r₁ r₂ dev'
  have h₂ : Rewritten (postscanRanges.drop 4) r₂.2 dev' :=
    (rewritten_postscanIo r₂.1 r₂.2).mono (by decide)
  have h₁ : Rewritten (postscanRanges.drop 2) r₁.2 dev' :=
    ((rewritten_postscanPrefetch r₁.1 r₁.2).mono (by decide)).trans (h₂.mono (by decide))
  have h₀ : Rewritten (postscanRanges.drop 1) dev₀ dev' :=
    ((rewritten_postscanMem pcie dev₀).mono (by decide)).trans (h₁.mono (by decide))
  have hdev : Rewritten [(pciSubordinateBus, 1)] dev dev₀ := rewritten_write 1 _ le_rfl le_rfl
  exact ⟨h₂, h₁, h₀, (hdev.mono (by decide)).trans (h₀.mono (by decide))⟩

/-- A register outside the ranges reads the same. -/
theorem Rewritten.read {dev dev' : PciDevice} (h : Rewritten ranges dev dev') {w offset : ℕ}
    (hap : ∀ r ∈ ranges, RegisterFile.Apart (8 * r.2) r.1 w offset) :
    pciReadConfig w dev' offset = pciReadConfig w dev offset :=
  pciReadConfig_of_sameOutside h.outside hap

end Registers

end BcmPcie
