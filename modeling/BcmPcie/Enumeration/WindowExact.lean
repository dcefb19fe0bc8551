import BcmPcie.Enumeration.BridgeWindows
import BcmPcie.Enumeration.RegionCalls
import Mathlib.Data.List.Induction

/-! # What a bridge's memory window forwards

The memory window of one bridge, from a region in any state that a run of the allocator leaves, with
any further calls on the region between `pciauto_prescan_setup_bridge` and
`pciauto_postscan_setup_bridge`. An empty window is one whose base is above its limit.

* `alignUp_pointer_run` — the pointer after a run is behind the last block it granted, up to 1 MiB.
* `windowExact_iff` — the window is exact just when it does not start at 4 GiB and the last block is
  neither empty nor wraps. -/

namespace BcmPcie

open Bump Runs

variable {σ : Type*}

/-! ## The pointer after a run -/

/-- Where the pointer stands behind a block that ends at `e`: 32 bits of it, 0 standing for 4 GiB. -/
def wrapAround (e : ℕ) : ℕ := (e + (2 ^ 32 - 1)) % 2 ^ 32 + 1

/-- An end that is not 0 does not wrap. -/
theorem wrapAround_of_pos {e : ℕ} (hpos : 0 < e) (hle : e ≤ 2 ^ 32) : wrapAround e = e := by
  unfold wrapAround
  omega

/-- A granted block leaves the pointer behind it. -/
theorem pointer_of_granted {res : PciRegion} {c : RegionCall} {b : Block Unit}
    (h : regionGranted res c = some b) :
    (regionStep res c).pointer = wrapAround (b.addr + b.size) := by
  obtain ⟨size, supports64bit, -, -, rfl, hstep⟩ := regionGranted_eq_some h
  have hone : (1 : BitVec 32).toNat = 1 := rfl
  rw [hstep]
  unfold PciRegion.pointer wrapAround
  dsimp only
  rw [BitVec.toNat_sub, BitVec.toNat_add, hone]
  omega

/-- **The pointer after a run** that aligns to 1 MiB only: up to that, it is behind the last block. -/
theorem alignUp_pointer_run (res : PciRegion) (cs : List RegionCall)
    (halign : ∀ size, .align size ∈ cs → size = configPciBridgeMemAlignment) :
    alignUp (run regionStep res cs).pointer (2 ^ 20)
      = match (regionBlocks res cs).getLast? with
        | some b => alignUp (wrapAround (b.addr + b.size)) (2 ^ 20)
        | none => alignUp res.pointer (2 ^ 20) := by
  induction cs using List.reverseRecOn with
  | nil => rfl
  | append_singleton cs c ih =>
    have hrest := ih fun size h => halign size (List.mem_append_left _ h)
    have hlast : run regionStep res (cs ++ [c]) = regionStep (run regionStep res cs) c := by
      rw [run_append, run_cons, run_nil]
    rw [hlast, regionBlocks_append, regionBlocks, regionBlocks, List.append_nil]
    cases hg : regionGranted (run regionStep res cs) c with
    | some b =>
      rw [Option.toList_some, List.getLast?_append, List.getLast?_singleton]
      exact congrArg (alignUp · (2 ^ 20)) (pointer_of_granted hg)
    | none =>
      rw [Option.toList_none, List.append_nil, ← hrest]
      cases c with
      | allocate size supports64bit => rw [regionStep_of_granted_none _ hg]
      | align size =>
        -- a second rounding changes nothing
        have hgrain : size.toNat = 2 ^ 20 := by
          rw [halign size (by simp)]
          rfl
        rw [regionStep, pointer_pciautoRegionAlign _ hgrain, hgrain]
        exact alignUp_of_dvd (Nat.two_pow_pos 20) (dvd_alignUp _ _)

/-! ## Exact windows -/

/-- The bridge forwards memory requests for the address. -/
def ForwardsMemory (dev : PciDevice) (x : ℕ) : Prop := memoryBase dev ≤ x ∧ x < memoryEnd dev

instance (dev : PciDevice) (x : ℕ) : Decidable (ForwardsMemory dev x) :=
  inferInstanceAs (Decidable (_ ∧ _))

/-- The window opened at the pointer of `start` is exact for the blocks handed out behind it: nothing
where there are none, and else all from the pointer to the end of the last one, in MiB; and nothing
below the region. -/
structure WindowExact (start : PciRegion) (blocks : List (Block Unit)) (dev : PciDevice) : Prop where
  closed : blocks = [] → ∀ x < 2 ^ 32, ¬ ForwardsMemory dev x
  exact : ∀ b, blocks.getLast? = some b → ∀ x < 2 ^ 32, (ForwardsMemory dev x ↔
    alignUp start.pointer (2 ^ 20) ≤ x ∧ x < alignUp (b.addr + b.size) (2 ^ 20))
  above : ∀ x < 2 ^ 32, ForwardsMemory dev x → start.busStart.toNat ≤ x

/-- The window starts below 4 GiB, and the last block is not empty and ends at 4 GiB at most, or
wraps so far that it ends in the last MiB again. -/
def WindowCond (start : PciRegion) (blocks : List (Block Unit)) : Prop :=
  alignUp start.pointer (2 ^ 20) < 2 ^ 32 ∧ ∀ b, blocks.getLast? = some b →
    0 < b.size ∧ (b.addr + b.size ≤ 2 ^ 32 ∨ 2 ^ 33 - 2 ^ 20 < b.addr + b.size)

/-- The region of memory after a bridge's windows were opened. -/
theorem chosen_mem_prescan {pcie : PciController σ} (hsel : pcie.Selected) (busNumber : ℕ)
    (link : LinkAnswers) (dev : PciDevice) :
    (pciautoPrescanSetupBridge pcie busNumber link dev).1.chosen .mem
      = (pcie.chosen .mem).map (pciautoRegionAlign · configPciBridgeMemAlignment) := by
  have hsel₁ := (onlyRegions_align pcie .mem configPciBridgeMemAlignment).selected hsel
  have hsel₂ := (onlyRegions_align _ .prefetch configPciBridgeMemAlignment).selected hsel₁
  rw [pciautoPrescanSetupBridge_pcie, PciController.alignWindows]
  rw [hsel₂.chosen_updateRegion_of_ne (by decide), hsel₁.chosen_updateRegion_of_ne (by decide),
    PciController.chosen_updateRegion_self]

/-- The blocks of a run, whatever it asks for: an empty one is at address 0, and none is as large as
the bus. -/
theorem block_bounds (res : PciRegion) (cs : List RegionCall) :
    ∀ b ∈ regionBlocks res cs, b.addr < 2 ^ 32 ∧ b.size < 2 ^ 32 ∧ (b.size = 0 → b.addr = 0) := by
  induction cs generalizing res with
  | nil =>
    intro b hb
    cases hb
  | cons c cs ih =>
    intro b hb
    rw [regionBlocks, List.mem_append, Option.mem_toList] at hb
    rcases hb with hb | hb
    · obtain ⟨size, -, -, -, rfl, -⟩ := regionGranted_eq_some hb
      refine ⟨BitVec.isLt _, size.isLt, fun hzero => ?_⟩
      have hsize : size = 0 := BitVec.eq_of_toNat_eq hzero
      have hones : (0 : BitVec 32) - 1 = BitVec.allOnes 32 := by decide
      dsimp only
      rw [hsize, hones, BitVec.or_allOnes]
      decide
    · exact ih (regionStep res c) b hb

/-- Base and end of a window decide whether it is exact. -/
theorem windowExact_of_ends {start : PciRegion} {blocks : List (Block Unit)} {dev : PciDevice}
    (hstart : start.busStart.toNat ≤ start.pointer)
    (hbounds : ∀ b ∈ blocks, b.addr < 2 ^ 32 ∧ b.size < 2 ^ 32 ∧ (b.size = 0 → b.addr = 0))
    (hbase : memoryBase dev = alignUp start.pointer (2 ^ 20) % 2 ^ 32)
    (hend : memoryEnd dev = match blocks.getLast? with
      | some b => alignUp (wrapAround (b.addr + b.size)) (2 ^ 20)
      | none => alignUp start.pointer (2 ^ 20)) :
    WindowExact start blocks dev ↔ WindowCond start blocks := by
  have hpointer : start.pointer ≤ alignUp start.pointer (2 ^ 20) :=
    le_alignUp (Nat.two_pow_pos 20) start.pointer
  have hpos := start.pointer_pos
  have htop : alignUp start.pointer (2 ^ 20) ≤ 2 ^ 32 :=
    alignUp_le start.pointer_le (Nat.pow_dvd_pow 2 (by decide))
  -- the end of the window and the end of the block, in MiB
  have hwrap (e : ℕ) : 0 < wrapAround e ∧ wrapAround e ≤ alignUp (wrapAround e) (2 ^ 20) ∧
      e ≤ alignUp e (2 ^ 20) :=
    ⟨Nat.succ_pos _, le_alignUp (Nat.two_pow_pos 20) _, le_alignUp (Nat.two_pow_pos 20) e⟩
  have hceil (e c : ℕ) (he : e ≤ c * 2 ^ 20) : alignUp e (2 ^ 20) ≤ c * 2 ^ 20 :=
    alignUp_le he (Nat.dvd_mul_left _ _)
  constructor
  · intro h
    have hbelow : alignUp start.pointer (2 ^ 20) < 2 ^ 32 := by
      by_contra hge
      -- the window starts at address 0
      have hzero : memoryBase dev = 0 := by
        rw [hbase]
        omega
      cases hlast : blocks.getLast? with
      | none =>
        rw [hlast] at hend
        dsimp only at hend
        exact h.closed (List.getLast?_eq_none_iff.1 hlast) 0 (by decide) ⟨by omega, by omega⟩
      | some b =>
        rw [hlast] at hend
        dsimp only at hend
        have hw := hwrap (b.addr + b.size)
        have hforward := (h.exact b hlast 0 (by decide)).1 ⟨by omega, by omega⟩
        omega
    refine ⟨hbelow, fun b hlast => ?_⟩
    have hb := hbounds b (List.mem_of_getLast? hlast)
    have hexact := h.exact b hlast
    have hw := hwrap (b.addr + b.size)
    rw [hlast] at hend
    dsimp only at hend
    unfold ForwardsMemory at hexact
    rw [hbase, hend, Nat.mod_eq_of_lt hbelow] at hexact
    have hsize : 0 < b.size := by
      by_contra hzero
      have hempty : b.addr + b.size = 0 := by omega
      have hforward := (hexact (alignUp start.pointer (2 ^ 20)) hbelow).1
      rw [hempty] at hforward
      have hwindow : alignUp (wrapAround 0) (2 ^ 20) = 2 ^ 32 := by decide
      have hnone : alignUp 0 (2 ^ 20) = 0 := by decide
      rw [hwindow, hnone] at hforward
      omega
    refine ⟨hsize, ?_⟩
    by_contra hnot
    have hend' : wrapAround (b.addr + b.size) ≤ 4095 * 2 ^ 20 := by
      unfold wrapAround
      omega
    have hshort := hceil _ _ hend'
    have htopByte := (hexact (2 ^ 32 - 1) (by decide)).2
    omega
  · rintro ⟨hbelow, hlastCond⟩
    rw [Nat.mod_eq_of_lt hbelow] at hbase
    refine ⟨fun hnil x _ hx => ?_, fun b hlast x hx => ?_, fun x _ hx => ?_⟩
    · rw [hnil, List.getLast?_nil] at hend
      unfold ForwardsMemory at hx
      dsimp only at hend
      omega
    · obtain ⟨hsize, hend'⟩ := hlastCond b hlast
      have hb := hbounds b (List.mem_of_getLast? hlast)
      have hw := hwrap (b.addr + b.size)
      rw [hlast] at hend
      dsimp only at hend
      unfold ForwardsMemory
      rw [hbase, hend]
      rcases hend' with hle | hfar
      · rw [wrapAround_of_pos (by omega) hle]
      · -- both ends are at 4 GiB or above
        have hfull : 4095 * 2 ^ 20 < wrapAround (b.addr + b.size) := by
          unfold wrapAround
          omega
        obtain ⟨c, hc⟩ := dvd_alignUp (wrapAround (b.addr + b.size)) (2 ^ 20)
        omega
    · unfold ForwardsMemory at hx
      omega

/-- **The memory window of a bridge.** From any state the allocator leaves, with any calls between
opening and closing the windows: the window is exact just when it starts below 4 GiB and the last
block is neither empty nor wraps. -/
theorem windowExact_iff (res : PciRegion) (hfits : res.Fits) (before between : List RegionCall)
    (halign : ∀ size, .align size ∈ between → size = configPciBridgeMemAlignment)
    (pcie pcie' : PciController σ) (hsel : pcie.Selected) (busNumber lastSub : ℕ)
    (link : LinkAnswers) (dev : PciDevice)
    (hconf : ∀ r ∈ [pciMemoryBase, pciMemoryLimit], dev.cfg.Writable 16 r 0xfff0#16)
    (hbefore : pcie.chosen .mem = some (run regionStep (pciautoRegionInit res) before))
    (hbetween : pcie'.chosen .mem
      = ((pciautoPrescanSetupBridge pcie busNumber link dev).1.chosen .mem).map
          (run regionStep · between)) :
    let start := run regionStep (pciautoRegionInit res) before
    let blocks := regionBlocks (pciautoRegionAlign start configPciBridgeMemAlignment) between
    WindowExact start blocks (scannedBridge pcie pcie' busNumber lastSub link dev) ↔
      WindowCond start blocks := by
  intro start blocks
  have hgrain : configPciBridgeMemAlignment.toNat = 2 ^ 20 := rfl
  rw [chosen_mem_prescan hsel, hbefore] at hbetween
  obtain ⟨hbase, hend⟩ := @scanned_memoryWindow_pointer _ _ _ busNumber lastSub link dev _ _ hbefore
    hbetween hconf
  have hopened : (pciautoRegionAlign start configPciBridgeMemAlignment).pointer
      = alignUp start.pointer (2 ^ 20) := pointer_pciautoRegionAlign start hgrain
  have hclosed := alignUp_pointer_run (pciautoRegionAlign start configPciBridgeMemAlignment) between
    halign
  -- the pointer is aligned when the window opens, and aligned again when it closes
  rw [hopened, alignUp_of_dvd (Nat.two_pow_pos 20) (dvd_alignUp _ _)] at hclosed
  obtain ⟨lower, hstart⟩ := run_regionStep_eq (pciautoRegionInit res) before
  have hlow : start.busStart.toNat ≤ start.pointer := by
    have hle := busStart_le_pointer res hfits before
    have hsame : start.busStart = res.busStart := by
      simp only [start, hstart]
      rfl
    rw [hsame]
    exact hle
  exact windowExact_of_ends hlow (block_bounds _ _) hbase (hend.trans hclosed)

/-! ## A bridge below a region that ends at 4 GiB -/

/-- A bridge that implements every bit of its configuration space. -/
def blankBridge : PciDevice where
  cfg := ⟨0, BitVec.allOnes _⟩
  tableMem := fun _ => 0

/-- The window registers of the sample bridge can be written. -/
theorem blankBridge_writable {r : ℕ} (h : r ∈ [pciMemoryBase, pciMemoryLimit]) :
    blankBridge.cfg.Writable 16 r 0xfff0#16 := by
  have hr : r + 16 ≤ 4096 := by
    rcases List.mem_pair.1 h with rfl | rfl <;> decide
  intro j hj _
  show (BitVec.allOnes (8 * 4096)).getLsbD (8 * r + j) = true
  rw [BitVec.getLsbD_allOnes, decide_eq_true_eq]
  omega

/-- The controller before the scan of a bus, and after calls on its region in between. -/
def beforeScan (calls : List RegionCall) : PciController Unit :=
  controllerOf (run regionStep (pciautoRegionInit topRegion) calls)
def afterScan (before between : List RegionCall) : PciController Unit :=
  controllerOf (run regionStep (pciautoRegionAlign
    (run regionStep (pciautoRegionInit topRegion) before) configPciBridgeMemAlignment) between)

/-- The window of a bridge with one block behind it is exact. -/
theorem windowExact_sample :
    let start := run regionStep (pciautoRegionInit topRegion) [.allocate 0x1000 false]
    let blocks := regionBlocks (pciautoRegionAlign start configPciBridgeMemAlignment)
      [.allocate 0x200000 false]
    WindowExact start blocks (scannedBridge (beforeScan [.allocate 0x1000 false])
      (afterScan [.allocate 0x1000 false] [.allocate 0x200000 false]) 1 1 {} blankBridge) := by
  refine (windowExact_iff topRegion (by decide) [.allocate 0x1000 false] [.allocate 0x200000 false]
    (by simp) _ _ (fun k => ?_) 1 1 {} blankBridge (fun _ => blankBridge_writable) rfl
    (by decide +kernel)).2 ⟨by decide +kernel, ?_⟩
  · cases k <;> decide +kernel
  · decide +kernel

/-- **A window that is open wide.** Behind a region that is used up to 4 GiB, a bridge with nothing
behind it forwards address 0: its base wraps to 0, and its limit is the last MiB. -/
theorem windowExact_fails :
    let start := run regionStep (pciautoRegionInit topRegion) [.allocate 0x40000000 false]
    ¬ WindowExact start [] (scannedBridge (beforeScan [.allocate 0x40000000 false])
      (afterScan [.allocate 0x40000000 false] []) 1 1 {} blankBridge) := by
  intro start h
  exact h.closed rfl 0 (by decide) (by decide +kernel)

end BcmPcie
