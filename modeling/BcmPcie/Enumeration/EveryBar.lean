import BcmPcie.Enumeration.Placement

/-! # What holds of every BAR

A BAR is filled in where it has been granted an address, and nowhere else. What a grant makes sure of
holds therefore of every BAR of a machine, if the controllers that grant have something in common.

* `Granting` — what the allocator keeps of a controller, and gives a BAR.
* `everyBar_setup` — every BAR of a function, behind its set-up.
* `Scan.everyBar` — every BAR of every function that a scan configures. -/

namespace BcmPcie

variable {σ : Type}

/-- A grant keeps `I` of the controller, and gives the BAR it is for `P`. -/
structure Granting (I : PciController σ → Prop) (P : PciBarInfo → Prop) : Prop where
  allocate : ∀ {pcie pcie' : PciController σ} {k : RegionKind} {size addr : BitVec 32}
    {supports64bit : Bool}, I pcie → pcie.allocate (pcie.ptr k) size supports64bit = some (addr, pcie') →
      I pcie'
  bar : ∀ {pcie pcie' : PciController σ} {response addr : BitVec 32}, I pcie →
    pcie.allocate (pcie.ptr (barKind (pcie.ptr .prefetch).isSome response)) (barSize response)
        (isMem64Bar response) = some (addr, pcie') →
      P (barInfo pcie' (isIoBar response) (barSizing response) addr)

/-! ## One function -/

/-- `I` holds of the controller, which still allocates from the same regions, and `P` of the BARs. -/
structure EveryBar (I : PciController σ → Prop) (P : PciBarInfo → Prop)
    (regions : RegionKind → Option ℕ) (st : SetupState σ) : Prop where
  controller : I st.pcie
  ptr : ∀ k, st.pcie.ptr k = regions k
  bars : ∀ slot, P (st.dev.bars slot)

section Setup

variable {I : PciController σ → Prop} {P : PciBarInfo → Prop} {regions : RegionKind → Option ℕ}
  {st : SetupState σ}

/-- The registers of the function are written, and the command value changes. -/
theorem EveryBar.rewrite (h : EveryBar I P regions st) {dev : PciDevice} (hdev : dev.bars = st.dev.bars)
    (command : BitVec 16) : EveryBar I P regions ⟨st.pcie, dev, command⟩ :=
  ⟨h.controller, h.ptr, fun slot => hdev ▸ h.bars slot⟩

/-- A round of the loop keeps what holds of every BAR. -/
theorem EveryBar.setupBar (h : EveryBar I P regions st) (hgrant : Granting I P) {slot : ℕ}
    (hslot : slot < 7) : EveryBar I P regions (setupBar regions st slot).1 := by
  obtain ⟨dev, hdev, hround⟩ := setupBar_round regions st hslot rfl
  rcases hround with ⟨-, heq⟩ | ⟨-, -, heq⟩ | ⟨-, addr, pcie, halloc, -, heq⟩
  · rw [heq]
    exact h.rewrite hdev.bars _
  · rw [heq]
    exact h.rewrite hdev.bars _
  · rw [heq]
    rw [← h.ptr, ← h.ptr] at halloc
    refine ⟨hgrant.allocate h.controller halloc, fun k => ?_, fun slot' => ?_⟩
    · exact ((OnlyRegions.allocate halloc).ptr k).trans (h.ptr k)
    · -- the BAR that was placed, and the others
      by_cases hself : slot' = slot
      · rw [hself]
        show P (Function.update st.dev.bars slot _ slot)
        rw [Function.update_self]
        exact hgrant.bar h.controller halloc
      · show P (Function.update st.dev.bars slot _ slot')
        rw [Function.update_of_ne hself]
        exact h.bars slot'

/-- So does the loop. -/
theorem EveryBar.setupBars (hgrant : Granting I P) {barsNum : ℕ} (hnum : barsNum ≤ 6)
    (rounds : ℕ) {slot : ℕ} {st : SetupState σ} (h : EveryBar I P regions st) :
    EveryBar I P regions (setupBars regions barsNum rounds slot st) := by
  induction rounds generalizing slot st with
  | zero => exact h
  | succ rounds ih =>
    rw [BcmPcie.setupBars]
    split
    · rename_i hslot
      exact ih (h.setupBar hgrant (by omega))
    · exact h

/-- So does the expansion ROM. -/
theorem EveryBar.setupRom (h : EveryBar I P regions st) (hgrant : Granting I P) :
    EveryBar I P regions (setupRom regions st) := by
  obtain ⟨dev, hdev, hcases⟩ := setupRom_cases regions st rfl
  obtain ⟨-, heq⟩ | ⟨-, -, command, heq⟩ | ⟨-, addr, pcie, command, halloc, heq⟩ := hcases
  · rw [heq]
    exact h.rewrite hdev.bars _
  · rw [heq]
    exact h.rewrite hdev.bars _
  · rw [heq]
    rw [← h.ptr] at halloc
    exact ⟨hgrant.allocate h.controller halloc, fun k => ((OnlyRegions.allocate halloc).ptr k).trans (h.ptr k),
      fun slot => hdev.bars ▸ h.bars slot⟩

/-- The set-up of a function. -/
theorem everyBar_setup (hgrant : Granting I P) {pcie : PciController σ} (hI : I pcie)
    (bridges : List PciDevice) {dev : PciDevice} (hnum : dev.barsNum ≤ 6)
    (hbars : ∀ slot, P (dev.bars slot)) :
    I (pciautoSetupDevice pcie bridges dev pcie.ptr).1 ∧
      ∀ slot, P ((pciautoSetupDevice pcie bridges dev pcie.ptr).2.bars slot) := by
  unfold pciautoSetupDevice
  dsimp only
  generalize hst₀ : (⟨pcie, dev, _⟩ : SetupState σ) = st₀
  have hstart : EveryBar I P pcie.ptr st₀ := by
    rw [← hst₀]
    exact ⟨hI, fun _ => rfl, hbars⟩
  have hslots := @EveryBar.setupBars _ _ _ pcie.ptr hgrant _ hnum dev.barsNum 0 _ hstart
  have hloop := hslots.setupRom hgrant
  generalize setupRom pcie.ptr _ = st₂ at hloop ⊢
  generalize (if pciReadConfig16 st₂.dev pciClassDevice = pciClassDisplayVga then
    st₂.command ||| pciCommandIo else st₂.command) = command
  have htail := (pciautoSetupDevice_tail st₂.pcie bridges st₂.dev command).2.1
  exact ⟨hloop.controller, fun slot => htail ▸ hloop.bars slot⟩

end Setup

/-! ## A scan -/

/-- What a scan does with a controller keeps `I`, and a slot without a BAR has `P`. -/
structure ScanGranting (I : PciController σ → Prop) (P : PciBarInfo → Prop) : Prop
    extends Granting I P where
  absent : ∀ bar, bar.present = false → P bar
  nextBus : ∀ {pcie}, I pcie → I pcie.nextBus
  alignWindows : ∀ {pcie}, I pcie → I pcie.alignWindows
  configInit : ∀ {pcie}, I pcie → I (pciautoConfigInit pcie)

/-- **Every BAR of a scan** has what its grant has given it. -/
theorem Scan.everyBar {I : PciController σ → Prop} {P : PciBarInfo → Prop} (hscan : ScanGranting I P)
    {b last last' : ℕ} {bridges : List PciDevice} {pcie pcie' : PciController σ}
    {functions : Forest HwFunction} {configured : Forest ConfiguredFunction}
    (h : Scan b bridges pcie last functions configured pcie' last') (hI : I pcie) :
    I pcie' ∧ ∀ f ∈ configured.toList, ∀ slot, P (f.dev.bars slot) := by
  have hsetup {pcie pcie₁ : PciController σ} {bridges : List PciDevice} {hw : HwFunction} {b : ℕ}
      {dev : PciDevice} (hI : I pcie)
      (h : pciautoSetupDevice pcie bridges (hw.record b) pcie.ptr = (pcie₁, dev)) :
      I pcie₁ ∧ ∀ slot, P (dev.bars slot) := by
    have hspec := everyBar_setup hscan.toGranting hI bridges (record_barsNum hw b)
      fun _ => hscan.absent _ rfl
    rwa [h] at hspec
  -- on the scan: the windows of a bridge are set around what is below it, its BARs before
  induction h with
  | nil => exact ⟨hI, fun f hf => nomatch hf⟩
  | leaf hclass hdev hrest ih =>
    obtain ⟨hI₁, hbars⟩ := hsetup hI hdev
    obtain ⟨hI', hall⟩ := ih hI₁
    refine ⟨hI', fun f hf => ?_⟩
    rcases List.mem_cons.1 hf with rfl | hf
    · exact hbars
    · exact hall f hf
  | @bridge _ _ _ _ _ _ _ _ _ pcie₁ _ pcie₂ lastSub _ _ hclass hdev hbelow hrest ihb ihr =>
    obtain ⟨hI₁, hbars⟩ := hsetup hI hdev
    obtain ⟨hI₂, hbelow⟩ := ihb (hscan.configInit (hscan.alignWindows (hscan.nextBus hI₁)))
    obtain ⟨hI', hall⟩ := ihr (hscan.alignWindows hI₂)
    refine ⟨hI', fun f hf => ?_⟩
    rcases List.mem_cons.1 hf with rfl | hf
    · intro slot
      rw [(scannedBridge_rewritten pcie₁.nextBus pcie₂ pcie₁.nextBus.busNumberLast lastSub _ _).bars]
      exact hbars slot
    · rcases List.mem_append.1 hf with hf | hf
      · exact hbelow f hf
      · exact hall f hf

/-- The memory BARs of a machine are among the BARs of its functions. -/
theorem slot_of_mem_memoryBars {configured : Forest ConfiguredFunction} {bar : PciBarInfo}
    (h : bar ∈ memoryBars configured) :
    ∃ f ∈ configured.toList, ∃ slot, f.dev.bars slot = bar ∧ bar.present = true ∧ bar.type = .mem := by
  obtain ⟨hmem, hkind⟩ := List.mem_filter.1 h
  obtain ⟨f, hf, hslot⟩ := List.mem_flatMap.1 hmem
  obtain ⟨slot, -, rfl⟩ := List.mem_map.1 hslot
  obtain ⟨hpresent, htype⟩ := (Bool.and_eq_true _ _).mp hkind
  exact ⟨f, hf, slot, rfl, hpresent, of_decide_eq_true htype⟩

/-- The memory BARs that a scan has found. -/
def scannedBars :
    EStateM.Result Errno (EnumState σ) (PciBus × Forest ConfiguredFunction) → List PciBarInfo
  | .ok r _ => memoryBars r.2
  | .error _ _ => []

end BcmPcie
