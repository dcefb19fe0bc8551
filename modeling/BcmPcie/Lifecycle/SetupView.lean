import BcmPcie.Enumeration.BridgeWindows
import BcmPcie.Enumeration.InertBars
import BcmPcie.Lifecycle.FunctionReset

/-! # The view of a function behind its configuration

`pciauto_setup_device` records the BARs of a function as it writes their registers. What it writes
after that, and what opening and closing the windows of a bridge writes, are other registers: the
command register, where memory stays decoded, those of the bridge windows, and two of the PCI Express
capability for the link below a bridge.

* `headerView_setup` — behind its set-up, the header of a function holds what its record says.
* `scannedBridge_writes` — what the scan of the bus behind a bridge writes to the bridge.
* `CachedView.scanned` — a bridge holds what its record says behind that as well. -/

namespace BcmPcie

variable {σ : Type}

/-! ## The set-up of a function -/

/-- The command register decodes memory. -/
theorem getLsbD_of_memory {command : BitVec 16} (h : command &&& pciCommandMemory ≠ 0) :
    command.getLsbD 1 = true := by
  by_contra hnot
  refine h (BitSet.and_eq_zero_iff.2 fun j hj => ?_)
  have hbit : pciCommandMemory = BitSet.bit 16 1 := by decide
  rw [hbit, BitSet.getLsbD_bit, Bool.and_eq_true, decide_eq_true_eq, decide_eq_true_eq] at hj
  rw [← hj.2]
  exact Bool.eq_false_of_not_eq_true hnot

section Setup

variable {pcie : PciController σ} {dev : PciDevice} {regions : RegionKind → Option ℕ}

/-- Assigning the INTx line leaves the mode and both capabilities. -/
theorem pciAssignIrq_keeps (pcie : PciController σ) (bridges : List PciDevice) (dev : PciDevice) :
    (pciAssignIrq pcie bridges dev).active = dev.active ∧
      (pciAssignIrq pcie bridges dev).msi = dev.msi ∧
      (pciAssignIrq pcie bridges dev).msix = dev.msix := by
  unfold pciAssignIrq
  dsimp only
  generalize (if 4 < (pciReadConfig8 dev pciInterruptPin).toNat then 1
    else (pciReadConfig8 dev pciInterruptPin).toNat) = pin
  split <;> exact ⟨rfl, rfl, rfl⟩

/-- The set-up of a new function ends with the decoding of its capabilities. -/
theorem deviceProbed_setup (pcie : PciController σ) (bridges : List PciDevice)
    (hnum : dev.barsNum ≤ 6) (hactive : dev.active = {}) (hmsi : dev.msi = {}) (hmsix : dev.msix = {})
    (regions : RegionKind → Option ℕ) :
    DeviceProbed (pciautoSetupDevice pcie bridges dev regions).2 := by
  unfold pciautoSetupDevice
  dsimp only
  generalize hst₀ : (⟨pcie, dev, _⟩ : SetupState σ) = st₀
  have hdev₀ : st₀.dev = dev := by rw [← hst₀]
  have hbars := (@setupBars_keeps _ regions st₀ 0 _ hnum dev.barsNum (Nat.zero_le 8)).1.record
  generalize setupBars regions dev.barsNum dev.barsNum 0 st₀ = st₁ at hbars ⊢
  have hrom := (setupRom_frame regions st₁).record
  generalize setupRom regions st₁ = st₂ at hrom ⊢
  generalize (if pciReadConfig16 st₂.dev pciClassDevice = pciClassDisplayVga then
    st₂.command ||| pciCommandIo else st₂.command) = command
  obtain ⟨hactive', hmsi', hmsix'⟩ := pciAssignIrq_keeps st₂.pcie bridges
    (pciWriteConfig8 (pciWriteConfig8 (pciWriteConfig16 st₂.dev pciCommand command)
      pciCacheLineSize 8) pciLatencyTimer 0x80)
  rw [hdev₀] at hbars
  refine ⟨_, hactive'.trans ?_, hmsi'.trans ?_, hmsix'.trans ?_, rfl⟩
  · rw [← hactive]
    show st₂.dev.active = dev.active
    rw [hrom, hbars]
  · rw [← hmsi]
    show st₂.dev.msi = dev.msi
    rw [hrom, hbars]
  · rw [← hmsix]
    show st₂.dev.msix = dev.msix
    rw [hrom, hbars]

/-- A register that got an address answered as a BAR, so there is a BAR of its space. -/
theorem exists_bar_of_granted (hnum : dev.barsNum ≤ 6) {layout : BarLayout dev.barsNum}
    (hlayout : LaidOut dev.cfg layout) {s : ℕ} {st : SetupState σ}
    (h : (s, st) ∈ deviceRounds pcie dev regions) (hgrant : (barGrant regions st s).isSome = true)
    (hmem : isIoBar (barResponse dev.cfg s) = false) :
    ∃ slot, ∃ b ∈ layout.bar slot, b.decoder.type = .mem := by
  obtain ⟨-, hs, hdev, -, -⟩ := mem_barRounds hnum h
  have hresponse : barResponse st.dev.cfg s = barResponse dev.cfg s := hdev.response _ _ _
  cases hb : layout.bar s with
  | some b =>
    refine ⟨s, b, hb, ?_⟩
    rw [(hlayout.bar hb).barResponse] at hmem
    cases htype : b.decoder.type with
    | mem => rfl
    | io =>
      rw [b.isIoBar_response.2 htype] at hmem
      cases hmem
  | none =>
    cases hupper : layout.isUpper s with
    | false =>
      unfold barGrant at hgrant
      dsimp only at hgrant
      rw [hresponse, hlayout.empty hs hb hupper, if_pos (Or.inl rfl)] at hgrant
      cases hgrant
    | true =>
      cases s with
      | zero => cases hupper
      | succ s =>
        obtain ⟨b, hb, h64⟩ := (Option.any_eq_true _ _).1 hupper
        refine ⟨s, b, hb, ?_⟩
        revert h64
        cases b.decoder <;> simp [BarDecoder.is64, BarDecoder.type]

/-- A BAR that is recorded was granted an address in a round of the loop. -/
theorem exists_round_of_present (bridges : List PciDevice) (hnum : dev.barsNum ≤ 6)
    (hfresh : ∀ slot, (dev.bars slot).present = false) {slot : ℕ}
    (hpresent : ((pciautoSetupDevice pcie bridges dev regions).2.bars slot).present = true) :
    ∃ st addr pcie', (slot, st) ∈ deviceRounds pcie dev regions ∧
      barGrant regions st slot = some (addr, pcie') := by
  rw [(pciautoSetupDevice_loop pcie bridges dev hnum regions).1] at hpresent
  obtain hbefore | ⟨st, hmem, hsome⟩ := present_of_rounds hnum hpresent
  · rw [show (setupStart pcie dev).dev = dev from rfl, hfresh] at hbefore
    cases hbefore
  · obtain ⟨⟨addr, pcie'⟩, hgrant⟩ := Option.isSome_iff_exists.1 hsome
    exact ⟨st, addr, pcie', hmem, hgrant⟩

/-- The round of a memory BAR leaves memory decoded behind the set-up. -/
theorem decodes_memory_of_granted (bridges : List PciDevice) (hnum : dev.barsNum ≤ 6)
    {layout : BarLayout dev.barsNum} (hlayout : LaidOut dev.cfg layout)
    (hdecode : ∀ slot, ∀ b ∈ layout.bar slot, CanDecode dev b.decoder) {slot : ℕ} {st : SetupState σ}
    (hmem : (slot, st) ∈ deviceRounds pcie dev regions)
    (hgrant : (barGrant regions st slot).isSome = true)
    (hspace : isIoBar (barResponse dev.cfg slot) = false) :
    (pciReadConfig16 (pciautoSetupDevice pcie bridges dev regions).2 pciCommand).getLsbD 1 = true := by
  obtain ⟨-, -, command, hkept, hread⟩ := pciautoSetupDevice_loop pcie bridges dev hnum regions
  obtain ⟨-, hs, hdev, -, -⟩ := mem_barRounds hnum hmem
  have hresponse : barResponse st.dev.cfg slot = barResponse dev.cfg slot := hdev.response _ _ _
  -- the function has a memory BAR, so it can decode memory
  obtain ⟨slot', b, hb, hbtype⟩ := exists_bar_of_granted hnum hlayout hmem hgrant hspace
  have henable : b.decoder.enable = pciCommandMemory := by
    unfold BarDecoder.enable
    rw [hbtype]
    rfl
  have hcan := hdecode slot' b hb
  unfold CanDecode at hcan
  rw [henable] at hcan
  -- the round turned the bit on in the command value, and nothing behind it turns it off
  have hbar : ¬ (barResponse st.dev.cfg slot = 0 ∨ barResponse st.dev.cfg slot = 0xffffffff#32) := by
    intro hnone
    unfold barGrant at hgrant
    dsimp only at hgrant
    rw [if_pos hnone] at hgrant
    cases hgrant
  have hbit := @setupBar_barCommand _ regions st slot (by omega) hbar
  rw [hresponse, show barCommand (barResponse dev.cfg slot) = pciCommandMemory by
    unfold barCommand; rw [hspace]; rfl] at hbit
  have hset := hkept _ ((round_outcome hnum hmem).2 _ hbit)
  refine getLsbD_of_memory ?_
  rw [hread, RegisterFile.response_and_of_set _ _ _ hset]
  exact hcan

/-- **The header of a function behind its set-up** holds what is recorded of its BARs. -/
theorem headerView_setup (bridges : List PciDevice) (hnum : dev.barsNum ≤ 6) {barsNum : ℕ}
    (hslots : dev.barsNum = barsNum) {layout : BarLayout barsNum} (hlayout : LaidOut dev.cfg layout)
    (hfresh : ∀ slot, (dev.bars slot).present = false)
    (hdecode : ∀ slot, ∀ b ∈ layout.bar slot, CanDecode dev b.decoder) :
    HeaderView layout (pciautoSetupDevice pcie bridges dev regions).2 := by
  subst hslots
  refine ⟨fun slot b hb hpresent hio => ?_, fun slot hpresent htype => ?_⟩
  · obtain ⟨st, addr, pcie', hmem, hgrant⟩ := exists_round_of_present bridges hnum hfresh hpresent
    have hinfo := (granted_outcome bridges hnum hmem hgrant).1
    have haddr : ((pciautoSetupDevice pcie bridges dev regions).2.bars slot).busAddr = addr := by
      rw [hinfo]
      rfl
    rw [haddr] at hio ⊢
    exact (heldAddress_eq_iff bridges hnum hlayout hmem hgrant hb).2 hio
  · obtain ⟨st, addr, pcie', hmem, hgrant⟩ := exists_round_of_present bridges hnum hfresh hpresent
    have hinfo := (granted_outcome bridges hnum hmem hgrant).1
    refine decodes_memory_of_granted bridges hnum hlayout hdecode hmem (by rw [hgrant]; rfl) ?_
    rw [hinfo] at htype
    cases hisIo : isIoBar (barResponse dev.cfg slot) with
    | false => rfl
    | true =>
      rw [hisIo] at htype
      cases htype

end Setup

/-! ## The windows of a bridge -/

/-- The registers that retraining a link writes. -/
def linkRanges (pcieOff : ℕ) : List (ℕ × ℕ) :=
  [(pcieOff + pciExpLnkctl, 2), (pcieOff + pciExpLnkctl2, 2)]

/-- Where the function has a PCI Express capability with registers for the link, it shares no byte with
those of MSI and MSI-X. -/
def ExpApart (dev : PciDevice) : Prop :=
  ∀ cfg, dev.cfg.SameDevice cfg →
    let dev' := { dev with cfg := cfg }
    let pcieOff := pciFindCapability dev' pciCapIdExp
    pcieOff ≠ 0 → ¬ pciReadConfig16 dev' (pcieOff + pciExpFlags) &&& pciExpFlagsVers < 2 →
      (dev.msi.capOffset ≠ 0 → pcieOff + 0x3c ≤ dev.msi.capOffset ∨
          dev.msi.capOffset + msiLength dev ≤ pcieOff) ∧
        (dev.msix.capOffset ≠ 0 → pcieOff + 0x3c ≤ dev.msix.capOffset ∨
          dev.msix.capOffset + 12 ≤ pcieOff)

section Bridge

variable {pcie pcie' : PciController σ} {busNumber lastSub : ℕ} {link : LinkAnswers}
  {dev dev' : PciDevice}

/-- Retraining a link writes two registers of the PCI Express capability, if it is of a version that has
the second. -/
theorem rewritten_linkRanges (link : LinkAnswers) (dev : PciDevice) {pcieOff : ℕ}
    (hversion : ¬ pciReadConfig16 dev (pcieOff + pciExpFlags) &&& pciExpFlagsVers < 2) :
    Rewritten (linkRanges pcieOff) dev (pciautoExpFixupLink link dev pcieOff) := by
  have hwrites (dev : PciDevice) (v w : BitVec 16) : Rewritten (linkRanges pcieOff) dev
      (pciWriteConfig16 (pciWriteConfig16 dev (pcieOff + pciExpLnkctl2) v)
        (pcieOff + pciExpLnkctl) w) :=
    (rewritten_pciWriteConfig dev 2 v (r := (pcieOff + pciExpLnkctl2, 2)) (by simp [linkRanges])
      le_rfl le_rfl).trans (rewritten_pciWriteConfig _ 2 w (r := (pcieOff + pciExpLnkctl, 2))
        (by simp [linkRanges]) le_rfl le_rfl)
  unfold pciautoExpFixupLink
  dsimp only
  rw [if_neg hversion]
  repeat' split
  all_goals first | exact Rewritten.refl _ _ | skip
  · exact hwrites dev _ _
  · exact (hwrites dev _ _).trans (hwrites _ _ _)

/-- What may be written for the link of a bridge. -/
def LinkWrites (dev : PciDevice) (ranges : List (ℕ × ℕ)) : Prop :=
  ranges = [] ∨ ∃ cfg, dev.cfg.SameDevice cfg ∧
    let dev' := { dev with cfg := cfg }
    let pcieOff := pciFindCapability dev' pciCapIdExp
    pcieOff ≠ 0 ∧ ¬ pciReadConfig16 dev' (pcieOff + pciExpFlags) &&& pciExpFlagsVers < 2 ∧
      ranges = linkRanges pcieOff

/-- The link is written behind the header. -/
theorem LinkWrites.behind {ranges : List (ℕ × ℕ)} (h : LinkWrites dev ranges) :
    ∀ r ∈ ranges, 64 ≤ r.1 := by
  rcases h with rfl | ⟨cfg, -, hcap, -, rfl⟩
  · intro r hr
    cases hr
  · have hlow := ((pciFindCapability_spec _ _).resolve_left hcap).1
    intro r hr
    simp only [linkRanges, List.mem_cons, List.not_mem_nil, or_false] at hr
    rcases hr with rfl | rfl <;> dsimp only <;> omega

/-- The prescan of a link writes so. -/
theorem prescanLink_writes {ranges : List (ℕ × ℕ)} (link : LinkAnswers)
    (h : Rewritten ranges dev dev') :
    ∃ ranges', LinkWrites dev ranges' ∧ Rewritten ranges' dev' (prescanLink link dev') := by
  have hrecord : dev' = { dev with cfg := dev'.cfg } := h.record
  unfold prescanLink
  dsimp only
  by_cases hcap : pciFindCapability dev' pciCapIdExp = 0
  · rw [if_neg (not_not.2 hcap)]
    exact ⟨[], Or.inl rfl, Rewritten.refl _ _⟩
  · rw [if_pos hcap]
    by_cases hversion : pciReadConfig16 dev' (pciFindCapability dev' pciCapIdExp + pciExpFlags)
        &&& pciExpFlagsVers < 2
    · refine ⟨[], Or.inl rfl, ?_⟩
      unfold pciautoExpFixupLink
      dsimp only
      rw [if_pos hversion]
      exact Rewritten.refl _ _
    · refine ⟨_, Or.inr ⟨dev'.cfg, h.device, ?_⟩, rewritten_linkRanges link dev' hversion⟩
      rw [← hrecord]
      exact ⟨hcap, hversion, rfl⟩

/-- Opening the windows takes no bit of the command value back. -/
theorem prescan_command (prefetchable64 : BitVec 16) (io32 : BitVec 8) (st : SetupState σ)
    (h : st.command.getLsbD 1 = true) :
    (prescanIo io32 (prescanPrefetch prefetchable64 (prescanMem st))).command.getLsbD 1 = true := by
  have hmem : (prescanMem st).command.getLsbD 1 = true := by
    unfold prescanMem
    split
    · exact h
    · rw [BitVec.getLsbD_or, h, Bool.true_or]
  generalize prescanMem st = st₁ at hmem ⊢
  have hprefetch : (prescanPrefetch prefetchable64 st₁).command.getLsbD 1 = true := by
    unfold prescanPrefetch
    split
    · dsimp only
      split <;> exact hmem
    · rw [BitVec.getLsbD_or, hmem, Bool.true_or]
  generalize prescanPrefetch prefetchable64 st₁ = st₂ at hprefetch ⊢
  unfold prescanIo
  split
  · dsimp only
    split <;> exact hprefetch
  · rw [BitVec.getLsbD_or, hprefetch, Bool.true_or]

/-- The header registers that opening and closing the windows of a bridge writes, besides the command
register: all of them behind the BARs of a bridge. -/
def windowRanges : List (ℕ × ℕ) := prescanRanges.take 5 ++ postscanRanges

/-- The windows of a bridge lie in its header. -/
theorem windowRanges_within : ∀ r ∈ windowRanges, 0x18 ≤ r.1 ∧ r.1 + r.2 ≤ 64 := by
  unfold windowRanges prescanRanges postscanRanges
  decide

/-- **What opening and closing the windows of a bridge writes**: header registers, the link registers of
its PCI Express capability, and the command register, where memory stays decoded. -/
theorem scannedBridge_writes (pcie pcie' : PciController σ) (busNumber lastSub : ℕ)
    (link : LinkAnswers) (dev : PciDevice) :
    let final := scannedBridge pcie pcie' busNumber lastSub link dev
    ∃ ranges, LinkWrites dev ranges ∧
      Rewritten (windowRanges ++ ranges ++ [(pciCommand, 2)]) dev final ∧
      ((pciReadConfig16 dev pciCommand).getLsbD 1 = true →
        (pciReadConfig16 final pciCommand).getLsbD 1 = true) := by
  intro final
  have hpost := (pciautoPostscanSetupBridge_rewritten pcie' lastSub
    (pciautoPrescanSetupBridge pcie busNumber link dev).2).2.2.2
  have hfinal : final = (pciautoPostscanSetupBridge pcie' lastSub
    (pciautoPrescanSetupBridge pcie busNumber link dev).2).2 := rfl
  rw [← hfinal] at hpost
  unfold pciautoPrescanSetupBridge at hpost
  dsimp only at hpost
  have hnumbers := rewritten_prescanBusNumbers pcie busNumber dev
  generalize prescanBusNumbers pcie busNumber dev = dev₀ at hnumbers hpost
  have hmem := rewritten_prescanMem ⟨pcie, dev₀, pciReadConfig16 dev pciCommand⟩
  have hpre := rewritten_prescanPrefetch (pciReadConfig16 dev pciPrefMemoryBase &&& pciPrefRangeTypeMask)
    (prescanMem ⟨pcie, dev₀, pciReadConfig16 dev pciCommand⟩)
  have hio := rewritten_prescanIo (pciReadConfig8 dev pciIoBase &&& pciIoRangeTypeMask)
    (prescanPrefetch (pciReadConfig16 dev pciPrefMemoryBase &&& pciPrefRangeTypeMask)
      (prescanMem ⟨pcie, dev₀, pciReadConfig16 dev pciCommand⟩))
  have hcommand := prescan_command (pciReadConfig16 dev pciPrefMemoryBase &&& pciPrefRangeTypeMask)
    (pciReadConfig8 dev pciIoBase &&& pciIoRangeTypeMask)
    (⟨pcie, dev₀, pciReadConfig16 dev pciCommand⟩ : SetupState σ)
  have hheader : Rewritten (prescanRanges.take 5) dev _ :=
    (((hnumbers.mono (by decide)).trans (hmem.mono (by decide))).trans (hpre.mono (by decide))).trans
      (hio.mono (by decide))
  generalize prescanIo _ _ = st at hheader hcommand hpost
  obtain ⟨ranges, hlink, hwrites⟩ := prescanLink_writes link hheader
  generalize prescanLink link st.dev = dev₁ at hwrites hpost
  have hbefore : Rewritten (windowRanges ++ ranges) dev dev₁ :=
    (hheader.mono fun r hr => List.mem_append_left _ (List.mem_append_left _ hr)).trans
      (hwrites.mono fun r hr => List.mem_append_right _ hr)
  have hwritten : Rewritten [(pciCommand, 2)] dev₁
      (pciWriteConfig16 dev₁ pciCommand (st.command ||| pciCommandMaster)) :=
    rewritten_write 2 _ le_rfl le_rfl
  refine ⟨ranges, hlink, ?_, fun hon => ?_⟩
  · exact ((hbefore.mono fun r hr => List.mem_append_left _ hr).trans
      (hwritten.mono fun r hr => List.mem_append_right _ hr)).trans
        (hpost.mono fun r hr => List.mem_append_left _ (List.mem_append_left _
          (List.mem_append_right _ hr)))
  · have hread : pciReadConfig16 final pciCommand = pciReadConfig16
        (pciWriteConfig16 dev₁ pciCommand (st.command ||| pciCommandMaster)) pciCommand :=
      hpost.read (by decide)
    have hold : pciReadConfig 16 dev₁ pciCommand = pciReadConfig 16 dev pciCommand := by
      refine hbefore.read fun r hr => Or.inr ?_
      rcases List.mem_append.1 hr with hr | hr
      · have := (windowRanges_within r hr).1
        simp only [pciCommand]
        omega
      · have := hlink.behind r hr
        simp only [pciCommand]
        omega
    rw [hread, getLsbD_pciReadConfig_write _ _ (by decide) (by decide), hold, hon,
      BitVec.getLsbD_or, hcommand hon, Bool.true_or, ite_self]

/-- The link registers are apart from the MSI capability. -/
theorem LinkWrites.apart_msi {ranges : List (ℕ × ℕ)} (h : LinkWrites dev ranges)
    (hexp : ExpApart dev) (hcap : dev.msi.capOffset ≠ 0) {w offset : ℕ}
    (hlow : dev.msi.capOffset ≤ offset)
    (hhigh : 8 * offset + w ≤ 8 * (dev.msi.capOffset + msiLength dev)) :
    ∀ r ∈ ranges, RegisterFile.Apart (8 * r.2) r.1 w offset := by
  rcases h with rfl | ⟨cfg, hdev, hne, hversion, rfl⟩
  · intro r hr
    cases hr
  · have hsep := (hexp cfg hdev hne hversion).1 hcap
    intro r hr
    unfold RegisterFile.Apart
    simp only [linkRanges, List.mem_cons, List.not_mem_nil, or_false] at hr
    rcases hr with rfl | rfl <;> dsimp only [pciExpLnkctl, pciExpLnkctl2] <;> omega

/-- And from the MSI-X capability. -/
theorem LinkWrites.apart_msix {ranges : List (ℕ × ℕ)} (h : LinkWrites dev ranges)
    (hexp : ExpApart dev) (hcap : dev.msix.capOffset ≠ 0) :
    ∀ r ∈ ranges, RegisterFile.Apart (8 * r.2) r.1 16 (dev.msix.capOffset + pciMsixFlags) := by
  rcases h with rfl | ⟨cfg, hdev, hne, hversion, rfl⟩
  · intro r hr
    cases hr
  · have hsep := (hexp cfg hdev hne hversion).2 hcap
    intro r hr
    unfold RegisterFile.Apart
    simp only [linkRanges, List.mem_cons, List.not_mem_nil, or_false] at hr
    rcases hr with rfl | rfl <;> dsimp only [pciExpLnkctl, pciExpLnkctl2, pciMsixFlags] <;> omega

/-- **A bridge behind its set-up and its scan** holds what its record says. -/
theorem CachedView.scanned {barsNum : ℕ} {layout : BarLayout barsNum} (hnum : barsNum ≤ 2)
    (h : CachedView layout dev) (hw : GateHardware dev) (hexp : ExpApart dev) :
    CachedView layout (scannedBridge pcie pcie' busNumber lastSub link dev) := by
  obtain ⟨ranges, hlink, hwrites, hmemory⟩ :=
    scannedBridge_writes pcie pcie' busNumber lastSub link dev
  generalize scannedBridge pcie pcie' busNumber lastSub link dev = final at hwrites hmemory ⊢
  have hmsi : final.msi = dev.msi := by rw [hwrites.record]
  have hmsix : final.msix = dev.msix := by rw [hwrites.record]
  have hactive : final.active = dev.active := by rw [hwrites.record]
  -- behind the header, only the link registers are written
  have hbehind {w offset : ℕ} (hlow : 0x40 ≤ offset)
      (hap : ∀ r ∈ ranges, RegisterFile.Apart (8 * r.2) r.1 w offset) :
      ∀ r ∈ windowRanges ++ ranges ++ [(pciCommand, 2)],
        RegisterFile.Apart (8 * r.2) r.1 w offset := by
    intro r hr
    rcases List.mem_append.1 hr with hr | hr
    · rcases List.mem_append.1 hr with hr | hr
      · have := (windowRanges_within r hr).2
        exact Or.inl (by omega)
      · exact hap r hr
    · rw [List.mem_singleton.1 hr]
      exact Or.inl (by simp only [pciCommand]; omega)
  -- and in the header, none of the two BAR registers of a bridge
  have hbar {slot : ℕ} (hslot : slot < barsNum) :
      pciReadConfig32 final (pciBaseAddress0 + 4 * slot)
        = pciReadConfig32 dev (pciBaseAddress0 + 4 * slot) := by
    refine hwrites.read fun r hr => ?_
    unfold RegisterFile.Apart
    simp only [pciBaseAddress0]
    rcases List.mem_append.1 hr with hr | hr
    · rcases List.mem_append.1 hr with hr | hr
      · have := (windowRanges_within r hr).1
        omega
      · have := hlink.behind r hr
        omega
    · rw [List.mem_singleton.1 hr]
      simp only [pciCommand]
      omega
  refine ⟨h.toHeaderView.congr hwrites.bars (fun slot => hbar) hmemory, ?_, ?_⟩
  · refine h.mask.congr hmsi fun hmaskable => ?_
    have hread : pciReadConfig32 final dev.msi.maskOffset = pciReadConfig32 dev dev.msi.maskOffset := by
      obtain ⟨-, hnot⟩ | ⟨hcap, hoff⟩ := hw.msi
      · rw [hnot] at hmaskable
        cases hmaskable
      · have hlow := hcap.1
        refine hwrites.read (hbehind (by omega) (hlink.apart_msi hexp (by omega) (by omega) ?_))
        unfold msiLength
        rw [hmaskable, hoff]
        cases dev.msi.addr64 <;> simp only [if_true, if_false, Bool.false_eq_true, pciMsiMask64,
          pciMsiMask32] <;> omega
    unfold readMask
    rw [hmsi]
    exact hread
  · refine h.enables.keep ⟨?_, ?_⟩ (by rw [hactive])
    · refine msiEnabled_of_sameOutside (by rw [hmsi]) hwrites.outside fun hcap => ?_
      have hlow := (hw.msi.isCapOffset hcap).1
      have hlen := msiLength_ge dev
      exact hbehind (by omega) (hlink.apart_msi hexp hcap (by omega)
        (by simp only [pciMsiFlags]; omega))
    · refine msixEnabled_of_sameOutside (by rw [hmsix]) hwrites.outside fun hcap => ?_
      have hlow := (hw.msix.isCapOffset hcap).1
      exact hbehind (by omega) (hlink.apart_msix hexp hcap)

end Bridge

end BcmPcie
