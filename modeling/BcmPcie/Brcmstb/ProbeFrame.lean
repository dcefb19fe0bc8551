import BcmPcie.Brcmstb.Probe

/-! # What the end of the probe leaves alone

Once the inbound windows are set up, `brcm_pcie_probe` goes on to write few registers, and of the
controller it changes what belongs to its interrupts.

* `OnlyAt` — where registers are written.
* `RcFrame` — what a step of the probe writes and what it keeps.
* `openBus_frame` — the outbound windows, the root port and the MSI demux.
* `brcmPcieProbe_frame` — what the probe leaves, however it ends. -/

namespace BcmPcie

open Computations

/-! ## Registers -/

/-- Registers are written at `offsets` alone. -/
def OnlyAt (offsets : List ℕ) (regs regs' : RcRegisters) : Prop :=
  ∀ offset, offset ∉ offsets → regs' offset = regs offset

namespace OnlyAt

variable {offsets offsets' : List ℕ} {regs regs' regs'' : RcRegisters} {offset : ℕ}

/-- Doing nothing writes nowhere. -/
theorem refl (offsets : List ℕ) (regs : RcRegisters) : OnlyAt offsets regs regs := fun _ _ => rfl

/-- Two steps that write at these offsets only write there together. -/
theorem trans (h : OnlyAt offsets regs regs') (h' : OnlyAt offsets regs' regs'') :
    OnlyAt offsets regs regs'' :=
  fun offset hout => (h' offset hout).trans (h offset hout)

/-- A step may be allowed more offsets than it writes. -/
theorem mono (h : OnlyAt offsets regs regs') (hsub : ∀ o ∈ offsets, o ∈ offsets') :
    OnlyAt offsets' regs regs' :=
  fun offset hout => h offset fun hin => hout (hsub offset hin)

/-- A write to one of the offsets. -/
theorem write (h : offset ∈ offsets) (regs : RcRegisters) (value : BitVec 32) :
    OnlyAt offsets regs (mmioWrite32 regs value offset) := by
  intro other hout
  have hne : other ≠ offset := fun heq => hout (heq ▸ h)
  exact Function.update_of_ne hne _ _

/-- A choice between two steps that write at these offsets only. -/
theorem ite {p : Prop} [Decidable p] (h : OnlyAt offsets regs regs')
    (h' : OnlyAt offsets regs regs'') : OnlyAt offsets regs (if p then regs' else regs'') := by
  split
  · exact h
  · exact h'

end OnlyAt

/-- The registers of the outbound windows. -/
def outboundOffsets : List ℕ :=
  (List.range brcmNumPcieOutWins).flatMap fun win =>
    [pcieMemWin0Lo win, pcieMemWin0Hi win, pcieMemWin0BaseLimit win, pcieMemWin0BaseHi win,
      pcieMemWin0LimitHi win]

/-- The registers of the root port and of the MDIO bus that `brcm_pcie_probe` writes. -/
def rootPortOffsets : List ℕ :=
  [pcieRcCfgPriv1IdVal3, pcieRcDlMdioAddr, pcieRcDlMdioWrData, pcieRcCfgVendorVendorSpecificReg1,
    (brcmPcieCapRegs + pciExpRtctl) / 4 * 4, pcieRcCfgPriv1LinkCapability]

/-- The registers that `brcm_msi_set_regs` writes. -/
def msiOffsets : List ℕ := [pcieMiscMsiBarConfigLo, pcieMiscMsiBarConfigHi, pcieMiscMsiDataConfig]

section Registers

variable {regs : RcRegisters}

/-- Setting an outbound window writes the registers of the windows only. -/
theorem onlyAt_setOutboundWin {common : Emu68Common} {win : ℕ} (hwin : win < brcmNumPcieOutWins)
    {physAddr pcieAddr size : BitVec 64} :
    OnlyAt outboundOffsets regs (brcmPcieSetOutboundWin common regs win physAddr pcieAddr size) := by
  intro offset hout
  have hown : ∀ own ∈ [pcieMemWin0Lo win, pcieMemWin0Hi win, pcieMemWin0BaseLimit win,
      pcieMemWin0BaseHi win, pcieMemWin0LimitHi win], offset ≠ own := by
    rintro own hown rfl
    exact hout (List.mem_flatMap.2 ⟨win, List.mem_range.2 hwin, hown⟩)
  rw [setOutboundWin_apply hwin]
  dsimp only
  rw [if_neg (hown _ (by simp)), if_neg (hown _ (by simp)), if_neg (hown _ (by simp)),
    if_neg (hown _ (by simp)), if_neg (hown _ (by simp))]

/-- Setting the spread spectrum clock writes registers of the root port only. -/
theorem onlyAt_brcmPcieSetSsc {mdio : ℕ → BitVec 32} :
    OnlyAt rootPortOffsets regs (brcmPcieSetSsc regs mdio).1 := by
  have hwrite {r : RcRegisters} {polled port regad : BitVec 32} {wrdata : BitVec 16}
      {p : RcRegisters × Except Errno Unit} (h : brcmPcieMdioWrite r polled port regad wrdata = p) :
      OnlyAt rootPortOffsets r p.1 := by
    rw [← h]
    exact (OnlyAt.write (by decide) _ _).trans (OnlyAt.write (by decide) _ _)
  have hread {r : RcRegisters} {polled port regad : BitVec 32}
      {p : RcRegisters × Except Errno (BitVec 32)} (h : brcmPcieMdioRead r polled port regad = p) :
      OnlyAt rootPortOffsets r p.1 := by
    rw [← h]
    exact OnlyAt.write (by decide) _ _
  -- each access goes on only if the one before it succeeded
  unfold brcmPcieSetSsc
  split
  · rename_i h₁
    exact hwrite h₁
  · rename_i h₁
    split
    · rename_i h₂
      exact (hwrite h₁).trans (hread h₂)
    · rename_i h₂
      dsimp only
      split
      · rename_i h₃
        exact ((hwrite h₁).trans (hread h₂)).trans (hwrite h₃)
      · rename_i h₃
        split
        · rename_i h₄
          exact (((hwrite h₁).trans (hread h₂)).trans (hwrite h₃)).trans (hread h₄)
        · rename_i h₄
          exact (((hwrite h₁).trans (hread h₂)).trans (hwrite h₃)).trans (hread h₄)

/-- Setting up the root port writes its registers only. -/
theorem onlyAt_setRootPort {answers : RcAnswers} {ssc : Bool} :
    OnlyAt rootPortOffsets regs (setRootPort answers ssc regs) := by
  refine OnlyAt.trans ?_ (OnlyAt.write (by decide) _ _)
  -- up to the check of the root capabilities
  have hclass : OnlyAt rootPortOffsets regs
      (mmioUpdate32 regs pcieRcCfgPriv1IdVal3 idVal3ClassCodeMask 0x060400) :=
    OnlyAt.write (by decide) _ _
  have hssc : OnlyAt rootPortOffsets regs (mmioUpdate32
      (if ssc then
        (brcmPcieSetSsc (mmioUpdate32 regs pcieRcCfgPriv1IdVal3 idVal3ClassCodeMask 0x060400)
          answers.mdio).1
      else mmioUpdate32 regs pcieRcCfgPriv1IdVal3 idVal3ClassCodeMask 0x060400)
      pcieRcCfgVendorVendorSpecificReg1 endianModeBar2Mask vendorSpecificReg1LittleEndian) :=
    (OnlyAt.ite (hclass.trans onlyAt_brcmPcieSetSsc) hclass).trans (OnlyAt.write (by decide) _ _)
  exact OnlyAt.ite (hssc.trans (OnlyAt.write (by decide) _ _)) hssc

/-- Behind the registers of its window, the set-up of the inbound windows writes three. -/
theorem onlyAt_setInboundWins {common : Emu68Common} {region : PciRegion} :
    OnlyAt [pcieMiscMiscCtrl, pcieMiscRcBar1ConfigLo, pcieMiscRcBar3ConfigLo]
      (setRcBar2 common regs region) (setInboundWins common region regs) :=
  ((OnlyAt.write (by decide) _ _).trans (OnlyAt.write (by decide) _ _)).trans
    (OnlyAt.write (by decide) _ _)

/-- Setting the generation writes the link's two registers only. -/
theorem onlyAt_brcmPcieSetGen {gen : BitVec 32} :
    OnlyAt [brcmPcieCapRegs + pciExpLnkcap, (brcmPcieCapRegs + pciExpLnkctl2) / 4 * 4] regs
      (brcmPcieSetGen regs gen) :=
  (OnlyAt.write (by decide) _ _).trans (OnlyAt.write (by decide) _ _)

end Registers

/-! ## The back-end's state -/

variable {σ : Type}

/-- A step of the probe that writes registers at `offsets` alone, and keeps what of the controller is not
for its interrupts. -/
structure RcFrame (offsets : List ℕ) (st st' : RcState σ) : Prop where
  regs : OnlyAt offsets st.regs st'.regs
  pcie : st'.pcie = { st.pcie with intr2 := st'.pcie.intr2, gic400 := st'.pcie.gic400 }

instance (offsets : List ℕ) : IsPreorder (RcState σ) (RcFrame offsets) where
  refl _ := ⟨OnlyAt.refl _ _, rfl⟩
  trans _ _ _ h h' := ⟨h.regs.trans h'.regs, h'.pcie.trans (by rw [h.pcie])⟩

namespace RcFrame

variable {offsets : List ℕ}

/-- A change of the registers at these offsets keeps the frame. -/
theorem modifyRegs {f : RcRegisters → RcRegisters} (h : ∀ regs, OnlyAt offsets regs (f regs)) :
    Relates (RcFrame offsets) (BcmPcie.modifyRegs f : ProbeM σ Unit) :=
  fun st => ⟨h st.regs, rfl⟩

/-- A requirement keeps the frame. -/
theorem require (p : Prop) [Decidable p] (e : Errno) :
    Relates (RcFrame offsets) (BcmPcie.require p e : ProbeM σ Unit) :=
  Relates.ite (Relates.pure ()) (Relates.throw e)

end RcFrame

/-- The loop over the outbound windows writes their registers only. -/
theorem setOutboundWinsM_frame (common : Emu68Common) (regions : List PciRegion) (numOutWins : ℕ) :
    Relates (RcFrame outboundOffsets) (setOutboundWinsM common regions numOutWins : ProbeM σ Unit) := by
  induction regions generalizing numOutWins with
  | nil => exact Relates.pure ()
  | cons reg regions ih =>
    unfold setOutboundWinsM
    split
    · exact ih numOutWins
    · split
      · exact Relates.throw _
      · rename_i hfree
        exact (RcFrame.modifyRegs fun _ => onlyAt_setOutboundWin (Nat.lt_of_not_le hfree)).bind fun _ =>
          ih (numOutWins + 1)

/-- Setting up the MSI registers writes those only. -/
theorem brcmMsiSetRegs_frame : Relates (RcFrame msiOffsets) (brcmMsiSetRegs : ProbeM σ Unit) := by
  unfold brcmMsiSetRegs
  refine Relates.bind (fun st => ⟨OnlyAt.refl _ _, rfl⟩) fun _ => Relates.get.bind fun _ => ?_
  refine (RcFrame.modifyRegs fun _ => OnlyAt.write (by decide) _ _).bind fun _ => ?_
  refine (RcFrame.modifyRegs fun _ => OnlyAt.write (by decide) _ _).bind fun _ => ?_
  exact RcFrame.modifyRegs fun _ => OnlyAt.write (by decide) _ _

/-- Whether the server is taken or not. -/
theorem brcmMsiDemuxEnable_frame [Gic400 σ] (isr : Interrupt) :
    Relates (RcFrame msiOffsets) (brcmMsiDemuxEnable isr : ProbeM σ Unit) := by
  intro st
  have hget : (get : ProbeM σ (RcState σ)) st = .ok st st := rfl
  unfold brcmMsiDemuxEnable
  rw [final_bind_of_ok hget]
  cases hadd : brcmGicAddServer st.pcie st.msiGicIrq (some isr) with
  | mk pcie result =>
    have hfst : (brcmGicAddServer st.pcie st.msiGicIrq (some isr)).1 = pcie := congrArg Prod.fst hadd
    have hgic : pcie = { st.pcie with gic400 := pcie.gic400 } := by
      rw [← hfst]
      rfl
    have hserver (memory : Ledger Resource) :
        RcFrame msiOffsets st { st with pcie := pcie, memory := memory } := by
      refine ⟨OnlyAt.refl _ _, ?_⟩
      dsimp only
      rw [hgic]
    cases result with
    | error e => exact hserver st.memory
    | ok _ => exact trans_of (RcFrame msiOffsets) (hserver _) (brcmMsiSetRegs_frame _)

/-- Registering the demultiplexer writes the MSI registers only. -/
theorem registerDemux_frame [Gic400 σ] (isr : Interrupt) :
    Relates (RcFrame msiOffsets) (registerDemux isr : ProbeM σ Unit) := by
  unfold registerDemux
  refine Relates.bind (fun _ => ⟨OnlyAt.refl _ _, rfl⟩) fun _ => (RcFrame.require _ _).bind fun _ => ?_
  refine Relates.tryCatch (brcmMsiDemuxEnable_frame isr) fun e => ?_
  exact Relates.bind (fun _ => ⟨OnlyAt.refl _ _, rfl⟩) fun _ => Relates.throw e

/-- Behind the outbound windows. -/
def behindWindows : List ℕ := rootPortOffsets ++ msiOffsets

/-- A frame may be widened. -/
theorem RcFrame.mono {offsets offsets' : List ℕ} (hsub : ∀ o ∈ offsets, o ∈ offsets')
    {x : ProbeM σ Unit} (h : Relates (RcFrame offsets) x) : Relates (RcFrame offsets') x :=
  fun st => ⟨(h st).regs.mono hsub, (h st).pcie⟩

/-- The end of `brcm_pcie_probe`, behind the outbound windows. -/
theorem behindWindows_frame [Gic400 σ] (plat : Platform) (ssc : Bool) :
    Relates (RcFrame behindWindows) (do
      modifyRegs (setRootPort plat.answers ssc)
      modify fun st => { st with hwRev := plat.answers.revision }
      BcmPcie.require (brcmPcieHwRev33 ≤ plat.answers.revision) .enodev
      registerDemux plat.demuxIsr : ProbeM σ Unit) := by
  refine (RcFrame.modifyRegs fun _ => onlyAt_setRootPort.mono fun _ => List.mem_append_left _).bind
    fun _ => ?_
  refine Relates.bind (fun _ => ⟨OnlyAt.refl _ _, rfl⟩) fun _ => (RcFrame.require _ _).bind fun _ => ?_
  exact RcFrame.mono (fun _ => List.mem_append_right _) (registerDemux_frame _)

/-- Opening the bus writes the registers of the windows and those behind them only. -/
theorem openBus_frame [Gic400 σ] (plat : Platform) (regions : List PciRegion) (ssc : Bool) :
    Relates (RcFrame (outboundOffsets ++ behindWindows)) (openBus plat regions ssc : ProbeM σ Unit) :=
  (RcFrame.mono (fun _ => List.mem_append_left _) (setOutboundWinsM_frame _ _ _)).bind fun _ =>
    RcFrame.mono (fun _ => List.mem_append_right _) (behindWindows_frame plat ssc)

/-- From the wait for the link on. -/
theorem startController_frame [Gic400 σ] (plat : Platform) (st : RcState σ) :
    RcFrame (outboundOffsets ++ behindWindows) (linkAwaited st) (final (startController plat) st) := by
  have hframe : Relates (RcFrame (outboundOffsets ++ behindWindows))
      (requireLink plat.answers >>= fun _ => openBus plat st.pcie.regions st.ssc : ProbeM σ Unit) :=
    Relates.bind ((RcFrame.require _ _).bind fun _ => RcFrame.require _ _) fun _ => openBus_frame _ _ _
  exact hframe (linkAwaited st)

/-- The registers that are written while the link is brought up. -/
def linkOffsets : List ℕ :=
  [brcmPcieCapRegs + pciExpLnkcap, (brcmPcieCapRegs + pciExpLnkctl2) / 4 * 4, pcieRgr1SwInit1]

/-- Waiting for the link writes the registers of the link only. -/
theorem onlyAt_linkAwaited (st : RcState σ) : OnlyAt linkOffsets st.regs (linkAwaited st).regs := by
  refine OnlyAt.trans ?_ (OnlyAt.write (by decide) _ _)
  exact OnlyAt.ite (onlyAt_brcmPcieSetGen.mono (by decide)) (OnlyAt.refl _ _)

/-- The registers that are written behind those of the inbound window. -/
def startOffsets : List ℕ :=
  [pcieMiscMiscCtrl, pcieMiscRcBar1ConfigLo, pcieMiscRcBar3ConfigLo] ++
    (linkOffsets ++ (outboundOffsets ++ behindWindows))

/-- **What the probe leaves**, however it ends, once the region table is set up. -/
theorem brcmPcieProbe_frame [Gic400 σ] {plat : Platform} {s : RcState σ} {region : PciRegion}
    {regions : List PciRegion} (busNumberBase : ℕ)
    (h : Accepted plat s.memory.available region regions) :
    ∃ node, plat.node = .ok node ∧
      let st := final (brcmPcieProbe plat busNumberBase) s
      OnlyAt startOffsets (setRcBar2 plat.common (startBridge s.regs) region) st.regs ∧
        st.pcie = { (linkAwaited (tableSet plat busNumberBase node region regions s)).pcie with
          intr2 := st.pcie.intr2, gic400 := st.pcie.gic400 } := by
  obtain ⟨node, hnode, hprobe⟩ := brcmPcieProbe_of_accepted busNumberBase h
  refine ⟨node, hnode, ?_⟩
  have hfinal : final (brcmPcieProbe plat busNumberBase) s
      = final (startController plat) (tableSet plat busNumberBase node region regions s) := by
    unfold final
    rw [hprobe]
  have hframe := startController_frame plat (tableSet plat busNumberBase node region regions s)
  rw [← hfinal] at hframe
  refine ⟨?_, hframe.pcie⟩
  have hinbound : OnlyAt startOffsets (setRcBar2 plat.common (startBridge s.regs) region)
      (tableSet plat busNumberBase node region regions s).regs :=
    onlyAt_setInboundWins.mono fun _ => List.mem_append_left _
  have hlink : OnlyAt startOffsets (tableSet plat busNumberBase node region regions s).regs
      (linkAwaited (tableSet plat busNumberBase node region regions s)).regs :=
    (onlyAt_linkAwaited _).mono fun _ ho => List.mem_append_right _ (List.mem_append_left _ ho)
  exact (hinbound.trans hlink).trans
    (hframe.regs.mono fun _ ho => List.mem_append_right _ (List.mem_append_right _ ho))

/-! ## A successful probe -/

/-- The registers of a window describe it. -/
theorem outboundWindow_of_onlyAt {offsets : List ℕ} {regs regs' : RcRegisters} {win : ℕ}
    (h : OnlyAt offsets regs regs') (hwin : win < 4)
    (hout : ∀ offset ∈ outboundOffsets, offset ∉ offsets) :
    outboundWindow regs' win = outboundWindow regs win := by
  have hsame : ∀ own ∈ [pcieMemWin0Lo win, pcieMemWin0Hi win, pcieMemWin0BaseLimit win,
      pcieMemWin0BaseHi win, pcieMemWin0LimitHi win], regs' own = regs own := fun own hown =>
    h own (hout own (List.mem_flatMap.2 ⟨win, List.mem_range.2 hwin, hown⟩))
  unfold outboundWindow
  rw [hsame _ (by simp), hsame _ (by simp), hsame _ (by simp), hsame _ (by simp), hsame _ (by simp)]

/-- **The outbound windows after a successful probe** are those of the non-prefetchable memory. -/
theorem windowsFor_brcmPcieProbe [Gic400 σ] {plat : Platform} {s rc : RcState σ} {region : PciRegion}
    {regions : List PciRegion} {busNumberBase : ℕ}
    (haccepted : Accepted plat s.memory.available region regions)
    (hprobe : brcmPcieProbe plat busNumberBase s = .ok () rc) :
    (memRegions regions).length ≤ 4 ∧ WindowsFor (memRegions regions) rc.regs := by
  obtain ⟨node, -, heq⟩ := brcmPcieProbe_of_accepted busNumberBase haccepted
  rw [heq, startController_eq] at hprobe
  have hready : LinkReady plat.answers := by
    by_contra hdown
    obtain ⟨_, _, hlink, -⟩ := bind_eq_ok.1 hprobe
    rw [requireLink_error hdown] at hlink
    cases hlink
  rw [requireLink_bind hready] at hprobe
  unfold openBus at hprobe
  obtain ⟨_, s₁, hwins, hrest⟩ := bind_eq_ok.1 hprobe
  -- the loop over the regions
  cases hset : setOutboundWins plat.common regions 0
      (linkAwaited (tableSet plat busNumberBase node region regions s)).regs with
  | error e =>
    obtain ⟨s', herror, -⟩ := setOutboundWinsM_error hset
    cases herror.symm.trans hwins
  | ok regs =>
    have hcount := (setOutboundWins_ok_iff 0 (by decide)).1 ⟨regs, hset⟩
    have hwindows := setOutboundWins_spec (windowsFor_nil _) hset
    rw [List.nil_append] at hwindows
    obtain ⟨-, rfl⟩ := EStateM.Result.ok.inj ((setOutboundWinsM_ok hset).symm.trans hwins)
    -- what follows writes none of their registers
    have hframe := behindWindows_frame plat (tableSet plat busNumberBase node region regions s).ssc
      { linkAwaited (tableSet plat busNumberBase node region regions s) with regs := regs }
    rw [final_of_ok hrest] at hframe
    refine ⟨by omega, fun win res hres => ?_⟩
    have hwin : win < 4 := by
      have hlt := (List.getElem?_eq_some_iff.1 hres).1
      omega
    rw [outboundWindow_of_onlyAt hframe.regs hwin (by decide)]
    exact hwindows win res hres

end BcmPcie
