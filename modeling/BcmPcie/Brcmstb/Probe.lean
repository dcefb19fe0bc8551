import BcmPcie.Brcmstb.DeviceTree
import BcmPcie.Brcmstb.RootComplex
import BcmPcie.Enumeration.Probe
import BcmPcie.Irq.Controller
import BcmPcie.Library.Computations

/-! # Setting up the controller

`brcm_pcie_probe` reads the device tree, sets up the root complex, waits for the link, programs the
windows and registers the MSI demux; it can fail between any two of these. What it has done by then
stays done. `brcm_pcie_remove` undoes the whole.

* `Platform` — what the machine answers.
* `ProbeM` — the back-end's functions: a state they change, an error they may return.
* `brcmDevtreeParse`, `brcmPcieProbe`, `brcmPcieRemove` — the calls. -/

namespace BcmPcie

/-! ## The machine -/

/-- The node an entry of `interrupt-map` names: its numbers of address and of interrupt cells. -/
structure InterruptParent where
  addressCells : ℕ := 0
  interruptCells : ℕ := 0

/-- The node of the controller, with the properties that are read from it. -/
structure PcieNode where
  addressCells : Option ℕ := none
  sizeCells : Option ℕ := none
  interruptCells : Option ℕ := none
  /-- `#address-cells` of the node above. -/
  parentAddressCells : Option ℕ := none
  ranges : Option (List (BitVec 32)) := none
  dmaRanges : Option (List (BitVec 32)) := none
  interruptMap : Option (List (BitVec 32)) := none
  /-- The node of a phandle. -/
  interruptParent : BitVec 32 → Option InterruptParent := fun _ => none
  /-- The second of its `interrupts`, negative if there is none. -/
  msiIrq : BitVec 32 := 0xffffffff
  /-- Where the registers are, 0 if that is not said. -/
  base : BitVec 32 := 0
  enableSsc : Bool := false
  mmioPhys : Option (List (BitVec 32)) := none
  mmioVirt : Option (BitVec 32) := none
  mmioSize : Option (BitVec 32) := none

/-- The node as `dt_pci_ranges_open` reads it, with its defaults. -/
def PcieNode.toDtNode (node : PcieNode) : DtNode where
  ranges := node.ranges
  dmaRanges := node.dmaRanges
  addressCells := node.addressCells.getD 0
  parentAddressCells := node.parentAddressCells.getD 2
  sizeCells := node.sizeCells.getD 1

/-- What the machine gives the back-end. -/
structure Platform where
  common : Emu68Common
  /-- The node of `pcie0`, or why it is not found. -/
  node : Except Errno PcieNode
  memList : List MemHeader
  answers : RcAnswers
  /-- The address of the controller's `msi.isr`. -/
  demuxIsr : Interrupt

/-! ## State -/

/-- What the back-end works on: the controller, its registers and what it holds. -/
structure RcState (σ : Type) where
  pcie : PciController σ
  regs : RcRegisters
  memory : Ledger Resource := {}
  gen : BitVec 32 := 0
  ssc : Bool := false
  hwRev : BitVec 32 := 0
  /-- The GIC interrupt of the MSI demux. -/
  msiGicIrq : BitVec 32 := 0
  /-- `regions` is not `NULL`. -/
  regionsBlock : Bool := false

/-- A function of the back-end that may fail; what it has changed by then stays changed. -/
abbrev ProbeM (σ : Type) : Type → Type := EStateM Errno (RcState σ)

variable {σ : Type}

/-- A change of the controller. -/
def modifyPcie (f : PciController σ → PciController σ) : ProbeM σ Unit :=
  modify fun st => { st with pcie := f st.pcie }

/-- A change of the registers. -/
def modifyRegs (f : RcRegisters → RcRegisters) : ProbeM σ Unit :=
  modify fun st => { st with regs := f st.regs }

/-- The error of a call is returned. -/
def ofExcept {α : Type} : Except Errno α → ProbeM σ α
  | .ok a => pure a
  | .error e => throw e

/-- A check: where it fails, the error is returned. -/
def require (p : Prop) [Decidable p] (e : Errno) : ProbeM σ Unit := if p then pure () else throw e

/-- A request for a resource: whether it is met. -/
def acquire (r : Resource) : ProbeM σ Bool :=
  modifyGet fun st => ((st.memory.acquire r).1, { st with memory := (st.memory.acquire r).2 })

/-- A resource is given back. -/
def release (r : Resource) : ProbeM σ Unit :=
  modify fun st => { st with memory := st.memory.release r }

section Sequence

open Computations

variable {α β : Type} {s : RcState σ} {e : Errno} {f : α → ProbeM σ β} {g : Unit → ProbeM σ β}

/-- A result that is there is handed on. -/
theorem bind_ofExcept_ok (a : α) : (ofExcept (.ok a) >>= f) s = f a s := rfl

/-- An error ends the computation. -/
theorem bind_ofExcept_error : (ofExcept (.error e) >>= f) s = .error e s := rfl

/-- A requirement that is met is passed. -/
theorem bind_require_pos {p : Prop} [Decidable p] (h : p) : (require p e >>= g) s = g () s := by
  unfold require
  rw [if_pos h]
  rfl

/-- A requirement that is not met ends the computation. -/
theorem bind_require_neg {p : Prop} [Decidable p] (h : ¬ p) :
    (require p e >>= g) s = .error e s := by
  unfold require
  rw [if_neg h]
  rfl

/-- A change of the state is handed on. -/
theorem bind_modify (change : RcState σ → RcState σ) :
    ((modify change : ProbeM σ Unit) >>= g) s = g () (change s) := rfl

/-- A change of the controller is handed on. -/
theorem bind_modifyPcie (change : PciController σ → PciController σ) :
    (modifyPcie change >>= g) s = g () { s with pcie := change s.pcie } := rfl

/-- A change of the registers is handed on. -/
theorem bind_modifyRegs (change : RcRegisters → RcRegisters) :
    (modifyRegs change >>= g) s = g () { s with regs := change s.regs } := rfl

end Sequence

section Keeps

open Computations

variable {α : Type} {τ : Type*} {view : RcState σ → τ}

/-- Taking a result changes nothing of the state. -/
theorem keeps_ofExcept (r : Except Errno α) : Keeps view (ofExcept r) := by
  cases r with
  | ok a => exact Relates.pure a
  | error e => exact Relates.throw e

/-- A requirement changes nothing of the state. -/
theorem keeps_require (p : Prop) [Decidable p] (e : Errno) : Keeps view (require p e) :=
  Relates.ite (Relates.pure ()) (Relates.throw e)

end Keeps

/-! ## The device tree -/

/-- One entry of `interrupt-map`, of a node with so many address and interrupt cells: the routing with
the pin of the entry, and the cells behind it. -/
def interruptMapEntry (common : Emu68Common) (interruptParent : BitVec 32 → Option InterruptParent)
    (addrCells intCells : ℕ) (entry : List (BitVec 32)) (mapping : ℕ → BitVec 32) :
    Option ((ℕ → BitVec 32) × List (BitVec 32)) :=
  let childCells := addrCells + intCells + 1
  if entry.length < childCells then none
  else
    let pin := (common.dtGetNumber ((entry.drop addrCells).take intCells)).setWidth 32
    match interruptParent (entry.getD (childCells - 1) 0) with
    | none => none
    | some parent =>
      let entryCells := childCells + parent.addressCells + parent.interruptCells
      if parent.interruptCells < 2 ∨ entry.length < entryCells then none
      else
        let irq := entry.drop (childCells + parent.addressCells)
        let mapping :=
          if 1 ≤ pin.toNat ∧ pin.toNat ≤ 4 ∧ irq.getD 0 0 = 0 then
            Function.update mapping (pin.toNat - 1) (irq.getD 1 0 + 32)
          else mapping
        some (mapping, entry.drop entryCells)

/-- The loop over `interrupt-map`. An entry takes a cell or more, so the cells left are fuel enough. -/
def interruptMapLoop (common : Emu68Common) (interruptParent : BitVec 32 → Option InterruptParent)
    (addrCells intCells : ℕ) : (fuel : ℕ) → List (BitVec 32) → (ℕ → BitVec 32) → ℕ → BitVec 32
  | 0, _, mapping => mapping
  | fuel + 1, entry, mapping =>
    match interruptMapEntry common interruptParent addrCells intCells entry mapping with
    | none => mapping
    | some (mapping, entry) =>
      interruptMapLoop common interruptParent addrCells intCells fuel entry mapping

/-- The routing of the INTx pins, from the node's `interrupt-map`. -/
def interruptMapping (common : Emu68Common) (node : PcieNode) (mapping : ℕ → BitVec 32) :
    ℕ → BitVec 32 :=
  match node.interruptMap with
  | none => mapping
  | some cells =>
    interruptMapLoop common node.interruptParent (node.addressCells.getD 2)
      (node.interruptCells.getD 1) cells.length cells mapping

/-- `brcm_devtree_parse`: the node it has found, the controller set up from it. -/
def brcmDevtreeParse (plat : Platform) : ProbeM σ PcieNode := do
  let node ← ofExcept plat.node
  require (node.base ≠ 0) .einval
  modify fun st => { st with ssc := st.ssc || node.enableSsc, gen := 0 }
  let cells ← ofExcept (node.mmioPhys.elim (.error .einval) .ok)
  modifyPcie fun pcie =>
    { pcie with
      mmioWindowPhys := plat.common.dtGetNumber cells
      mmioWindowVirtual := node.mmioVirt.getD 0
      mmioWindowSize := (node.mmioSize.getD sz64M).setWidth 64
      intXMapping := interruptMapping plat.common node pcie.intXMapping }
  modify fun st => { st with msiGicIrq := node.msiIrq }
  require (node.msiIrq.slt 0 = false) .einval
  pure node

/-- `pci_get_devtree_regions` on the controller's record. -/
def getDevtreeRegions (plat : Platform) (node : DtNode) (dmaWin : PciRegion) : ProbeM σ Unit := do
  let _ ← ofExcept (dtPciRangesOpen node node.ranges)
  let met ← acquire .regions
  let regions ← ofExcept (pciGetDevtreeRegions plat.common node dmaWin plat.memList met)
  modify fun st => { st with pcie := { st.pcie with regions := regions }, regionsBlock := true }

/-! ## The MSI demux -/

/-- `brcm_msi_set_regs`. -/
def brcmMsiSetRegs : ProbeM σ Unit := do
  modifyPcie fun pcie => { pcie with intr2 := pcie.intr2.writeClr 0xffffffff }
  let pcie := (← get).pcie
  modifyRegs fun regs => mmioWrite32 regs (pcie.msi.targetAddr ||| 1) pcieMiscMsiBarConfigLo
  modifyRegs fun regs => mmioWrite32 regs 0 pcieMiscMsiBarConfigHi
  modifyRegs fun regs => mmioWrite32 regs pcieMiscMsiDataConfigVal32 pcieMiscMsiDataConfig

/-- `brcm_msi_demux_enable`. -/
def brcmMsiDemuxEnable [Gic400 σ] (isr : Interrupt) : ProbeM σ Unit := do
  let st ← get
  match brcmGicAddServer st.pcie st.msiGicIrq (some isr) with
  | (pcie, .error e) =>
    modifyPcie fun _ => pcie
    throw e
  | (pcie, .ok ()) =>
    modify fun st => { st with pcie := pcie, memory := st.memory.hold .demuxServer }
    brcmMsiSetRegs

/-- `brcm_msi_demux_disable`. -/
def brcmMsiDemuxDisable [Gic400 σ] (isr : Interrupt) (st : RcState σ) : RcState σ :=
  { st with
    pcie := brcmGicRemServer st.pcie st.msiGicIrq (some isr)
    memory := st.memory.release .demuxServer }

/-! ## The calls -/

/-- The loop of `brcm_pcie_probe` that gives the memory regions their windows. -/
def setOutboundWinsM (common : Emu68Common) : (regions : List PciRegion) → (numOutWins : ℕ) → ProbeM σ Unit
  | [], _ => pure ()
  | reg :: regions, numOutWins =>
    if reg.flags ≠ pciRegionMem then setOutboundWinsM common regions numOutWins
    else if brcmNumPcieOutWins ≤ numOutWins then throw .einval
    else do
      modifyRegs fun regs =>
        brcmPcieSetOutboundWin common regs numOutWins reg.physStart (reg.busStart.setWidth 64)
          (reg.size.setWidth 64)
      setOutboundWinsM common regions (numOutWins + 1)

/-- The bridge out of reset, in `brcm_pcie_probe`; the fundamental reset stays asserted. -/
def startBridge (regs : RcRegisters) : RcRegisters :=
  let regs := mmioSet32 regs pcieRgr1SwInit1 (pcieRgr1SwInit1InitMask ||| pcieRgr1SwInit1PerstMask)
  let regs := mmioClear32 regs pcieRgr1SwInit1 pcieRgr1SwInit1InitMask
  let regs := mmioClear32 regs pcieMiscHardPcieHardDebug pcieHardDebugSerdesIddqMask
  mmioUpdate32 regs pcieMiscMiscCtrl miscCtrlMaxBurstSizeMask
    (miscCtrlScbAccessEnMask ||| miscCtrlCfgReadUrModeMask ||| miscCtrlMaxBurstSize128 |||
      miscCtrlPcieRcbMpsModeMask ||| miscCtrlPcieRcb64bModeMask)

/-- The inbound windows, in `brcm_pcie_probe`: one for memory, the other two off. -/
def setInboundWins (common : Emu68Common) (region : PciRegion) (regs : RcRegisters) : RcRegisters :=
  let regs := setRcBar2 common regs region
  let rcBar2Size := common.roundUpPow2U64 (region.size.setWidth 64)
  let scbSizeVal := if rcBar2Size ≠ 0 then common.log2FloorU64 rcBar2Size - 15 else 0xf
  let tmp := common.u32UpdateMask (regs pcieMiscMiscCtrl) scbSizeVal miscCtrlScb0SizeMask
  let regs := mmioWrite32 regs tmp pcieMiscMiscCtrl
  let regs := mmioClear32 regs pcieMiscRcBar1ConfigLo rcBar1ConfigLoSizeMask
  mmioClear32 regs pcieMiscRcBar3ConfigLo rcBar3ConfigLoSizeMask

/-- The root port as the bus is to see it, in `brcm_pcie_probe`: a bridge, little endian, that shows
retries to software and does not save power. A failed `brcm_pcie_set_ssc` is logged and no more. -/
def setRootPort (answers : RcAnswers) (ssc : Bool) (regs : RcRegisters) : RcRegisters :=
  let regs := mmioUpdate32 regs pcieRcCfgPriv1IdVal3 idVal3ClassCodeMask 0x060400
  let regs := if ssc then (brcmPcieSetSsc regs answers.mdio).1 else regs
  let regs := mmioUpdate32 regs pcieRcCfgVendorVendorSpecificReg1 endianModeBar2Mask
    vendorSpecificReg1LittleEndian
  let capreg := mmioRead16 regs (brcmPcieCapRegs + pciExpRtcap)
  let regs :=
    if capreg &&& pciExpRtcapCrsvis ≠ 0 then
      mmioSet16 regs (brcmPcieCapRegs + pciExpRtctl) pciExpRtctlCrssve
    else regs
  mmioClear32 regs pcieRcCfgPriv1LinkCapability linkCapabilityAspmSupportMask

/-- The wait for the link, in `brcm_pcie_probe`, and the checks behind it. -/
def requireLink (answers : RcAnswers) : ProbeM σ Unit := do
  let reads := waitForLink answers.status 20 0
  require (brcmPcieLinkUp (answers.status reads)) .einval
  require (brcmPcieRcMode (answers.status (reads + 1))) .einval

/-- The end of `brcm_pcie_probe`: `gic400.library` and the MSI demux. -/
def registerDemux [Gic400 σ] (isr : Interrupt) : ProbeM σ Unit := do
  let met ← acquire .gic400
  require (met = true) .enodev
  tryCatch (brcmMsiDemuxEnable isr) fun e => do
    release .gic400
    throw e

/-- The end of `brcm_pcie_probe`, with the link up: the outbound windows, the root port, the MSI
demux. -/
def openBus [Gic400 σ] (plat : Platform) (regions : List PciRegion) (ssc : Bool) : ProbeM σ Unit := do
  setOutboundWinsM plat.common regions 0
  modifyRegs (setRootPort plat.answers ssc)
  modify fun st => { st with hwRev := plat.answers.revision }
  require (brcmPcieHwRev33 ≤ plat.answers.revision) .enodev
  registerDemux plat.demuxIsr

/-- The second half of `brcm_pcie_probe`, with the inbound windows set up. -/
def startController [Gic400 σ] (plat : Platform) : ProbeM σ Unit := do
  modifyPcie fun pcie =>
    { pcie with
      msi := { pcie.msi with targetAddr := brcmMsiTargetAddrLt4gb }
      intr2 := (pcie.intr2.writeMaskSet 0xffffffff).writeClr 0xffffffff }
  let st ← get
  modifyRegs fun regs => if st.gen ≠ 0 then brcmPcieSetGen regs st.gen else regs
  modifyRegs fun regs => mmioClear32 regs pcieRgr1SwInit1 pcieRgr1SwInit1PerstMask
  requireLink plat.answers
  openBus plat st.pcie.regions st.ssc

/-- `brcm_pcie_probe`. -/
def brcmPcieProbe [Gic400 σ] (plat : Platform) (busNumberBase : ℕ) : ProbeM σ Unit := do
  let node ← brcmDevtreeParse plat
  modifyPcie fun pcie =>
    { pcie with busNumberBase := busNumberBase, busNumberLast := busNumberBase }
  modifyRegs startBridge
  let region ← ofExcept (brcmPcieDmaWindow plat.common node.toDtNode)
  getDevtreeRegions plat node.toDtNode region
  modifyRegs (setInboundWins plat.common region)
  startController plat

/-- `brcm_pcie_remove`. -/
def brcmPcieRemove [Gic400 σ] (plat : Platform) (st : RcState σ) : RcState σ :=
  let st := brcmMsiDemuxDisable plat.demuxIsr st
  let memory := st.memory.release .gic400
  let regs := mmioSet32 st.regs pcieRgr1SwInit1 pcieRgr1SwInit1PerstMask
  let regs := mmioSet32 regs pcieMiscHardPcieHardDebug pcieHardDebugSerdesIddqMask
  let regs := mmioSet32 regs pcieRgr1SwInit1 pcieRgr1SwInit1InitMask
  { st with
    regs := regs
    memory := if st.regionsBlock then memory.release .regions else memory }

/-! ## Up to the region table -/

/-- The node has what `brcm_devtree_parse` asks of it. -/
def PcieNode.Usable (node : PcieNode) : Prop :=
  node.base ≠ 0 ∧ node.mmioPhys ≠ none ∧ node.msiIrq.slt 0 = false

instance (node : PcieNode) : Decidable node.Usable := inferInstanceAs (Decidable (_ ∧ _))

/-- The device tree is such that the region table is set up, if there is memory for it (`met`): with
the inbound window `region` and the table `regions`. -/
def Accepted (plat : Platform) (met : Bool) (region : PciRegion) (regions : List PciRegion) : Prop :=
  ∃ node, plat.node = .ok node ∧ node.Usable ∧
    brcmPcieDmaWindow plat.common node.toDtNode = .ok region ∧
    pciGetDevtreeRegions plat.common node.toDtNode region plat.memList met = .ok regions

/-- The table is the only one. -/
theorem Accepted.unique {plat : Platform} {met : Bool} {region region' : PciRegion}
    {regions regions' : List PciRegion} (h : Accepted plat met region regions)
    (h' : Accepted plat met region' regions') : region = region' ∧ regions = regions' := by
  obtain ⟨node, hnode, -, hwin, hregs⟩ := h
  obtain ⟨node', hnode', -, hwin', hregs'⟩ := h'
  obtain rfl := Except.ok.inj (hnode.symm.trans hnode')
  obtain rfl := Except.ok.inj (hwin.symm.trans hwin')
  exact ⟨rfl, Except.ok.inj (hregs.symm.trans hregs')⟩

/-- There is memory for the table. -/
theorem met_of_pciGetDevtreeRegions {common : Emu68Common} {node : DtNode} {region : PciRegion}
    {memList : List MemHeader} {met : Bool} {regions : List PciRegion}
    (h : pciGetDevtreeRegions common node region memList met = .ok regions) : met = true := by
  unfold pciGetDevtreeRegions at h
  split at h
  · cases h
  · by_contra hmet
    rw [Bool.not_eq_true] at hmet
    rw [hmet] at h
    cases h

/-- The state after `brcm_devtree_parse`. -/
def parsed (plat : Platform) (node : PcieNode) (s : RcState σ) : RcState σ :=
  { s with
    ssc := s.ssc || node.enableSsc
    gen := 0
    msiGicIrq := node.msiIrq
    pcie :=
      { s.pcie with
        mmioWindowPhys := plat.common.dtGetNumber (node.mmioPhys.getD [])
        mmioWindowVirtual := node.mmioVirt.getD 0
        mmioWindowSize := (node.mmioSize.getD sz64M).setWidth 64
        intXMapping := interruptMapping plat.common node s.pcie.intXMapping } }

/-- The state of the probe with the inbound windows set up. -/
def tableSet (plat : Platform) (busNumberBase : ℕ) (node : PcieNode) (region : PciRegion)
    (regions : List PciRegion) (s : RcState σ) : RcState σ :=
  let s := parsed plat node s
  { s with
    pcie :=
      { s.pcie with
        busNumberBase := busNumberBase
        busNumberLast := busNumberBase
        regions := regions }
    regs := setInboundWins plat.common region (startBridge s.regs)
    memory := (s.memory.acquire .regions).2
    regionsBlock := true }

section Parse

open Computations

variable {plat : Platform} {s : RcState σ} {node : PcieNode} {region : PciRegion}
  {regions : List PciRegion}

/-- A usable node of the device tree is parsed. -/
theorem brcmDevtreeParse_eq_ok (hnode : plat.node = .ok node) (h : node.Usable) :
    brcmDevtreeParse plat s = .ok node (parsed plat node s) := by
  obtain ⟨hbase, hphys, hirq⟩ := h
  obtain ⟨cells, hcells⟩ := Option.ne_none_iff_exists'.1 hphys
  unfold brcmDevtreeParse parsed
  rw [hnode, bind_ofExcept_ok, bind_require_pos hbase, bind_modify, hcells]
  dsimp only [Option.elim_some]
  rw [bind_ofExcept_ok, bind_modifyPcie, bind_modify, bind_require_pos hirq]
  rfl

/-- The device tree is read without a request for memory. -/
theorem keeps_brcmDevtreeParse (plat : Platform) :
    Keeps (·.memory) (brcmDevtreeParse plat : ProbeM σ PcieNode) := by
  unfold brcmDevtreeParse
  refine Relates.bind (keeps_ofExcept _) fun node => Relates.bind (keeps_require _ _) fun _ => ?_
  refine Relates.bind (Relates.modify fun _ => rfl) fun _ => ?_
  refine Relates.bind (keeps_ofExcept _) fun cells => Relates.bind (Relates.modify fun _ => rfl) fun _ => ?_
  refine Relates.bind (Relates.modify fun _ => rfl) fun _ => ?_
  exact Relates.bind (keeps_require _ _) fun _ => Relates.pure _

/-- And only a usable one is. -/
theorem brcmDevtreeParse_ok {s' : RcState σ} (h : brcmDevtreeParse plat s = .ok node s') :
    plat.node = .ok node ∧ node.Usable := by
  unfold brcmDevtreeParse at h
  cases hnode : plat.node with
  | error e =>
    rw [hnode, bind_ofExcept_error] at h
    cases h
  | ok node' =>
    rw [hnode, bind_ofExcept_ok] at h
    by_cases hbase : node'.base ≠ 0
    · rw [bind_require_pos hbase, bind_modify] at h
      cases hphys : node'.mmioPhys with
      | none =>
        rw [hphys, Option.elim_none, bind_ofExcept_error] at h
        cases h
      | some cells =>
        rw [hphys, Option.elim_some, bind_ofExcept_ok, bind_modifyPcie, bind_modify] at h
        by_cases hirq : node'.msiIrq.slt 0 = false
        · rw [bind_require_pos hirq] at h
          obtain ⟨rfl, -⟩ := pure_eq_ok.1 h
          exact ⟨rfl, hbase, by rw [hphys]; exact Option.some_ne_none cells, hirq⟩
        · rw [bind_require_neg hirq] at h
          cases h
    · rw [bind_require_neg hbase] at h
      cases h

/-- The table is allocated and filled. -/
theorem bind_getDevtreeRegions (regions : List PciRegion) {dtNode : DtNode} {g : Unit → ProbeM σ Unit}
    (h : pciGetDevtreeRegions plat.common dtNode region plat.memList s.memory.available = .ok regions) :
    (getDevtreeRegions plat dtNode region >>= g) s
      = g () { s with
          pcie := { s.pcie with regions := regions }
          memory := (s.memory.acquire .regions).2
          regionsBlock := true } := by
  have hopen : ∃ it, dtPciRangesOpen dtNode dtNode.ranges = .ok it := by
    unfold pciGetDevtreeRegions at h
    split at h
    · cases h
    · rename_i it hit
      exact ⟨it, hit⟩
  obtain ⟨it, hit⟩ := hopen
  refine bind_of_ok ?_
  unfold getDevtreeRegions
  rw [hit, bind_ofExcept_ok,
    bind_of_ok (show acquire .regions s = .ok s.memory.available _ from rfl), h, bind_ofExcept_ok]
  rfl

/-- **The probe** of an accepted device tree, up to the inbound windows. -/
theorem brcmPcieProbe_of_accepted [Gic400 σ] (busNumberBase : ℕ)
    (h : Accepted plat s.memory.available region regions) :
    ∃ node, plat.node = .ok node ∧ brcmPcieProbe plat busNumberBase s
      = startController plat (tableSet plat busNumberBase node region regions s) := by
  obtain ⟨node, hnode, husable, hwin, hregs⟩ := h
  refine ⟨node, hnode, ?_⟩
  unfold brcmPcieProbe tableSet
  rw [bind_of_ok (brcmDevtreeParse_eq_ok hnode husable), bind_modifyPcie, bind_modifyRegs, hwin,
    bind_ofExcept_ok, bind_getDevtreeRegions regions]
  · rfl
  · exact hregs

/-- A table that cannot be set up is not held. -/
theorem bind_getDevtreeRegions_error {dtNode : DtNode} {g : Unit → ProbeM σ Unit}
    (h : ∀ regions, pciGetDevtreeRegions plat.common dtNode region plat.memList s.memory.available
      ≠ .ok regions) :
    ∃ e s', (getDevtreeRegions plat dtNode region >>= g) s = .error e s' ∧
      s'.memory.held = s.memory.held := by
  have herror : ∃ e s', getDevtreeRegions plat dtNode region s = .error e s' ∧
      s'.memory.held = s.memory.held := by
    unfold getDevtreeRegions
    cases hopen : dtPciRangesOpen dtNode dtNode.ranges with
    | error e => exact ⟨e, s, bind_ofExcept_error, rfl⟩
    | ok it =>
      have hmet : s.memory.available = false := by
        by_contra hmet
        rw [Bool.not_eq_false] at hmet
        refine h ((dtPciRecords plat.common it.next.length it).filterMap rangeRegion
          ++ fastRamRegions region 0 plat.memList) ?_
        unfold pciGetDevtreeRegions
        rw [hopen, hmet]
        rfl
      have hrefused : pciGetDevtreeRegions plat.common dtNode region plat.memList s.memory.available
          = .error .enomem := by
        unfold pciGetDevtreeRegions
        rw [hopen, hmet]
        rfl
      rw [bind_ofExcept_ok, bind_of_ok (show acquire .regions s = .ok s.memory.available _ from rfl),
        hrefused, bind_ofExcept_error]
      exact ⟨.enomem, _, rfl, Ledger.held_acquire_of_not_available hmet _⟩
  obtain ⟨e, s', herror, hheld⟩ := herror
  exact ⟨e, s', bind_eq_error.2 (Or.inl herror), hheld⟩

/-- **The probe** of a device tree that is not accepted fails, and holds nothing more than before. -/
theorem brcmPcieProbe_of_not_accepted [Gic400 σ] (busNumberBase : ℕ)
    (h : ∀ region regions, ¬ Accepted plat s.memory.available region regions) :
    ∃ e s', brcmPcieProbe plat busNumberBase s = .error e s' ∧ s'.memory.held = s.memory.held := by
  have hmemory := keeps_brcmDevtreeParse plat s
  unfold brcmPcieProbe
  cases hparse : brcmDevtreeParse plat s with
  | error e s' =>
    rw [final_of_error hparse] at hmemory
    exact ⟨e, s', bind_eq_error.2 (Or.inl hparse), congrArg Ledger.held hmemory⟩
  | ok node s' =>
    rw [final_of_ok hparse] at hmemory
    obtain ⟨hnode, husable⟩ := brcmDevtreeParse_ok hparse
    have hkeep : s'.memory = s.memory := hmemory
    rw [bind_of_ok hparse, bind_modifyPcie, bind_modifyRegs]
    cases hwin : brcmPcieDmaWindow plat.common node.toDtNode with
    | error e => exact ⟨e, _, bind_ofExcept_error, congrArg Ledger.held hkeep⟩
    | ok region =>
      rw [bind_ofExcept_ok]
      rw [← hkeep]
      refine bind_getDevtreeRegions_error fun regions hregs => h region regions ?_
      rw [← hkeep]
      exact ⟨node, hnode, husable, hwin, hregs⟩

end Parse

/-! ## Behind the inbound windows -/

section Start

open Computations

variable {plat : Platform} {s : RcState σ}

/-- The link comes up, to a root complex. -/
def LinkReady (answers : RcAnswers) : Prop :=
  brcmPcieLinkUp (answers.status (waitForLink answers.status 20 0)) = true ∧
    brcmPcieRcMode (answers.status (waitForLink answers.status 20 0 + 1)) = true

instance (answers : RcAnswers) : Decidable (LinkReady answers) := inferInstanceAs (Decidable (_ ∧ _))

/-- The MSI demux can be registered. -/
def DemuxReady [Gic400 σ] (isr : Interrupt) (s : RcState σ) : Prop :=
  s.memory.available = true ∧ (brcmGicAddServer s.pcie s.msiGicIrq (some isr)).2 = .ok ()

/-- The controller comes up: the link is ready, there is an outbound window for every memory region, the
revision is supported and the MSI demux can be registered. -/
def ControllerUp [Gic400 σ] (plat : Platform) (s : RcState σ) : Prop :=
  LinkReady plat.answers ∧ (memRegions s.pcie.regions).length ≤ 4 ∧
    brcmPcieHwRev33 ≤ plat.answers.revision ∧ DemuxReady plat.demuxIsr s

/-- The loop over the regions sets the registers as `setOutboundWins` does. -/
theorem setOutboundWinsM_ok {common : Emu68Common} {regions : List PciRegion} {n : ℕ}
    {regs : RcRegisters} (h : setOutboundWins common regions n s.regs = .ok regs) :
    setOutboundWinsM common regions n s = .ok () { s with regs := regs } := by
  induction regions generalizing n s with
  | nil =>
    obtain rfl := Except.ok.inj h
    rfl
  | cons reg regions ih =>
    unfold setOutboundWins at h
    unfold setOutboundWinsM
    split at h
    · rename_i hflags
      rw [if_pos hflags]
      exact ih h
    · rename_i hflags
      rw [if_neg hflags]
      split at h
      · cases h
      · rename_i hfree
        rw [if_neg hfree, bind_modifyRegs]
        exact ih h

/-- Where the windows run out, the loop fails. -/
theorem setOutboundWinsM_error {common : Emu68Common} {regions : List PciRegion} {n : ℕ} {e : Errno}
    (h : setOutboundWins common regions n s.regs = .error e) :
    ∃ s', setOutboundWinsM common regions n s = .error e s' ∧ s'.memory = s.memory := by
  induction regions generalizing n s with
  | nil => cases h
  | cons reg regions ih =>
    unfold setOutboundWins at h
    unfold setOutboundWinsM
    split at h
    · rename_i hflags
      rw [if_pos hflags]
      exact ih h
    · rename_i hflags
      rw [if_neg hflags]
      split at h
      · rename_i hfull
        rw [if_pos hfull]
        obtain rfl := Except.error.inj h
        exact ⟨s, rfl, rfl⟩
      · rename_i hfree
        rw [if_neg hfree, bind_modifyRegs]
        exact ih h

/-- The demultiplexer is enabled if the interrupt controller takes its server. -/
theorem brcmMsiDemuxEnable_ok [Gic400 σ] (isr : Interrupt)
    (h : (brcmGicAddServer s.pcie s.msiGicIrq (some isr)).2 = .ok ()) :
    ∃ s', brcmMsiDemuxEnable isr s = .ok () s' ∧ s'.memory = s.memory.hold .demuxServer ∧
      s'.regionsBlock = s.regionsBlock := by
  unfold brcmMsiDemuxEnable
  rw [bind_of_ok (show (get : ProbeM σ (RcState σ)) s = .ok s s from rfl)]
  cases hadd : brcmGicAddServer s.pcie s.msiGicIrq (some isr) with
  | mk pcie result =>
    rw [hadd] at h
    obtain rfl : result = .ok () := h
    exact ⟨_, rfl, rfl, rfl⟩

/-- Otherwise nothing is held for it. -/
theorem brcmMsiDemuxEnable_error [Gic400 σ] (isr : Interrupt)
    (h : (brcmGicAddServer s.pcie s.msiGicIrq (some isr)).2 ≠ .ok ()) :
    ∃ e s', brcmMsiDemuxEnable isr s = .error e s' ∧ s'.memory = s.memory := by
  unfold brcmMsiDemuxEnable
  rw [bind_of_ok (show (get : ProbeM σ (RcState σ)) s = .ok s s from rfl)]
  cases hadd : brcmGicAddServer s.pcie s.msiGicIrq (some isr) with
  | mk pcie result =>
    cases result with
    | error e => exact ⟨e, _, rfl, rfl⟩
    | ok _ =>
      rw [hadd] at h
      exact absurd rfl h

/-- `gic400.library` is open and the server registered. -/
theorem registerDemux_ok [Gic400 σ] (isr : Interrupt) (h : DemuxReady isr s) :
    ∃ s', registerDemux isr s = .ok () s' ∧
      s'.memory = (s.memory.acquire .gic400).2.hold .demuxServer ∧
      s'.regionsBlock = s.regionsBlock := by
  obtain ⟨hmet, hadd⟩ := h
  obtain ⟨s', hok, hmemory, hblock⟩ := brcmMsiDemuxEnable_ok isr
    (s := { s with memory := (s.memory.acquire .gic400).2 }) hadd
  refine ⟨s', ?_, hmemory, hblock⟩
  unfold registerDemux
  rw [bind_of_ok (show acquire .gic400 s = .ok s.memory.available _ from rfl), bind_require_pos hmet]
  exact tryCatch_of_ok hok

/-- Nothing is held if one of the two is refused. -/
theorem registerDemux_error [Gic400 σ] (isr : Interrupt) (h : ¬ DemuxReady isr s) :
    ∃ e s', registerDemux isr s = .error e s' ∧ s'.memory.held = s.memory.held := by
  unfold registerDemux
  rw [bind_of_ok (show acquire .gic400 s = .ok s.memory.available _ from rfl)]
  by_cases hmet : s.memory.available = true
  · rw [bind_require_pos hmet]
    obtain ⟨e, s', herror, hmemory⟩ := brcmMsiDemuxEnable_error isr
      (s := { s with memory := (s.memory.acquire .gic400).2 }) fun hadd => h ⟨hmet, hadd⟩
    refine ⟨e, { s' with memory := s'.memory.release .gic400 }, ?_, ?_⟩
    · rw [tryCatch_of_error herror]
      rfl
    · show (s'.memory.release .gic400).held = s.memory.held
      rw [hmemory]
      exact Ledger.held_release_acquire hmet _
  · rw [bind_require_neg hmet]
    exact ⟨.enodev, _, rfl, Ledger.held_acquire_of_not_available (by simpa using hmet) _⟩

/-- The state in which the link is waited for. -/
def linkAwaited (s : RcState σ) : RcState σ :=
  { s with
    pcie :=
      { s.pcie with
        msi := { s.pcie.msi with targetAddr := brcmMsiTargetAddrLt4gb }
        intr2 := (s.pcie.intr2.writeMaskSet 0xffffffff).writeClr 0xffffffff }
    regs := mmioClear32 (if s.gen ≠ 0 then brcmPcieSetGen s.regs s.gen else s.regs) pcieRgr1SwInit1
      pcieRgr1SwInit1PerstMask }

/-- Starting the controller is to wait for the link, to require it, and to open the bus. -/
theorem startController_eq [Gic400 σ] : startController plat s
    = (requireLink plat.answers >>= fun _ => openBus plat s.pcie.regions s.ssc) (linkAwaited s) := rfl

/-- A link that is ready is passed. -/
theorem requireLink_bind {g : Unit → ProbeM σ Unit} (h : LinkReady plat.answers) :
    (requireLink plat.answers >>= g) s = g () s := by
  obtain ⟨hup, hrc⟩ := h
  refine bind_of_ok ?_
  unfold requireLink
  rw [bind_require_pos hup]
  unfold require
  rw [if_pos hrc]
  rfl

/-- A link that is not ready is refused. -/
theorem requireLink_error (h : ¬ LinkReady plat.answers) :
    requireLink plat.answers s = .error .einval s := by
  unfold requireLink
  by_cases hup : brcmPcieLinkUp (plat.answers.status (waitForLink plat.answers.status 20 0)) = true
  · rw [bind_require_pos hup]
    unfold require
    rw [if_neg fun hrc => h ⟨hup, hrc⟩]
    rfl
  · exact bind_require_neg hup

/-- What is left to do with the link up succeeds if the rest of `ControllerUp` holds. -/
theorem openBus_ok [Gic400 σ] {ssc : Bool} {regs : RcRegisters}
    (hwins : setOutboundWins plat.common s.pcie.regions 0 s.regs = .ok regs)
    (hrev : brcmPcieHwRev33 ≤ plat.answers.revision) (hdemux : DemuxReady plat.demuxIsr s) :
    ∃ s', openBus plat s.pcie.regions ssc s = .ok () s' ∧
      s'.memory = (s.memory.acquire .gic400).2.hold .demuxServer ∧
      s'.regionsBlock = s.regionsBlock := by
  obtain ⟨s', hok, hmemory, hblock⟩ := registerDemux_ok plat.demuxIsr
    (s := { s with regs := setRootPort plat.answers ssc regs, hwRev := plat.answers.revision }) hdemux
  refine ⟨s', ?_, hmemory, hblock⟩
  unfold openBus
  rw [bind_of_ok (setOutboundWinsM_ok hwins), bind_modifyRegs, bind_modify, bind_require_pos hrev]
  exact hok

/-- The bus is refused with too many regions, too old a controller or no server for the
demultiplexer, and nothing more is held than before. -/
theorem openBus_error [Gic400 σ] {ssc : Bool}
    (h : ¬ ((memRegions s.pcie.regions).length ≤ 4 ∧ brcmPcieHwRev33 ≤ plat.answers.revision ∧
      DemuxReady plat.demuxIsr s)) :
    ∃ e s', openBus plat s.pcie.regions ssc s = .error e s' ∧ s'.memory.held = s.memory.held := by
  unfold openBus
  cases hwins : setOutboundWins plat.common s.pcie.regions 0 s.regs with
  | error e =>
    obtain ⟨s', herror, hmemory⟩ := setOutboundWinsM_error hwins
    exact ⟨e, s', bind_eq_error.2 (Or.inl herror), congrArg Ledger.held hmemory⟩
  | ok regs =>
    have hcount : (memRegions s.pcie.regions).length ≤ 4 := by
      have hfit := (setOutboundWins_ok_iff 0 (by decide)).1 ⟨regs, hwins⟩
      omega
    rw [bind_of_ok (setOutboundWinsM_ok hwins), bind_modifyRegs, bind_modify]
    by_cases hrev : brcmPcieHwRev33 ≤ plat.answers.revision
    · rw [bind_require_pos hrev]
      exact registerDemux_error plat.demuxIsr
        (s := { s with regs := setRootPort plat.answers ssc regs, hwRev := plat.answers.revision })
        fun hdemux => h ⟨hcount, hrev, hdemux⟩
    · rw [bind_require_neg hrev]
      exact ⟨.enodev, _, rfl, rfl⟩

/-- **The second half of the probe** succeeds when the controller comes up, and then holds
`gic400.library` and the server; else it fails and holds nothing more than before. -/
theorem startController_ok [Gic400 σ] (h : ControllerUp plat s) :
    ∃ s', startController plat s = .ok () s' ∧
      s'.memory = (s.memory.acquire .gic400).2.hold .demuxServer ∧
      s'.regionsBlock = s.regionsBlock := by
  obtain ⟨hlink, hcount, hrev, hdemux⟩ := h
  have hfit : 0 + (memRegions s.pcie.regions).length ≤ 4 := by omega
  obtain ⟨regs, hwins⟩ :=
    (@setOutboundWins_ok_iff plat.common (linkAwaited s).regs s.pcie.regions 0 (by decide)).2 hfit
  rw [startController_eq, requireLink_bind hlink]
  exact openBus_ok (s := linkAwaited s) hwins hrev hdemux

/-- A controller that does not come up holds nothing more than before. -/
theorem startController_error [Gic400 σ] (h : ¬ ControllerUp plat s) :
    ∃ e s', startController plat s = .error e s' ∧ s'.memory.held = s.memory.held := by
  rw [startController_eq]
  by_cases hlink : LinkReady plat.answers
  · rw [requireLink_bind hlink]
    exact openBus_error (s := linkAwaited s) fun hrest => h ⟨hlink, hrest⟩
  · exact ⟨.einval, _, bind_eq_error.2 (Or.inl (requireLink_error hlink)), rfl⟩

end Start

end BcmPcie
