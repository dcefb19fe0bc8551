import BcmPcie.Enumeration.HeldRecords
import BcmPcie.Lifecycle.HwInit
import BcmPcie.Memory.DmaWindow

/-! # What pcie_hw_init gives back

The ladder of labels in `pcie_hw_init` and `pcie_hw_shutdown` give back what they have taken
themselves. Two kinds of blocks are nobody's: the region table of a probe that fails behind it, and
the records the scan makes of buses and functions, which are not even freed by a shutdown.

* `HwBalanced` — all that is taken is given back.
* `Running` — what is held while the library is up, on top of what was held before.
* `hwBalanced_iff` — when all is given back. -/

namespace BcmPcie

open Computations

variable {σ : Type}

/-! ## The statement -/

/-- An open of a closed library: `pcie_hw_init`, and `pcie_hw_shutdown` if it has succeeded. -/
def hwRun [Gic400 σ] (plat : Platform) (functions : Forest HwFunction) (rc : RcState σ) : HwState σ :=
  let (ret, s) := pcieHwInit plat functions { rc := rc }
  if ret = 0 then pcieHwShutdown plat s else s

/-- Everything that is taken is given back. -/
def HwBalanced [Gic400 σ] (plat : Platform) (functions : Forest HwFunction) (rc : RcState σ) : Prop :=
  (hwRun plat functions rc).rc.memory.held.Perm rc.memory.held

instance decidableHwBalanced [Gic400 σ] (plat : Platform) (functions : Forest HwFunction)
    (rc : RcState σ) : Decidable (HwBalanced plat functions rc) := inferInstanceAs (Decidable (List.Perm _ _))

/-- The controller comes up, once its region table is set up: the link, the outbound windows, the
revision, `gic400.library` and the server of the MSI demux. -/
structure ComesUp [Gic400 σ] (plat : Platform) (node : PcieNode) (regions : List PciRegion)
    (rc : RcState σ) : Prop where
  link : LinkReady plat.answers
  windows : (memRegions regions).length ≤ 4
  revision : brcmPcieHwRev33 ≤ plat.answers.revision
  gic400 : rc.memory.met 2 = true
  server : (Gic400.addIntServerEx rc.pcie.gic400 node.msiIrq pcieGicPriority pcieGicEdge
    (some plat.demuxIsr)).1 = .ok

/-- When the region table is set up, the controller comes up behind it, and the scan, if there is
memory for a root bus, makes no record: nothing answers on the root bus, or there is no memory for the
first record. -/
def HwCond [Gic400 σ] (plat : Platform) (functions : Forest HwFunction) (rc : RcState σ) : Prop :=
  ∀ node region regions, plat.node = .ok node → rc.memory.met 0 = true →
    Accepted plat (rc.memory.met 1) region regions →
    ComesUp plat node regions rc ∧
      (rc.memory.met 3 = true → RootAnswers functions.roots → rc.memory.met 4 = false)

/-! ## The steps -/

section Steps

variable {s : HwState σ} {rest : List Resource}

/-- What the library has of the controller while it is up. -/
def coreBlocks : List Resource := [.rootBus, .demuxServer, .gic400, .regions, .controller]

/-- What is held while the library is up: the records of the clients and what the core has, on top of
`rest`. -/
structure Running (rest : List Resource) (s : HwState σ) : Prop where
  held : s.rc.memory.held.Perm (List.replicate s.devList.length .pciDev ++ (coreBlocks ++ rest))
  regionsBlock : s.rc.regionsBlock = true

/-- The state after a request, whether it is met or not. -/
def HwState.asked (r : Resource) (s : HwState σ) : HwState σ :=
  { s with rc := { s.rc with memory := (s.rc.memory.acquire r).2 } }

/-- A step of the controller that succeeds succeeds for the whole machine. -/
theorem onCtrl_ok {α : Type} {x : ProbeM σ α} {a : α} {rc : RcState σ} (h : x s.rc = .ok a rc) :
    onCtrl x s = .ok a { s with rc := rc } := zoom_of_ok h

/-- A step of the controller that fails fails for the whole machine. -/
theorem onCtrl_error {α : Type} {x : ProbeM σ α} {e : Errno} {rc : RcState σ}
    (h : x s.rc = .error e rc) : onCtrl x s = .error e { s with rc := rc } := zoom_of_error h

/-- An allocation succeeds if there is memory. -/
theorem alloc_ok (r : Resource) (h : s.rc.memory.available = true) :
    onCtrl (allocBlock r) s = .ok () (s.asked r) := by
  refine onCtrl_ok ?_
  unfold allocBlock
  rw [bind_of_ok (show acquire r s.rc = .ok s.rc.memory.available _ from rfl)]
  unfold require
  rw [if_pos h]
  rfl

/-- An allocation fails if there is none. -/
theorem alloc_error (r : Resource) (h : s.rc.memory.available = false) :
    onCtrl (allocBlock r) s = .error .enomem (s.asked r) := by
  refine onCtrl_error ?_
  unfold allocBlock
  rw [bind_of_ok (show acquire r s.rc = .ok s.rc.memory.available _ from rfl)]
  unfold require
  rw [if_neg (by rw [h]; decide)]
  rfl

/-- A request that is not met leaves what is held. -/
theorem running_asked (r : Resource) (h : s.rc.memory.available = false) (hrun : Running rest s) :
    Running rest (s.asked r) := by
  refine ⟨?_, hrun.regionsBlock⟩
  show ((s.rc.memory.acquire r).2.held).Perm _
  rw [Ledger.held_acquire_of_not_available h]
  exact hrun.held

/-- A record is added to the list in running state, or refused in it. -/
theorem preserves_addPdev (idev : PciDevice) :
    Preserves (Running rest) (addPdev idev : HwM σ Unit) := by
  intro s h
  unfold addPdev
  cases hmet : s.rc.memory.available with
  | true =>
    rw [final_bind_of_ok (alloc_ok .pciDev hmet)]
    refine ⟨?_, h.regionsBlock⟩
    show ((s.rc.memory.acquire .pciDev).2.held).Perm
      (List.replicate (s.devList ++ [pcieMakePdev idev]).length .pciDev ++ _)
    rw [List.length_append, List.length_singleton, List.replicate_succ]
    exact Ledger.perm_acquire hmet h.held
  | false =>
    rw [final_bind_of_error (alloc_error .pciDev hmet)]
    exact running_asked .pciDev hmet h

/-- So the list of records is built in running state. -/
theorem preserves_pcieBuildDevList (buses : List PciBus) :
    Preserves (Running rest) (pcieBuildDevList buses : HwM σ Unit) := by
  refine Relates.forM (fun busIndex => ?_) _
  split
  · exact Relates.pure _
  · exact Relates.forM preserves_addPdev _

/-! ## The ladder -/

/-- A list of records is freed one by one. -/
theorem foldl_free_held (l : List PciDev) {s : HwState σ} {rest : List Resource}
    (h : s.rc.memory.held.Perm (List.replicate l.length .pciDev ++ rest)) :
    (l.foldl (fun s _ => s.free .pciDev) s).rc.memory.held.Perm rest ∧
      (l.foldl (fun s _ => s.free .pciDev) s).rc.regionsBlock = s.rc.regionsBlock ∧
      (l.foldl (fun s _ => s.free .pciDev) s).dmaPool = s.dmaPool := by
  induction l generalizing s with
  | nil => exact ⟨h, rfl, rfl⟩
  | cons pdev l ih =>
    rw [List.length_cons, List.replicate_succ, List.cons_append] at h
    exact @ih (s.free .pciDev) (Ledger.perm_release h)

/-- Freeing the list leaves the blocks of the core, the regions and the pool. -/
theorem pcieFreeDevList_held (h : Running rest s) :
    (pcieFreeDevList s).rc.memory.held.Perm (coreBlocks ++ rest) ∧
      (pcieFreeDevList s).rc.regionsBlock = true ∧ (pcieFreeDevList s).dmaPool = s.dmaPool := by
  obtain ⟨hheld, hblock, hpool⟩ := foldl_free_held s.devList h.held
  exact ⟨hheld, hblock.trans h.regionsBlock, hpool⟩

/-- The error path of the list frees the records and the root bus. -/
theorem errDevList_held (h : Running rest s) :
    s.errDevList.rc.memory.held.Perm
        (.demuxServer :: .gic400 :: .regions :: .controller :: rest) ∧
      s.errDevList.rc.regionsBlock = true := by
  obtain ⟨hheld, hblock, -⟩ := pcieFreeDevList_held h
  exact ⟨Ledger.perm_release hheld, hblock⟩

/-- Removing the controller frees its blocks. -/
theorem removeCtrl_held [Gic400 σ] (plat : Platform) {rest : List Resource}
    (hheld : s.rc.memory.held.Perm (.demuxServer :: .gic400 :: .regions :: rest))
    (hblock : s.rc.regionsBlock = true) : (s.removeCtrl plat).rc.memory.held.Perm rest := by
  show (if s.rc.regionsBlock then _ else _ : Ledger Resource).held.Perm rest
  rw [if_pos hblock]
  exact Ledger.perm_release (Ledger.perm_release (Ledger.perm_release hheld))

/-- Deleting the pool frees it. -/
theorem deletePool_held (hpool : s.dmaPool = true) (h : s.rc.memory.held.Perm (.dmaPool :: rest)) :
    s.deletePool.rc.memory.held.Perm rest := by
  unfold HwState.deletePool
  rw [if_pos hpool]
  exact Ledger.perm_release h

/-- The shutdown of a running machine frees everything it holds. -/
theorem pcieHwShutdown_held [Gic400 σ] (plat : Platform) (h : Running (.dmaPool :: rest) s)
    (hpool : s.dmaPool = true) : (pcieHwShutdown plat s).rc.memory.held.Perm rest := by
  obtain ⟨hheld, hblock, hkept⟩ := pcieFreeDevList_held h
  -- the root bus is freed behind what the controller has
  have horder : coreBlocks.Perm [.demuxServer, .gic400, .regions, .rootBus, .controller] := by decide
  have hremoved := removeCtrl_held plat (hheld.trans (horder.append_right _)) hblock
  exact deletePool_held (hkept.trans hpool) (Ledger.perm_release (Ledger.perm_release hremoved))

/-! ## The phases -/

/-- What has been taken of the controller, behind the root bus. -/
structure CtrlHeld (rest : List Resource) (s : HwState σ) : Prop where
  held : s.rc.memory.held.Perm (.demuxServer :: .gic400 :: .regions :: .controller :: rest)
  regionsBlock : s.rc.regionsBlock = true

/-- A phase ends with the library up on top of `rest`, or fails and leaves `P`. -/
def EndsUp (rest : List Resource) (P : HwState σ → Prop) (x : HwM σ Unit) (s : HwState σ) : Prop :=
  (∃ s', x s = .ok () s' ∧ s'.dmaPool = true ∧ Running (.dmaPool :: rest) s') ∨
    ∃ e s', x s = .error e s' ∧ P s'

/-- A step with an error path: after a failure the state is that of the error path. -/
theorem EndsUp.onError {P Q : HwState σ → Prop} {x : HwM σ Unit} {undo : HwState σ → HwState σ}
    (h : EndsUp rest P x s) (hundo : ∀ s, P s → Q (undo s)) :
    EndsUp rest Q (Computations.onError undo x) s := by
  rcases h with ⟨s', hok, hup⟩ | ⟨e, s', herror, hP⟩
  · exact Or.inl ⟨s', onError_of_ok hok, hup⟩
  · exact Or.inr ⟨e, undo s', onError_of_error herror, hundo s' hP⟩

/-- A first step that succeeds hands its state on. -/
theorem EndsUp.of_ok {α : Type} {P : HwState σ → Prop} {x : HwM σ α} {f : α → HwM σ Unit} {a : α}
    {s' : HwState σ} (hx : x s = .ok a s') (h : EndsUp rest P (f a) s') :
    EndsUp rest P (x >>= f) s := by
  unfold EndsUp
  rw [bind_of_ok hx]
  exact h

/-- A first step that fails ends with its state. -/
theorem EndsUp.of_error {α : Type} {P : HwState σ → Prop} {x : HwM σ α} {f : α → HwM σ Unit}
    {e : Errno} {s' : HwState σ} (hx : x s = .error e s') (h : P s') : EndsUp rest P (x >>= f) s :=
  Or.inr ⟨e, s', bind_eq_error.2 (Or.inl hx), h⟩

/-- The pool is created in running state, or not at all. -/
theorem createPool_endsUp (h : Running rest s) : EndsUp rest (Running rest) createPool s := by
  refine EndsUp.of_ok (show (modify _ : HwM σ Unit) s = .ok () { s with ctrlReady := true } from rfl) ?_
  have hready : Running rest { s with ctrlReady := true } := ⟨h.held, h.regionsBlock⟩
  refine EndsUp.onError (P := Running rest) ?_ fun s hs => ⟨hs.held, hs.regionsBlock⟩
  cases hmet : s.rc.memory.available with
  | true =>
    refine EndsUp.of_ok (alloc_ok .dmaPool hmet) (Or.inl ⟨_, rfl, rfl, ?_, h.regionsBlock⟩)
    have hmiddle : (List.replicate s.devList.length Resource.pciDev ++ coreBlocks
          ++ Resource.dmaPool :: rest).Perm
        (.dmaPool :: (List.replicate s.devList.length Resource.pciDev ++ coreBlocks ++ rest)) :=
      List.perm_middle
    rw [List.append_assoc, List.append_assoc] at hmiddle
    exact (Ledger.perm_acquire hmet h.held).trans hmiddle.symm
  | false => exact EndsUp.of_error (alloc_error .dmaPool hmet) (running_asked .dmaPool hmet hready)

/-- The scan adds records to what is held; so many, and none if and only if it makes none. -/
theorem scanBuses_endsUp (functions : Forest HwFunction) (h : Running rest s) :
    ∃ records : List Resource,
      (records = [] ↔ RootAnswers functions.roots → s.rc.memory.available = false) ∧
      EndsUp (records ++ rest) (Running (records ++ rest)) (scanBuses functions) s := by
  obtain ⟨records, -, hheld⟩ := relates_enumerate functions ⟨s.rc.pcie, s.rc.memory⟩
  refine ⟨records, ?_, ?_⟩
  · rw [← enumerate_keeps_iff functions ⟨s.rc.pcie, s.rc.memory⟩, hheld, List.append_left_eq_self]
  generalize hfinal : final (enumerate functions) ⟨s.rc.pcie, s.rc.memory⟩ = st at hheld
  -- the records go below what the library gives back
  have hscanned : Running (records ++ rest)
      { s with rc := { s.rc with pcie := st.pcie, memory := st.memory } } := by
    refine ⟨?_, h.regionsBlock⟩
    show st.memory.held.Perm _
    rw [hheld]
    refine (h.held.append_left records).trans ?_
    refine (List.perm_append_comm_assoc _ _ _).trans ?_
    exact (List.perm_append_comm_assoc _ _ _).append_left _
  unfold scanBuses
  cases hscan : enumerate functions ⟨s.rc.pcie, s.rc.memory⟩ with
  | error e st' =>
    rw [final_of_error hscan] at hfinal
    rw [← hfinal] at hscanned
    exact EndsUp.of_error (zoom_of_error hscan) hscanned
  | ok result st' =>
    rw [final_of_ok hscan] at hfinal
    rw [← hfinal] at hscanned
    obtain ⟨root, configured⟩ := result
    refine EndsUp.of_ok (zoom_of_ok hscan) ?_
    have hbuilt := (preserves_pcieBuildDevList (ctrlBuses root configured)) _ hscanned
    generalize ({ s with rc := { s.rc with pcie := st'.pcie, memory := st'.memory } } : HwState σ) = s₁
      at hbuilt
    show EndsUp _ _ (pcieBuildDevList (ctrlBuses root configured) >>= fun _ => createPool) s₁
    cases hlist : pcieBuildDevList (ctrlBuses root configured) s₁ with
    | error e s₂ =>
      rw [final_of_error hlist] at hbuilt
      exact EndsUp.of_error hlist hbuilt
    | ok u s₂ =>
      rw [final_of_ok hlist] at hbuilt
      exact EndsUp.of_ok hlist (createPool_endsUp hbuilt)

/-- From the root bus on. -/
theorem createRootBus_endsUp (functions : Forest HwFunction) (h : CtrlHeld rest s)
    (hlist : s.devList = []) :
    ∃ records : List Resource,
      (records = [] ↔ (s.rc.memory.met 0 = true → RootAnswers functions.roots →
        s.rc.memory.met 1 = false)) ∧
      EndsUp (records ++ rest) (CtrlHeld (records ++ rest)) (createRootBus functions) s := by
  -- without memory for the root bus there is nothing to give back
  cases hmet : s.rc.memory.available with
  | false =>
    rw [Ledger.available_eq_met] at hmet
    refine ⟨[], iff_of_true rfl fun hmet' => absurd hmet' (by rw [hmet]; decide), ?_⟩
    rw [← Ledger.available_eq_met] at hmet
    refine EndsUp.of_error (alloc_error .rootBus hmet) ⟨?_, h.regionsBlock⟩
    show ((s.rc.memory.acquire .rootBus).2.held).Perm _
    rw [Ledger.held_acquire_of_not_available hmet]
    exact h.held
  | true =>
    have hrun : Running rest { s.asked .rootBus with rootBus := true } := by
      refine ⟨?_, h.regionsBlock⟩
      show ((s.rc.memory.acquire .rootBus).2.held).Perm (List.replicate s.devList.length _ ++ _)
      rw [hlist]
      exact Ledger.perm_acquire hmet h.held
    obtain ⟨records, hrecords, hends⟩ := scanBuses_endsUp functions hrun
    refine ⟨records, ?_, ?_⟩
    · rw [hrecords, ← Ledger.available_eq_met, hmet]
      show (_ → (s.rc.memory.acquire .rootBus).2.available = false) ↔ _
      rw [Ledger.available_eq_met, Ledger.met_acquire]
      exact ⟨fun hnone _ => hnone, fun hnone => hnone rfl⟩
    · refine EndsUp.of_ok (alloc_ok .rootBus hmet) (EndsUp.of_ok rfl ?_)
      exact hends.onError fun s hs => ⟨(errDevList_held hs).1, (errDevList_held hs).2⟩

/-! ## The whole -/

/-- A controller that has just been allocated. -/
def newCtrl (rc : RcState σ) : RcState σ :=
  RcState.cleared { rc with memory := (rc.memory.acquire .controller).2 }

/-- A server is added if and only if the interrupt controller takes it. -/
theorem brcmGicAddServer_ok_iff [Gic400 σ] {pcie : PciController σ} {gicIrq : BitVec 32}
    {isr : Option Interrupt} : (brcmGicAddServer pcie gicIrq isr).2 = .ok () ↔
      (Gic400.addIntServerEx pcie.gic400 gicIrq pcieGicPriority pcieGicEdge isr).1 = .ok := by
  unfold brcmGicAddServer
  cases hadd : Gic400.addIntServerEx pcie.gic400 gicIrq pcieGicPriority pcieGicEdge isr with
  | mk r gic =>
    cases r with
    | ok => exact iff_of_true rfl rfl
    | alreadyRegistered => exact iff_of_false (fun h => by cases h) fun h => by cases h
    | failed => exact iff_of_false (fun h => by cases h) fun h => by cases h

/-- Whether the controller comes up depends on the platform, the node and the regions. -/
theorem controllerUp_iff [Gic400 σ] {plat : Platform} {node : PcieNode} {region : PciRegion}
    {regions : List PciRegion} {rc : RcState σ} :
    ControllerUp plat (tableSet plat 0 node region regions (newCtrl rc)) ↔
      ComesUp plat node regions rc := by
  have hgic : (((rc.memory.acquire .controller).2.acquire .regions).2).available = rc.memory.met 2 := by
    rw [Ledger.available_eq_met, Ledger.met_acquire, Ledger.met_acquire]
  constructor
  · rintro ⟨hlink, hwindows, hrevision, hgic400, hadd⟩
    exact ⟨hlink, hwindows, hrevision, hgic.symm.trans hgic400, brcmGicAddServer_ok_iff.1 hadd⟩
  · rintro ⟨hlink, hwindows, hrevision, hgic400, hadd⟩
    exact ⟨hlink, hwindows, hrevision, hgic.trans hgic400, brcmGicAddServer_ok_iff.2 hadd⟩

/-- If bringing the hardware up ends balanced, the whole run does. -/
theorem hwRun_held [Gic400 σ] {plat : Platform} {functions : Forest HwFunction} {rc : RcState σ}
    {l : List Resource}
    (h : EndsUp l (fun s => s.rc.memory.held.Perm l) (bringUp plat functions) { rc := rc }) :
    (hwRun plat functions rc).rc.memory.held.Perm l := by
  unfold hwRun pcieHwInit
  rcases h with ⟨s', hok, hpool, hup⟩ | ⟨e, s', herror, hheld⟩
  · rw [hok]
    exact pcieHwShutdown_held plat hup hpool
  · rw [herror]
    exact hheld

/-- The first phase is left behind with memory for a controller. -/
theorem bringUp_endsUp [Gic400 σ] {plat : Platform} {functions : Forest HwFunction} {rc : RcState σ}
    {l : List Resource} (hmet : rc.memory.met 0 = true)
    (h : EndsUp l (fun s => s.rc.memory.held.Perm (.controller :: l)) (probeController plat functions)
      { rc := newCtrl rc, ctrl := true }) :
    EndsUp l (fun s => s.rc.memory.held.Perm l) (bringUp plat functions) { rc := rc } := by
  rw [← Ledger.available_eq_met] at hmet
  refine EndsUp.of_ok (alloc_ok .controller hmet) (EndsUp.of_ok rfl ?_)
  exact h.onError fun s hs => Ledger.perm_release hs

/-- With an accepted device tree and a controller that comes up, the rest is as for the root bus. -/
theorem probeController_endsUp [Gic400 σ] {plat : Platform} {functions : Forest HwFunction}
    {rc : RcState σ} {node : PcieNode} {region : PciRegion} {regions : List PciRegion}
    (hmet : rc.memory.met 0 = true) (hnode : plat.node = .ok node)
    (haccepted : Accepted plat (newCtrl rc).memory.available region regions)
    (hup : ComesUp plat node regions rc) :
    ∃ records : List Resource,
      (records = [] ↔ (rc.memory.met 3 = true → RootAnswers functions.roots →
        rc.memory.met 4 = false)) ∧
      EndsUp (records ++ rc.memory.held)
        (fun s => s.rc.memory.held.Perm (.controller :: (records ++ rc.memory.held)))
        (probeController plat functions) { rc := newCtrl rc, ctrl := true } := by
  obtain ⟨node', hnode', hprobe⟩ := brcmPcieProbe_of_accepted 0 haccepted
  obtain rfl := Except.ok.inj (hnode.symm.trans hnode')
  obtain ⟨rc', hok, hmemory, hblock⟩ := startController_ok (controllerUp_iff.2 hup)
  rw [← hprobe] at hok
  have havailable : rc.memory.available = true := (Ledger.available_eq_met _).trans hmet
  -- the controller is up, so the memory for the region table and for the demux server was met
  have htable : (newCtrl rc).memory.available = true := by
    obtain ⟨_, _, _, _, hregs⟩ := haccepted
    exact met_of_pciGetDevtreeRegions hregs
  have hgic : ((newCtrl rc).memory.acquire .regions).2.available = true := by
    rw [Ledger.available_eq_met, Ledger.met_acquire]
    exact (Ledger.met_acquire _ _ _).trans hup.gic400
  have hprobed : CtrlHeld rc.memory.held { rc := rc', ctrl := true } := by
    refine ⟨?_, hblock⟩
    show rc'.memory.held.Perm _
    rw [hmemory]
    have hregions := Ledger.perm_acquire htable (r := .regions)
      (List.Perm.of_eq (Ledger.held_acquire_of_available havailable .controller))
    exact (Ledger.perm_acquire hgic hregions).cons .demuxServer
  obtain ⟨records, hrecords, hends⟩ := createRootBus_endsUp functions hprobed rfl
  refine ⟨records, ?_, EndsUp.of_ok (onCtrl_ok hok) ?_⟩
  · rw [hrecords]
    show (rc'.memory.met 0 = true → _ → rc'.memory.met 1 = false) ↔ _
    have hbehind : ∀ k, (tableSet plat 0 node region regions (newCtrl rc)).memory.met k
        = rc.memory.met (k + 2) := fun k =>
      (Ledger.met_acquire _ _ _).trans (Ledger.met_acquire _ _ _)
    rw [hmemory, Ledger.met_hold, Ledger.met_hold, Ledger.met_acquire, Ledger.met_acquire, hbehind,
      hbehind]
  · exact hends.onError fun s hs => removeCtrl_held plat hs.held hs.regionsBlock

/-- What an open and its close leave is what was held before, and more unless the condition holds. -/
theorem hwRun_leaves [Gic400 σ] (plat : Platform) (functions : Forest HwFunction) (rc : RcState σ) :
    ∃ leaked : List Resource, (leaked = [] ↔ HwCond plat functions rc) ∧
      (hwRun plat functions rc).rc.memory.held.Perm (leaked ++ rc.memory.held) := by
  cases hmet : rc.memory.met 0 with
  | false =>
    have havailable : rc.memory.available = false := (Ledger.available_eq_met _).trans hmet
    refine ⟨[], iff_of_true rfl fun node region regions _ hmet' => ?_, hwRun_held ?_⟩
    · rw [hmet] at hmet'
      cases hmet'
    · refine EndsUp.of_error (alloc_error .controller havailable) ?_
      exact List.Perm.of_eq (Ledger.held_acquire_of_not_available havailable _)
  | true =>
    have havailable : rc.memory.available = true := (Ledger.available_eq_met _).trans hmet
    have hnew : (newCtrl rc).memory.held = .controller :: rc.memory.held :=
      Ledger.held_acquire_of_available havailable _
    have hnext : (newCtrl rc).memory.available = rc.memory.met 1 := by
      rw [Ledger.available_eq_met]
      exact Ledger.met_acquire _ _ _
    by_cases haccepted : ∃ region regions, Accepted plat (rc.memory.met 1) region regions
    · obtain ⟨region, regions, haccepted⟩ := haccepted
      obtain ⟨node, hnode, -⟩ := id haccepted
      -- there is but one table
      have honly : ∀ node' region' regions', plat.node = .ok node' →
          Accepted plat (rc.memory.met 1) region' regions' → node' = node ∧ regions' = regions :=
        fun node' region' regions' hnode' h =>
          ⟨Except.ok.inj (hnode'.symm.trans hnode), (h.unique haccepted).2⟩
      by_cases hup : ComesUp plat node regions rc
      · obtain ⟨records, hrecords, hends⟩ :=
          @probeController_endsUp _ _ _ functions _ _ _ _ hmet hnode (hnext ▸ haccepted) hup
        refine ⟨records, hrecords.trans ⟨fun hnone node' region' regions' hnode' _ h => ?_, ?_⟩,
          hwRun_held (bringUp_endsUp hmet hends)⟩
        · obtain ⟨rfl, rfl⟩ := honly node' region' regions' hnode' h
          exact ⟨hup, hnone⟩
        · exact fun hcond => (hcond node region regions hnode hmet haccepted).2
      · -- the region table is left behind
        refine ⟨[.regions], iff_of_false (List.cons_ne_nil _ _) fun hcond =>
          hup (hcond node region regions hnode hmet haccepted).1, hwRun_held (bringUp_endsUp hmet ?_)⟩
        obtain ⟨node', hnode', hprobe⟩ := brcmPcieProbe_of_accepted 0 (s := newCtrl rc)
          (hnext ▸ haccepted)
        obtain rfl := Except.ok.inj (hnode.symm.trans hnode')
        obtain ⟨e, rc', herror, hheld⟩ := startController_error (mt controllerUp_iff.1 hup)
        rw [← hprobe] at herror
        refine EndsUp.of_error (onCtrl_error herror) ?_
        show rc'.memory.held.Perm _
        obtain ⟨_, _, _, _, hregs⟩ := haccepted
        rw [hheld]
        refine List.Perm.trans (List.Perm.of_eq ?_) (List.Perm.swap _ _ _)
        exact (Ledger.held_acquire_of_available (hnext.trans (met_of_pciGetDevtreeRegions hregs)) _).trans
          (congrArg (Resource.regions :: ·) hnew)
    · -- the probe fails up to the region table
      refine ⟨[], iff_of_true rfl fun node region regions _ _ h => ?_, hwRun_held ?_⟩
      · exact absurd ⟨region, regions, h⟩ haccepted
      · refine bringUp_endsUp hmet ?_
        obtain ⟨e, rc', herror, hheld⟩ := @brcmPcieProbe_of_not_accepted _ plat (newCtrl rc) _ 0
          fun region regions h => haccepted ⟨region, regions, hnext ▸ h⟩
        exact EndsUp.of_error (onCtrl_error herror) (List.Perm.of_eq (hheld.trans hnew))

/-- **When everything is given back**: when the region table is not set up, or the controller comes up
behind it and the scan makes no record. -/
theorem hwBalanced_iff [Gic400 σ] (plat : Platform) (functions : Forest HwFunction) (rc : RcState σ) :
    HwBalanced plat functions rc ↔ HwCond plat functions rc := by
  obtain ⟨leaked, hleaked, hheld⟩ := hwRun_leaves plat functions rc
  rw [← hleaked]
  constructor
  · intro hbalanced
    have hlength := (hheld.symm.trans hbalanced).length_eq
    rw [List.length_append] at hlength
    exact List.eq_nil_of_length_eq_zero (by omega)
  · rintro rfl
    exact hheld

end Steps

/-- A link that does not come up. -/
def linkDownPlatform : Platform :=
  { samplePlatform 0 0x40000000 0x08000000 with answers := ⟨fun _ => 0, fun _ => 0x80000000, 0x0304⟩ }

/-- The region table is left behind. -/
theorem hwBalanced_fails :
    ¬ ∀ (plat : Platform) (functions : Forest HwFunction) (rc : RcState GicTable),
      HwBalanced plat functions rc := by
  intro hall
  exact absurd (hall linkDownPlatform .nil sampleRc) (by decide +kernel)

end BcmPcie
