import BcmPcie.Irq.Controller
import BcmPcie.Library.Runs

/-! # The demux, step by step

The demux server and the operations on its slots, one register access, table access or server call at
a time, interleaved with messages that arrive. There is one processor: a task can be interrupted
between any two of its steps, the demux server runs to its end before a task goes on, and a vector
server that the demux calls may mask and unmask vectors before it returns. Binding and unbinding hold
the library's semaphore, so one of them is under way at a time.

* `exec_bind`, `exec_unbind`, `exec_demuxIsr` — uninterrupted, the steps are the functions of
  `pcie_brcmstb_msi.c`.
* `noLostMessage` — a message for a bound slot leads to a call of its server. -/

namespace BcmPcie

open BitSet Runs

variable {σ : Type*}

/-- Where the demux server is. -/
inductive IsrPoint
  | idle
  /-- About to clear the lowest slot of `status`. -/
  | clear (status : BitVec 32)
  /-- `slot` is cleared and its server is called next, `status` is left to do. -/
  | call (slot : ℕ) (status : BitVec 32)
  deriving DecidableEq

/-- Where the task that holds the semaphore is. -/
inductive TaskPoint
  | idle
  /-- The server of `slot` is in the table, what the slot has latched is cleared next. -/
  | bindClr (slot : ℕ)
  /-- What `slot` had latched is cleared, the slot is unmasked next. -/
  | bindOpen (slot : ℕ)
  /-- `slot` is masked, its server leaves the table next. -/
  | unbindServer (slot : ℕ)
  deriving DecidableEq

/-- The slot a task is at work on. -/
def TaskPoint.slot? : TaskPoint → Option ℕ
  | .idle => none
  | .bindClr slot | .bindOpen slot | .unbindServer slot => some slot

/-- A controller, its demux server and the task that changes its slots. -/
structure DemuxState (σ : Type*) where
  pcie : PciController σ
  isr : IsrPoint := .idle
  task : TaskPoint := .idle

/-- The steps. -/
inductive DemuxEvent
  /-- A message arrives and latches its slot. -/
  | arrive (slot : ℕ)
  | isrEnter
  | isrClear
  | isrCall
  | bindServer (slot : ℕ) (isr : Interrupt)
  | bindClr
  | bindOpen
  | unbindMask (slot : ℕ)
  | unbindServer
  | mask (slot : ℕ)
  | unmask (slot : ℕ)
  deriving DecidableEq

/-- A message on the bus sets the status bit of its slot. -/
def Intr2.latch (r : Intr2) (slot : ℕ) : Intr2 := { r with status := r.status ||| bit 32 slot }

/-- The controller with another server in its table. -/
def PciController.setServer (pcie : PciController σ) (slot : ℕ) (isr : Option Interrupt) :
    PciController σ :=
  { pcie with msi := { pcie.msi with servers := Function.update pcie.msi.servers slot isr } }

/-- The controller with other demux registers. -/
def PciController.setIntr2 (pcie : PciController σ) (r : Intr2) : PciController σ :=
  { pcie with intr2 := r }

@[simp] theorem setIntr2_msi (pcie : PciController σ) (r : Intr2) :
    (pcie.setIntr2 r).msi = pcie.msi := rfl

@[simp] theorem setIntr2_intr2 (pcie : PciController σ) (r : Intr2) : (pcie.setIntr2 r).intr2 = r :=
  rfl

/-- Where the demux goes on with `status` left to do: it returns once nothing is. -/
def isrNext (status : BitVec 32) : IsrPoint := if status = 0#32 then .idle else .clear status

/-- One step; a step that cannot be taken where things stand is refused. -/
def demuxStep (s : DemuxState σ) : DemuxEvent → Option (DemuxState σ)
  | .arrive slot =>
    if slot < 32 then some { s with pcie := s.pcie.setIntr2 (s.pcie.intr2.latch slot) } else none
  | .isrEnter =>
    match s.isr with
    | .idle => some { s with isr := isrNext s.pcie.intr2.status }
    | _ => none
  | .isrClear =>
    match s.isr with
    | .clear status =>
      let slot := status.ctz.toNat
      some { s with
        isr := .call slot (status &&& (status - 1#32))
        pcie := s.pcie.setIntr2 (s.pcie.intr2.writeClr (bit 32 slot)) }
    | _ => none
  | .isrCall =>
    match s.isr with
    | .call _ status => some { s with isr := isrNext status }
    | _ => none
  | .bindServer slot isr =>
    -- `pci_irq_add_server` has found the slot of its vector without a server
    if s.isr = .idle ∧ s.task = .idle ∧ slot < 32 ∧ s.pcie.msi.servers slot = none then
      some { s with pcie := s.pcie.setServer slot (some isr), task := .bindClr slot }
    else none
  | .bindClr =>
    match s.isr, s.task with
    | .idle, .bindClr slot =>
      some { s with
        pcie := s.pcie.setIntr2 (s.pcie.intr2.writeClr (bit 32 slot))
        task := .bindOpen slot }
    | _, _ => none
  | .bindOpen =>
    match s.isr, s.task with
    | .idle, .bindOpen slot =>
      some { s with
        pcie := s.pcie.setIntr2 (s.pcie.intr2.writeMaskClr (bit 32 slot))
        task := .idle }
    | _, _ => none
  | .unbindMask slot =>
    if s.isr = .idle ∧ s.task = .idle then
      some { s with
        pcie := s.pcie.setIntr2 (s.pcie.intr2.writeMaskSet (bit 32 slot))
        task := .unbindServer slot }
    else none
  | .unbindServer =>
    match s.isr, s.task with
    | .idle, .unbindServer slot => some { s with pcie := s.pcie.setServer slot none, task := .idle }
    | _, _ => none
  | .mask slot => some { s with pcie := brcmMsiSlotMask s.pcie slot }
  | .unmask slot => some { s with pcie := brcmMsiSlotUnmask s.pcie slot }

/-- What each step can do, and when. -/
inductive DemuxMove (s : DemuxState σ) : DemuxEvent → DemuxState σ → Prop
  | arrive (slot : ℕ) (hslot : slot < 32) :
      DemuxMove s (.arrive slot) { s with pcie := s.pcie.setIntr2 (s.pcie.intr2.latch slot) }
  | isrEnter (hisr : s.isr = .idle) :
      DemuxMove s .isrEnter { s with isr := isrNext s.pcie.intr2.status }
  | isrClear (status : BitVec 32) (hisr : s.isr = .clear status) :
      DemuxMove s .isrClear { s with
        isr := .call status.ctz.toNat (status &&& (status - 1#32))
        pcie := s.pcie.setIntr2 (s.pcie.intr2.writeClr (bit 32 status.ctz.toNat)) }
  | isrCall (slot : ℕ) (status : BitVec 32) (hisr : s.isr = .call slot status) :
      DemuxMove s .isrCall { s with isr := isrNext status }
  | bindServer (slot : ℕ) (isr : Interrupt) (hisr : s.isr = .idle) (htask : s.task = .idle)
      (hslot : slot < 32) (hfree : s.pcie.msi.servers slot = none) :
      DemuxMove s (.bindServer slot isr)
        { s with pcie := s.pcie.setServer slot (some isr), task := .bindClr slot }
  | bindClr (slot : ℕ) (hisr : s.isr = .idle) (htask : s.task = .bindClr slot) :
      DemuxMove s .bindClr { s with
        pcie := s.pcie.setIntr2 (s.pcie.intr2.writeClr (bit 32 slot))
        task := .bindOpen slot }
  | bindOpen (slot : ℕ) (hisr : s.isr = .idle) (htask : s.task = .bindOpen slot) :
      DemuxMove s .bindOpen { s with
        pcie := s.pcie.setIntr2 (s.pcie.intr2.writeMaskClr (bit 32 slot))
        task := .idle }
  | unbindMask (slot : ℕ) (hisr : s.isr = .idle) (htask : s.task = .idle) :
      DemuxMove s (.unbindMask slot) { s with
        pcie := s.pcie.setIntr2 (s.pcie.intr2.writeMaskSet (bit 32 slot))
        task := .unbindServer slot }
  | unbindServer (slot : ℕ) (hisr : s.isr = .idle) (htask : s.task = .unbindServer slot) :
      DemuxMove s .unbindServer { s with pcie := s.pcie.setServer slot none, task := .idle }
  | mask (slot : ℕ) : DemuxMove s (.mask slot) { s with pcie := brcmMsiSlotMask s.pcie slot }
  | unmask (slot : ℕ) : DemuxMove s (.unmask slot) { s with pcie := brcmMsiSlotUnmask s.pcie slot }

/-- A step of the machine is one of the moves. -/
theorem demuxStep_move {s t : DemuxState σ} {e : DemuxEvent} (h : demuxStep s e = some t) :
    DemuxMove s e t := by
  cases e with
  | arrive slot =>
    simp only [demuxStep, Option.ite_none_right_eq_some, Option.some.injEq] at h
    obtain ⟨hslot, rfl⟩ := h
    exact .arrive slot hslot
  | isrEnter =>
    simp only [demuxStep] at h
    split at h
    · rename_i hisr
      exact Option.some.inj h ▸ .isrEnter hisr
    · exact absurd h (by simp)
  | isrClear =>
    simp only [demuxStep] at h
    split at h
    · rename_i status hisr
      exact Option.some.inj h ▸ .isrClear status hisr
    · exact absurd h (by simp)
  | isrCall =>
    simp only [demuxStep] at h
    split at h
    · rename_i slot status hisr
      exact Option.some.inj h ▸ .isrCall slot status hisr
    · exact absurd h (by simp)
  | bindServer slot isr =>
    simp only [demuxStep, Option.ite_none_right_eq_some, Option.some.injEq] at h
    obtain ⟨⟨hisr, htask, hslot, hfree⟩, rfl⟩ := h
    exact .bindServer slot isr hisr htask hslot hfree
  | bindClr =>
    simp only [demuxStep] at h
    split at h
    · rename_i slot hisr htask
      exact Option.some.inj h ▸ .bindClr slot hisr htask
    · exact absurd h (by simp)
  | bindOpen =>
    simp only [demuxStep] at h
    split at h
    · rename_i slot hisr htask
      exact Option.some.inj h ▸ .bindOpen slot hisr htask
    · exact absurd h (by simp)
  | unbindMask slot =>
    simp only [demuxStep, Option.ite_none_right_eq_some, Option.some.injEq] at h
    obtain ⟨⟨hisr, htask⟩, rfl⟩ := h
    exact .unbindMask slot hisr htask
  | unbindServer =>
    simp only [demuxStep] at h
    split at h
    · rename_i slot hisr htask
      exact Option.some.inj h ▸ .unbindServer slot hisr htask
    · exact absurd h (by simp)
  | mask slot => exact Option.some.inj h ▸ .mask slot
  | unmask slot => exact Option.some.inj h ▸ .unmask slot

/-- The server call that a step makes, with its slot. -/
def stepCalls (s : DemuxState σ) : DemuxEvent → List (Interrupt × ℕ)
  | .isrCall =>
    match s.isr with
    | .call slot _ => ((s.pcie.msi.servers slot).map (·, slot)).toList
    | _ => []
  | _ => []

/-- The server calls of a run, in order. -/
def demuxCalls : DemuxState σ → List DemuxEvent → List (Interrupt × ℕ)
  | _, [] => []
  | s, e :: es =>
    stepCalls s e ++
      match demuxStep s e with
      | some t => demuxCalls t es
      | none => []

/-- The calls of a step of a run are among those of the run. -/
theorem mem_demuxCalls {s u : DemuxState σ} {es₁ es₂ : List DemuxEvent} {e : DemuxEvent}
    {c : Interrupt × ℕ} (hrun : exec demuxStep s es₁ = some u) (hc : c ∈ stepCalls u e) :
    c ∈ demuxCalls s (es₁ ++ e :: es₂) := by
  induction es₁ generalizing s with
  | nil =>
    obtain rfl := exec_nil.1 hrun
    exact List.mem_append_left _ hc
  | cons e' es₁ ih =>
    obtain ⟨w, hw, hrest⟩ := exec_cons.1 hrun
    rw [List.cons_append, demuxCalls, hw]
    exact List.mem_append_right _ (ih hrest)

/-! ## Without interruption -/

/-- The three writes of `brcm_msi_slot_bind`. -/
theorem exec_bind (pcie : PciController σ) {slot : ℕ} (isr : Interrupt) (hslot : slot < 32)
    (hfree : pcie.msi.servers slot = none) :
    exec demuxStep ⟨pcie, .idle, .idle⟩ [.bindServer slot isr, .bindClr, .bindOpen]
      = some ⟨brcmMsiSlotBind pcie slot (some isr), .idle, .idle⟩ := by
  simp only [exec, demuxStep, hslot, hfree, and_self, if_true, Option.bind_some]
  rfl

/-- The two writes of `brcm_msi_slot_unbind`. -/
theorem exec_unbind (pcie : PciController σ) (slot : ℕ) :
    exec demuxStep ⟨pcie, .idle, .idle⟩ [.unbindMask slot, .unbindServer]
      = some ⟨brcmMsiSlotUnbind pcie slot, .idle, .idle⟩ := rfl

/-- With no bit set the loop does nothing. -/
theorem brcmMsiDemuxLoop_zero (servers : ℕ → Option Interrupt) (fuel : ℕ) (r : Intr2) :
    brcmMsiDemuxLoop servers fuel 0#32 r = ([], r) := by
  cases fuel <;> rfl

/-- The rounds of the demux over `n` latched slots. -/
def isrRounds : ℕ → List DemuxEvent
  | 0 => []
  | n + 1 => .isrClear :: .isrCall :: isrRounds n

/-- The loop of `brcm_msi_demux_isr`, from a snapshot with something in it. -/
theorem exec_isrRounds (fuel : ℕ) {status : BitVec 32} (hne : status ≠ 0#32)
    (hfuel : (setBits status).length ≤ fuel) (pcie : PciController σ) (task : TaskPoint) :
    exec demuxStep ⟨pcie, .clear status, task⟩ (isrRounds (setBits status).length)
        = some ⟨{ pcie with
            intr2 := (brcmMsiDemuxLoop pcie.msi.servers fuel status pcie.intr2).2 }, .idle, task⟩ ∧
      demuxCalls ⟨pcie, .clear status, task⟩ (isrRounds (setBits status).length)
        = (brcmMsiDemuxLoop pcie.msi.servers fuel status pcie.intr2).1 := by
  induction fuel generalizing status pcie with
  | zero =>
    rw [setBits_eq_cons hne] at hfuel
    exact absurd hfuel (by simp)
  | succ fuel ih =>
    have hlen := length_setBits_and_sub_one hne
    rw [hlen] at hfuel ⊢
    rw [isrRounds, brcmMsiDemuxLoop, if_neg hne]
    simp only [exec, demuxStep, Option.bind_some, demuxCalls, stepCalls, List.nil_append,
      setIntr2_msi]
    generalize hrest : status &&& (status - 1#32) = rest at hfuel ⊢
    by_cases hzero : rest = 0#32
    · subst hzero
      rw [isrNext, if_pos rfl, brcmMsiDemuxLoop_zero, setBits_zero]
      cases pcie.msi.servers status.ctz.toNat <;>
        exact ⟨rfl, rfl⟩
    · rw [isrNext, if_neg hzero]
      have hnext := ih hzero (by omega)
        (pcie.setIntr2 (pcie.intr2.writeClr (bit 32 status.ctz.toNat)))
      cases pcie.msi.servers status.ctz.toNat with
      | none => exact hnext
      | some server => exact ⟨hnext.1, congrArg ((server, status.ctz.toNat) :: ·) hnext.2⟩

/-- **An uninterrupted demux** is `brcm_msi_demux_isr`: the same calls, the same registers. -/
theorem exec_demuxIsr (pcie : PciController σ) (task : TaskPoint) :
    let es := .isrEnter :: isrRounds (setBits pcie.intr2.status).length
    exec demuxStep ⟨pcie, .idle, task⟩ es = some ⟨(brcmMsiDemuxIsr pcie).2, .idle, task⟩ ∧
      demuxCalls ⟨pcie, .idle, task⟩ es = (brcmMsiDemuxIsr pcie).1 := by
  simp only [exec, demuxStep, Option.bind_some, demuxCalls, stepCalls, List.nil_append]
  by_cases hzero : pcie.intr2.status = 0#32
  · rw [isrNext, if_pos hzero, brcmMsiDemuxIsr, hzero, brcmMsiDemuxLoop_zero, setBits_zero]
    exact ⟨rfl, rfl⟩
  · rw [isrNext, if_neg hzero]
    exact exec_isrRounds msiMaxVectors hzero (length_setBits_le _) pcie task

/-! ## No message is lost -/

/-- A message for `slot` is on its way to the slot's server: it is latched, or the demux has taken it
from the status register and calls the server next. -/
def Pending (slot : ℕ) (s : DemuxState σ) : Prop :=
  s.pcie.intr2.status.getLsbD slot = true ∨ ∃ rest, s.isr = .call slot rest

/-- `slot` is bound to `server`, and no task is at work on it. -/
def Bound (slot : ℕ) (server : Interrupt) (s : DemuxState σ) : Prop :=
  s.pcie.msi.servers slot = some server ∧ s.task.slot? ≠ some slot

/-- A clear of another slot leaves a slot latched. -/
theorem latched_writeClr {r : Intr2} {slot k : ℕ} (hslot : slot < 32) (hne : k ≠ slot)
    (h : r.status.getLsbD slot = true) : (r.writeClr (bit 32 k)).status.getLsbD slot = true := by
  rw [Intr2.writeClr, BitVec.getLsbD_and, BitVec.getLsbD_not, getLsbD_bit, h, decide_eq_true hslot,
    decide_eq_false hne]
  rfl

/-- An arrival keeps what is latched. -/
theorem latched_latch {r : Intr2} {slot k : ℕ} (h : r.status.getLsbD slot = true) :
    (r.latch k).status.getLsbD slot = true := by
  rw [Intr2.latch, BitVec.getLsbD_or, h, Bool.true_or]

variable {slot : ℕ} {server : Interrupt} {s t : DemuxState σ} {e : DemuxEvent}

/-- A slot stays bound until a task unbinds it. -/
theorem bound_move (hs : Bound slot server s) (he : e ≠ .unbindMask slot) (hmove : DemuxMove s e t) :
    Bound slot server t := by
  obtain ⟨hserver, htask⟩ := hs
  cases hmove with
  | arrive => exact ⟨hserver, htask⟩
  | isrEnter => exact ⟨hserver, htask⟩
  | isrClear => exact ⟨hserver, htask⟩
  | isrCall => exact ⟨hserver, htask⟩
  | bindServer k isr _ _ _ hfree =>
    -- only a slot without a server is bound
    have hne : slot ≠ k := by
      rintro rfl
      rw [hfree] at hserver
      exact absurd hserver (by simp)
    refine ⟨?_, fun h => hne (Option.some.inj h).symm⟩
    simp only [PciController.setServer, Function.update_of_ne hne]
    exact hserver
  | bindClr k _ hk =>
    rw [hk] at htask
    exact ⟨hserver, htask⟩
  | bindOpen => exact ⟨hserver, by simp [TaskPoint.slot?]⟩
  | unbindMask k => exact ⟨hserver, fun h => he (by rw [Option.some.inj h])⟩
  | unbindServer k _ hk =>
    have hne : slot ≠ k := by
      rintro rfl
      rw [hk] at htask
      exact htask rfl
    refine ⟨?_, by simp [TaskPoint.slot?]⟩
    simp only [PciController.setServer, Function.update_of_ne hne]
    exact hserver
  | mask => exact ⟨hserver, htask⟩
  | unmask => exact ⟨hserver, htask⟩

/-- **Clear before call.** A pending message of a bound slot stays pending until the demux calls the
slot's server: what takes it from the status register is a clear of the demux, and the call is next.
-/
theorem pending_move (hslot : slot < 32) (hs : Bound slot server s) (hp : Pending slot s)
    (hmove : DemuxMove s e t) : (server, slot) ∈ stepCalls s e ∨ Pending slot t := by
  -- away from the call of the slot it is the status bit that is pending
  have hnot : ∀ {st}, s.isr = .idle ∨ s.isr = .clear st → s.pcie.intr2.status.getLsbD slot = true := by
    intro st hisr
    obtain hp | ⟨rest, hrest⟩ := hp
    · exact hp
    · obtain h | h := hisr <;> rw [hrest] at h <;> exact absurd h (by simp)
  cases hmove with
  | arrive k =>
    right
    exact hp.imp latched_latch id
  | isrEnter hisr => exact Or.inr (Or.inl (@hnot 0 (Or.inl hisr)))
  | isrClear status hisr =>
    right
    by_cases hk : status.ctz.toNat = slot
    · exact Or.inr ⟨_, by rw [hk]⟩
    · exact Or.inl (latched_writeClr hslot hk (hnot (Or.inr hisr)))
  | isrCall k status hisr =>
    obtain hp | ⟨rest, hrest⟩ := hp
    · exact Or.inr (Or.inl hp)
    · left
      simp only [stepCalls, hrest, hs.1, Option.map_some, Option.toList_some, List.mem_singleton]
  | bindServer => exact Or.inr hp
  -- the bind of this slot is complete, so the one that clears now is for another
  | bindClr k hisr htask =>
    have hk : k ≠ slot := by
      rintro rfl
      have hoff := hs.2
      rw [htask] at hoff
      exact hoff rfl
    exact Or.inr (Or.inl (latched_writeClr hslot hk (@hnot 0 (Or.inl hisr))))
  | bindOpen => exact Or.inr hp
  | unbindMask => exact Or.inr hp
  | unbindServer => exact Or.inr hp
  | mask => exact Or.inr hp
  | unmask => exact Or.inr hp

/-- **No message is lost.** In every run, a message that arrives for a slot whose bind is complete and
which is not unbound afterwards is followed by a call of the slot's server, or is still pending: its
status bit is set, or the demux has just cleared the bit and its next step is the call. -/
theorem noLostMessage (hbound : Bound slot server s) {es : List DemuxEvent}
    (hrun : exec demuxStep s (.arrive slot :: es) = some t) (hstays : .unbindMask slot ∉ es) :
    (server, slot) ∈ demuxCalls s (.arrive slot :: es) ∨ t.pcie.intr2.status.getLsbD slot = true ∨
      ∃ rest, t.isr = .call slot rest ∧ t.pcie.msi.servers slot = some server := by
  obtain ⟨u, hu, hrest⟩ := exec_cons.1 hrun
  obtain ⟨hslot, hlatched⟩ : slot < 32 ∧ u.pcie.intr2.status.getLsbD slot = true := by
    cases demuxStep_move hu with
    | arrive _ hslot =>
      refine ⟨hslot, ?_⟩
      show (s.pcie.intr2.latch slot).status.getLsbD slot = true
      rw [Intr2.latch, BitVec.getLsbD_or, getLsbD_bit, decide_eq_true hslot, decide_eq_true rfl]
      simp
  have hbound' : Bound slot server u := bound_move hbound (by simp) (demuxStep_move hu)
  have huntil := exec_until (P := fun s => Bound slot server s ∧ Pending slot s)
    (A := fun e => e ≠ .unbindMask slot) (X := fun s e => (server, slot) ∈ stepCalls s e)
    (fun s e t he hstep hs => ?_) hrest (fun e he h => hstays (h ▸ he)) ⟨hbound', Or.inl hlatched⟩
  · obtain ⟨es₁, e, es₂, w, rfl, hw, hcall⟩ | ⟨hserver, hpending⟩ := huntil
    · left
      rw [demuxCalls, hu]
      exact List.mem_append_right _ (mem_demuxCalls hw hcall)
    · right
      exact hpending.imp id fun ⟨rest, hisr⟩ => ⟨rest, hisr, hserver.1⟩
  · have hmove := demuxStep_move hstep
    exact (pending_move hslot hs.1 hs.2 hmove).imp id fun hp => ⟨bound_move hs.1 he hmove, hp⟩

/-! ## A small demux -/

/-- A controller after probe: nothing bound, nothing latched, every slot masked. -/
def sampleDemux : DemuxState Unit where
  pcie :=
    { msi := ⟨brcmMsiTargetAddrLt4gb, fun _ => none, 0⟩
      intr2 := ⟨0, BitVec.allOnes 32⟩
      gic400 := () }

/-- The same with slots 3 and 5 bound. -/
def sampleBound : DemuxState Unit where
  pcie := brcmMsiSlotBind (brcmMsiSlotBind sampleDemux.pcie 3 (some ⟨0x1000⟩)) 5 (some ⟨0x2000⟩)

/-- A message for slot 3 that arrives just before its driver masks it: the demux that slot 5 triggers
calls its server. -/
theorem noLostMessage_sample :
    let es := [.mask 3, .arrive 5, .isrEnter, .isrClear, .isrCall, .isrClear, .isrCall]
    ∃ t, exec demuxStep sampleBound (.arrive 3 :: es) = some t ∧
      ((⟨0x1000⟩, 3) ∈ demuxCalls sampleBound (.arrive 3 :: es) ∨
        t.pcie.intr2.status.getLsbD 3 = true ∨
        ∃ rest, t.isr = .call 3 rest ∧ t.pcie.msi.servers 3 = some ⟨0x1000⟩) := by
  intro es
  have hsome : (exec demuxStep sampleBound (.arrive 3 :: es)).isSome = true := by decide +kernel
  obtain ⟨t, ht⟩ := Option.isSome_iff_exists.1 hsome
  exact ⟨t, ht, noLostMessage ⟨by decide +kernel, by decide +kernel⟩ ht (by decide)⟩

end BcmPcie
