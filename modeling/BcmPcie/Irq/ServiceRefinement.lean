import BcmPcie.Irq.Routing
import BcmPcie.Irq.ServiceView

/-! # The interrupt layer is the service

The calls of the library, the messages of its devices and runs of the demux server, as a system. What is
seen of it could be seen of the service.

* `irqSystem` — the interrupt layer as a system.
* `answers_libStep`, `service_arrive`, `service_demuxed` — what each of its steps makes of the service.
* `service_refines` — every path of the interrupt layer is one of the service, and a vector that is due
  can interrupt. -/

namespace BcmPcie

open BitSet Simulations

variable {ι σ : Type*}

/-! ## The interrupt layer as a system -/

/-- A write of a device reaches the root complex. -/
def IrqState.arrive (s : IrqState ι σ) (w : MsiWrite) : IrqState ι σ :=
  match doorbellSlot s.pcie w with
  | some slot => { s with pcie := s.pcie.setIntr2 (s.pcie.intr2.latch slot) }
  | none => s

/-- The demux has its line to the GIC asserted: a slot that is not masked has latched a message. -/
def IrqState.Asserted (s : IrqState ι σ) : Prop := s.pcie.intr2.status &&& ~~~s.pcie.intr2.mask ≠ 0#32

instance (s : IrqState ι σ) : Decidable s.Asserted := inferInstanceAs (Decidable (_ ≠ _))

/-- The demux server runs, from its line to the GIC. -/
def IrqState.demuxed (s : IrqState ι σ) : IrqState ι σ :=
  { s with pcie := (brcmMsiDemuxIsr s.pcie).2 }

section System

variable [DecidableEq ι] [Gic400 σ]

/-- What a library call answers. -/
def libAnswer (s : IrqState ι σ) : LibCall ι → Answer
  | .vector (.allocIntVectors dev min max flags) => .code (libAllocIntVectors s dev min max flags).2
  | .vector (.freeIntVectors _) => .done
  | .vector (.addIntVectorServer dev vec isr) => .code (libAddIntVectorServer s dev vec isr).2
  | .vector (.remIntVectorServer _ _ _) => .done
  | .vector (.maskIntVector dev vec) => .flag (libMaskIntVector s dev vec).2
  | .vector (.unmaskIntVector dev vec) => .flag (libUnmaskIntVector s dev vec).2
  | .addIntServer isr dev => .flag (libAddIntServer s isr dev).2
  | .remIntServer _ _ => .done
  | .enableMSI dev => .code (libEnableMSI s dev).2
  | .disableMSI _ => .done
  | .maskMSI dev => .flag (libMaskIntVector s dev 0).2
  | .unmaskMSI dev => .flag (libUnmaskIntVector s dev 0).2
  | .checkSetINTxMask dev mask => .flag (libCheckSetINTxMask s dev mask).2

/-- The interrupt layer: the calls of the library, messages of its devices for vectors they have, and
the demux server. -/
def irqSystem : System (IrqState ι σ) (ServiceLabel ι)
  | s, .call c answer, s' => answer = libAnswer s c ∧ s' = libStep s c
  | s, .message i v, s' => UsesSlots (s.devs i).active.mode ∧ v < (s.devs i).active.nvec ∧
      s' = s.arrive (deviceWrite (s.devs i) v)
  | s, .interrupt calls, s' => s.Asserted ∧
      calls = (brcmMsiDemuxIsr s.pcie).1.map (·.1) ∧ s' = s.demuxed

end System

/-! ## Messages and interrupts -/

section Demux

variable {s : IrqState ι σ}

/-- What a message for a vector makes of the service. -/
theorem service_arrive [DecidableEq ι] (hled : s.SlotsOwned) {i : ι} {v j : ℕ} {w : MsiWrite}
    (hown : (s.devs i).active.Owns v j) (hbell : doorbellSlot s.pcie w = some j) :
    (s.arrive w).service = Function.update s.service i ((s.service i).signal v) := by
  have harrive : s.arrive w = s.put i (s.pcie.setIntr2 (s.pcie.intr2.latch j)) (s.devs i) := by
    unfold IrqState.arrive IrqState.put
    rw [hbell, Function.update_eq_self]
  rw [harrive, service_put_slot hled hown (fun k hk => slotKept_latch hk) rfl,
    attachmentOf_latch hown (hled.lt i v j hown)]
  rfl

/-- The demux clears the slots of its snapshot, and moves no mask. -/
theorem brcmMsiDemuxLoop_intr2 (servers : ℕ → Option Interrupt) (fuel : ℕ) (status : BitVec 32)
    (r : Intr2) (h : (setBits status).length ≤ fuel) :
    (brcmMsiDemuxLoop servers fuel status r).2.mask = r.mask ∧
      ∀ j, (brcmMsiDemuxLoop servers fuel status r).2.status.getLsbD j
        = (r.status.getLsbD j && !status.getLsbD j) := by
  -- on the rounds, each of which clears the lowest slot that is left
  induction fuel generalizing status r with
  | zero =>
    refine ⟨rfl, fun j => ?_⟩
    have hnot : status.getLsbD j = false := by
      rw [← Bool.not_eq_true, ← mem_setBits, List.length_eq_zero_iff.1 (Nat.le_zero.1 h)]
      exact List.not_mem_nil
    rw [hnot]
    exact (Bool.and_true _).symm
  | succ fuel ih =>
    rw [brcmMsiDemuxLoop]
    split
    · rename_i hzero
      refine ⟨rfl, fun j => ?_⟩
      rw [hzero, BitVec.getLsbD_zero]
      exact (Bool.and_true _).symm
    · rename_i hne
      obtain ⟨hmask, hstatus⟩ := ih (status &&& (status - 1#32)) (r.writeClr (bit 32 status.ctz.toNat))
        (by rw [length_setBits_and_sub_one hne] at h; omega)
      have hboth : (brcmMsiDemuxLoop servers fuel (status &&& (status - 1#32))
            (r.writeClr (bit 32 status.ctz.toNat))).2.mask = r.mask ∧
          ∀ j, (brcmMsiDemuxLoop servers fuel (status &&& (status - 1#32))
              (r.writeClr (bit 32 status.ctz.toNat))).2.status.getLsbD j
            = (r.status.getLsbD j && !status.getLsbD j) := by
        refine ⟨hmask, fun j => ?_⟩
        rw [hstatus j, getLsbD_and_sub_one hne]
        by_cases hj : j = status.ctz.toNat
        · have hset := BitVec.getLsbD_true_ctz_of_ne_zero hne
          rw [hj, Intr2.writeClr, getLsbD_clr_self, hset]
          simp
        · rw [Intr2.writeClr, getLsbD_clr hj, decide_eq_true hj, Bool.and_true]
      dsimp only
      cases servers status.ctz.toNat <;> exact hboth

/-- After a run of the demux nothing is latched. -/
theorem brcmMsiDemuxIsr_intr2 (pcie : PciController σ) :
    (brcmMsiDemuxIsr pcie).2 = pcie.setIntr2 ⟨0#32, pcie.intr2.mask⟩ := by
  obtain ⟨hmask, hstatus⟩ := brcmMsiDemuxLoop_intr2 pcie.msi.servers msiMaxVectors pcie.intr2.status
    pcie.intr2 (length_setBits_le _)
  have hzero : (brcmMsiDemuxLoop pcie.msi.servers msiMaxVectors pcie.intr2.status
      pcie.intr2).2.status = 0#32 := by
    refine BitVec.eq_of_getLsbD_eq fun j _ => ?_
    rw [hstatus j, BitVec.getLsbD_zero]
    cases pcie.intr2.status.getLsbD j <;> rfl
  unfold brcmMsiDemuxIsr PciController.setIntr2
  dsimp only
  rw [← hzero, ← hmask]

/-- What a run of the demux makes of the service. -/
theorem service_demuxed : s.demuxed.service = fun i => (s.service i).served := by
  funext i
  refine Client.ext rfl rfl (funext fun v => ?_)
  show attachmentOf (brcmMsiDemuxIsr s.pcie).2 (s.allocs i) v
    = (attachmentOf s.pcie (s.allocs i) v).map fun a => { a with pending := false }
  rw [brcmMsiDemuxIsr_intr2]
  unfold attachmentOf
  split
  · split
    · rw [Option.map_map]
      refine congrArg (fun f => (s.pcie.msi.servers _).map f) (funext fun server => ?_)
      show Attachment.mk server ((0#32).getLsbD _) _ = ⟨server, false, _⟩
      rw [BitVec.getLsbD_zero]
      rfl
    · rw [Option.map_map]
      rfl
  · rfl

/-- A vector is due if its slot has latched a message. -/
theorem due_service_iff {q : ι × ℕ} {server : Interrupt} : s.service.Due q server ↔
    ∃ j ∈ setBits s.pcie.intr2.status, (s.allocs q.1).Owns q.2 j ∧
      s.pcie.msi.servers j = some server := by
  show (∃ a, attachmentOf s.pcie (s.allocs q.1) q.2 = some a ∧ a.server = server ∧ a.pending = true) ↔ _
  constructor
  · rintro ⟨a, ha, rfl, hpending⟩
    unfold attachmentOf at ha
    split at ha
    · rename_i hv
      split at ha
      · rename_i huses
        obtain ⟨server, hserver, rfl⟩ := Option.map_eq_some_iff.1 ha
        exact ⟨_, mem_setBits.2 hpending, ⟨huses, hv, rfl⟩, hserver⟩
      · obtain ⟨server, -, rfl⟩ := Option.map_eq_some_iff.1 ha
        cases hpending
    · cases ha
  · rintro ⟨j, hj, hown, hserver⟩
    rw [attachmentOf_of_owns hown, hserver]
    exact ⟨_, rfl, rfl, mem_setBits.1 hj⟩

/-- The calls of the demux for some slots, with the vectors that they are for. -/
theorem exists_due (hled : s.SlotsOwned) {slots : List ℕ} (hslots : slots.Nodup) :
    ∃ due : List ((ι × ℕ) × Interrupt), (due.map (·.1)).Nodup ∧
      (∀ q server, (q, server) ∈ due ↔
        ∃ j ∈ slots, (s.allocs q.1).Owns q.2 j ∧ s.pcie.msi.servers j = some server) ∧
      (slotCalls s.pcie.msi.servers slots).map (·.1) = due.map (·.2) := by
  induction slots with
  | nil => exact ⟨[], List.nodup_nil, by simp, rfl⟩
  | cons j slots ih =>
    obtain ⟨hnew, hrest⟩ := List.nodup_cons.1 hslots
    obtain ⟨due, hnodup, hmem, hcalls⟩ := ih hrest
    cases hserver : s.pcie.msi.servers j with
    | none =>
      -- the demux passes over a slot without a server
      refine ⟨due, hnodup, fun q server => ?_, ?_⟩
      · rw [hmem]
        simp only [List.mem_cons, exists_eq_or_imp]
        rw [or_iff_right]
        rintro ⟨-, hsome⟩
        rw [hserver] at hsome
        cases hsome
      · rw [← hcalls, slotCalls, List.filterMap_cons_none (by rw [hserver]; rfl)]
        rfl
    | some server =>
      obtain ⟨i, v, hown⟩ := hled.servers j (by rw [hserver]; exact Option.some_ne_none _)
      refine ⟨((i, v), server) :: due, List.nodup_cons.2 ⟨fun hin => ?_, hnodup⟩,
        fun q server' => ?_, ?_⟩
      · obtain ⟨⟨q, server'⟩, hq, rfl⟩ := List.mem_map.1 hin
        obtain ⟨j', hj', hown', -⟩ := (hmem _ _).1 hq
        have hsame : j' = j := hown'.2.2.symm.trans hown.2.2
        exact hnew (hsame ▸ hj')
      · rw [List.mem_cons, hmem]
        simp only [List.mem_cons, exists_eq_or_imp]
        refine or_congr_left ⟨fun heq => ?_, ?_⟩
        · obtain ⟨rfl, rfl⟩ := Prod.mk.inj heq
          exact ⟨hown, hserver⟩
        · rintro ⟨hown', hserver'⟩
          obtain ⟨hi, hv⟩ := hled.unique q.1 q.2 i v j hown' hown
          rw [hserver] at hserver'
          exact Prod.ext (Prod.ext hi hv) (Option.some.inj hserver').symm
      · rw [slotCalls, List.filterMap_cons_some (by rw [hserver]; rfl), List.map_cons, List.map_cons,
          ← hcalls]
        rfl

/-- A vector that is due and not held back asserts the line of the demux. -/
theorem asserted_of_due (hled : s.SlotsOwned) {i : ι} {v : ℕ} {a : Attachment}
    (ha : (s.service i).vecs v = some a) (hpending : a.pending = true) (hheld : a.held = false) :
    s.Asserted := by
  have ha : attachmentOf s.pcie (s.allocs i) v = some a := ha
  obtain ⟨j, hj, hown, hserver⟩ := (@due_service_iff _ _ s (i, v) a.server).1 ⟨a, ha, rfl, hpending⟩
  rw [attachmentOf_of_owns hown, hserver] at ha
  have hmask : s.pcie.intr2.mask.getLsbD j = a.held := congrArg Attachment.held (Option.some.inj ha)
  intro hzero
  have hbit := congrArg (fun x => x.getLsbD j) hzero
  have hlt := hled.lt i v j hown
  simp only [BitVec.getLsbD_and, BitVec.getLsbD_not, BitVec.getLsbD_zero, mem_setBits.1 hj, hmask,
    hheld, decide_eq_true hlt] at hbit
  cases hbit

end Demux

/-! ## The calls of the library -/

section Library

variable [DecidableEq ι] [Gic400 σ] {s : IrqState ι σ}

omit [Gic400 σ] in
/-- The runtime mask of a device that is named. -/
theorem holds_libMaskIntVector (hled : s.SlotsOwned) (i : ι) (v : ℕ) :
    s.service.Holds i v true (libMaskIntVector s (some i) v).2 (libMaskIntVector s (some i) v).1.service :=
  (pciIrqVecMask_outcome s.pcie (s.devs i) v).service hled i

omit [Gic400 σ] in
/-- Unmasking a vector lets its messages go in the service. -/
theorem holds_libUnmaskIntVector (hled : s.SlotsOwned) (i : ι) (v : ℕ) :
    s.service.Holds i v false (libUnmaskIntVector s (some i) v).2
      (libUnmaskIntVector s (some i) v).1.service :=
  (pciIrqVecUnmask_outcome s.pcie (s.devs i) v).service hled i

/-- What the typed calls make of the service. -/
theorem answers_vectorStep (hled : s.SlotsOwned) (c : VectorCall ι) :
    s.service.Answers (.vector c) (libAnswer s (.vector c)) (vectorStep s c).service := by
  have hinval : pcieErrInval < 0 := by decide
  cases c with
  | allocIntVectors dev min max flags =>
    obtain _ | i := dev
    · exact ⟨hinval, rfl⟩
    · obtain ⟨herror, hok⟩ :=
        (pciIrqVectorsAlloc_outcome s.pcie (s.devs i) min max flags).service hled i
      show (libAllocIntVectors s (some i) min max flags).2 < 0 ∧ _ ∨ _
      cases hresult : (pciIrqVectorsAlloc s.pcie (s.devs i) min max flags).2.2 with
      | error e =>
        have hr : (libAllocIntVectors s (some i) min max flags).2 = pcieErr e := by
          unfold libAllocIntVectors
          dsimp only
          rw [hresult]
        rw [hr]
        exact Or.inl ⟨pcieErr_neg e, herror e hresult⟩
      | ok n =>
        have hr : (libAllocIntVectors s (some i) min max flags).2 = n := by
          unfold libAllocIntVectors
          dsimp only
          rw [hresult]
        rw [hr]
        exact Or.inr ⟨n, rfl, hok n hresult⟩
  | freeIntVectors dev =>
    obtain _ | i := dev
    · exact rfl
    · exact service_irqStep_free hled i
  | addIntVectorServer dev v isr =>
    obtain _ | i := dev
    · exact ⟨hinval, rfl⟩
    · obtain _ | server := isr
      · exact ⟨hinval, rfl⟩
      · obtain ⟨herror, hok⟩ :=
          (pciIrqAddServer_outcome s.pcie (s.devs i) v (some server)).service hled i
        show (libAddIntVectorServer s (some i) v (some server)).2 < 0 ∧ _ ∨ _
        cases hresult : (pciIrqAddServer s.pcie (s.devs i) v (some server)).2.2 with
        | error e =>
          have hr : (libAddIntVectorServer s (some i) v (some server)).2 = pcieErr e := by
            unfold libAddIntVectorServer
            dsimp only
            rw [hresult]
          rw [hr]
          exact Or.inl ⟨pcieErr_neg e, herror e hresult⟩
        | ok u =>
          have hr : (libAddIntVectorServer s (some i) v (some server)).2 = pcieOk := by
            unfold libAddIntVectorServer
            dsimp only
            rw [hresult]
          rw [hr]
          exact Or.inr ⟨rfl, hok hresult⟩
  | remIntVectorServer dev v isr =>
    obtain _ | i := dev
    · exact rfl
    · obtain _ | server := isr
      · exact rfl
      · exact service_irqStep_rem hled i v server
  | maskIntVector dev v =>
    obtain _ | i := dev
    · exact ⟨rfl, rfl⟩
    · exact holds_libMaskIntVector hled i v
  | unmaskIntVector dev v =>
    obtain _ | i := dev
    · exact ⟨rfl, rfl⟩
    · exact holds_libUnmaskIntVector hled i v

/-- What the obsolete registration makes of the service: nothing, or a vector and its server at once. -/
theorem answers_libAddIntServer (hled : s.SlotsOwned) (server : Interrupt) (i : ι) :
    (libAddIntServer s (some server) (some i)).2 = false ∧
        (libAddIntServer s (some server) (some i)).1.service = s.service ∨
      (libAddIntServer s (some server) (some i)).2 = true ∧ (s.service i).nvec = 0 ∧
        ∃ messages, (libAddIntServer s (some server) (some i)).1.service
          = Function.update s.service i ((Client.fresh 1 messages).attach 0 server) := by
  rw [libAddIntServer_eq]
  dsimp only
  generalize (if (s.devs i).intx.preferMsi then pciIrqMsi ||| pciIrqIntx else pciIrqIntx) = flags
  have hout := pciIrqVectorsAlloc_outcome s.pcie (s.devs i) 1 1 flags
  obtain ⟨herror, hok⟩ := hout.service hled i
  have hled₁ := slotsOwned_irqStep hled (.vectorsAlloc i 1 1 flags)
  have hs₁ : irqStep s (.vectorsAlloc i 1 1 flags)
      = s.put i (pciIrqVectorsAlloc s.pcie (s.devs i) 1 1 flags).1
        (pciIrqVectorsAlloc s.pcie (s.devs i) 1 1 flags).2.1 := rfl
  rw [← hs₁] at herror hok
  generalize irqStep s (.vectorsAlloc i 1 1 flags) = s₁ at herror hok hled₁ ⊢
  cases hresult : (pciIrqVectorsAlloc s.pcie (s.devs i) 1 1 flags).2.2 with
  | error e => exact Or.inl ⟨rfl, herror e hresult⟩
  | ok n =>
    obtain ⟨hzero, hpos, -, hmax, hgrant⟩ := hok n hresult
    obtain rfl : n = 1 := by omega
    obtain ⟨messages, hservice⟩ : ∃ messages,
        s₁.service = Function.update s.service i (.fresh 1 messages) := by
      rcases hgrant with ⟨-, hgrant⟩ | ⟨-, hgrant⟩
      · exact ⟨true, hgrant⟩
      · exact ⟨false, hgrant⟩
    obtain ⟨hadderror, haddok⟩ :=
      (pciIrqAddServer_outcome s₁.pcie (s₁.devs i) 0 (some server)).service hled₁ i
    have hled₂ := slotsOwned_irqStep hled₁ (.addServer i 0 (some server))
    have hs₂ : irqStep s₁ (.addServer i 0 (some server))
        = s₁.put i (pciIrqAddServer s₁.pcie (s₁.devs i) 0 (some server)).1
          (pciIrqAddServer s₁.pcie (s₁.devs i) 0 (some server)).2.1 := rfl
    rw [← hs₂] at hadderror haddok
    cases hadd : (pciIrqAddServer s₁.pcie (s₁.devs i) 0 (some server)).2.2 with
    | error e =>
      -- the vector is freed again, and the device was idle before
      have hidle : s.service i = .idle := clientOf_idle (hled.shape i) (hout.idle_of_ok hresult)
      refine Or.inl ⟨rfl, (service_irqStep_free hled₂ i).trans ?_⟩
      rw [hadderror e hadd, hservice, Function.update_idem, ← hidle, Function.update_eq_self]
    | ok u =>
      obtain ⟨-, -, hattached⟩ := haddok hadd
      refine Or.inr ⟨rfl, hzero, messages, hattached.trans ?_⟩
      rw [hservice, Function.update_self, Function.update_idem]

/-- **What the library calls make of the service.** -/
theorem answers_libStep (hled : s.SlotsOwned) (c : LibCall ι) :
    s.service.Answers c (libAnswer s c) (libStep s c).service := by
  cases c with
  | vector c => exact answers_vectorStep hled c
  | addIntServer isr dev =>
    obtain _ | server := isr
    · exact ⟨rfl, rfl⟩
    · obtain _ | i := dev
      · exact ⟨rfl, rfl⟩
      · exact answers_libAddIntServer hled server i
  | remIntServer isr dev =>
    obtain _ | server := isr
    · exact rfl
    · obtain _ | i := dev
      · exact rfl
      · have hfree := service_irqStep_free
          (slotsOwned_irqStep hled (.remServer i 0 (some server))) i
        rw [service_irqStep_rem hled, Function.update_idem] at hfree
        exact hfree
  | enableMSI dev =>
    obtain _ | i := dev
    · exact ⟨(by decide : pcieErrInval ≤ 0), rfl⟩
    · show (libEnableMSI s (some i)).2 ≤ 0 ∧ (libEnableMSI s (some i)).1.service = s.service
      unfold libEnableMSI
      dsimp only
      split
      · exact ⟨(by decide : pcieErrNodev ≤ 0), rfl⟩
      · exact ⟨le_rfl, service_put_same (fun j => SlotKept.refl s.pcie j) rfl⟩
  | disableMSI dev =>
    obtain _ | i := dev
    · exact rfl
    · exact service_put_same (fun j => SlotKept.refl s.pcie j) rfl
  | maskMSI dev =>
    obtain _ | i := dev
    · exact ⟨rfl, rfl⟩
    · exact holds_libMaskIntVector hled i 0
  | unmaskMSI dev =>
    obtain _ | i := dev
    · exact ⟨rfl, rfl⟩
    · exact holds_libUnmaskIntVector hled i 0
  | checkSetINTxMask dev mask =>
    obtain _ | i := dev
    · exact ⟨rfl, rfl⟩
    · exact ⟨rfl, service_put_same (fun j => SlotKept.refl s.pcie j) (pciIntx_active _ _)⟩

end Library

/-! ## Refinement -/

section Refinement

/-- At probe no function has a route, so all of them hold. -/
theorem Probed.routed {s : IrqState ι σ} (h : Probed s)
    (hw : ∀ i, (s.devs i).msi.capOffset ≠ 0 → MsiMsgWritable (s.devs i)) : Routed s := by
  refine ⟨h.slotsOwned, h.targetAddr, fun i => (h.devs i).decoded.2.1, hw, fun i => ?_⟩
  refine DeviceRoute.of_not_usesSlots ?_
  rw [(h.devs i).decoded.1]
  decide

/-- The demux registers are none of the routes. -/
theorem Routed.setIntr2 {s : IrqState ι σ} (h : Routed s) (r : Intr2) :
    Routed { s with pcie := s.pcie.setIntr2 r } :=
  ⟨h.ledger, h.targetAddr, h.decoded, h.writable, fun i =>
    (h.route i).congr rfl rfl rfl fun _ _ _ => rfl⟩

variable [DecidableEq ι] [Gic400 σ] {s : IrqState ι σ}

/-- **One step** of the interrupt layer is one of the service. -/
theorem service_step {s s' : IrqState ι σ} {l : ServiceLabel ι} (h : Routed s)
    (hstep : irqSystem s l s') : Routed s' ∧ Service.Step s.service l s'.service := by
  cases l with
  | call c answer =>
    obtain ⟨rfl, rfl⟩ := hstep
    exact ⟨routed_libStep s c h, answers_libStep h.ledger c⟩
  | message i v =>
    obtain ⟨huses, hv, rfl⟩ := hstep
    have hown : (s.devs i).active.Owns v ((s.devs i).active.slots v) := ⟨huses, hv, rfl⟩
    have hbell : doorbellSlot s.pcie (deviceWrite (s.devs i) v)
        = some ((s.devs i).active.slots v) := by
      rw [(h.route i).write huses v hv]
      exact doorbellSlot_composeMsg s.pcie (h.ledger.lt i v _ hown)
    refine ⟨?_, hv, decide_eq_true huses, service_arrive h.ledger hown hbell⟩
    unfold IrqState.arrive
    rw [hbell]
    exact h.setIntr2 _
  | interrupt calls =>
    obtain ⟨-, rfl, rfl⟩ := hstep
    obtain ⟨due, hnodup, hmem, hcalls⟩ :=
      exists_due h.ledger (setBits_sorted s.pcie.intr2.status).nodup
    refine ⟨?_, due, hnodup, fun q server => (hmem q server).trans due_service_iff.symm, ?_,
      service_demuxed⟩
    · unfold IrqState.demuxed
      rw [brcmMsiDemuxIsr_intr2]
      exact h.setIntr2 _
    · rw [brcmMsiDemuxIsr_calls, hcalls]

/-- **The interrupt layer is the service.** From probe, on functions that implement the registers of
their MSI message, whatever calls the library is given, messages the devices send and interrupts there
are, what is seen could be seen of the service: a failed call does nothing, no call of one device is
seen by another, and an interrupt calls the servers of just those vectors that messages wait for, each
once. A vector that is due and not held back can interrupt. -/
theorem service_refines (h : Probed s)
    (hw : ∀ i, (s.devs i).msi.capOffset ≠ 0 → MsiMsgWritable (s.devs i))
    {ls : List (ServiceLabel ι)} {t : IrqState ι σ} (hpath : Path irqSystem s ls t) :
    Path Service.Step (fun _ => Client.idle) ls t.service ∧
      ∀ i v a, (t.service i).vecs v = some a → a.pending = true → a.held = false →
        ∃ calls t', irqSystem t (.interrupt calls) t' ∧ a.server ∈ calls := by
  have hidle : s.service = fun _ => Client.idle := by
    funext i
    exact clientOf_idle (h.slotsOwned.shape i) (congrArg IrqAlloc.mode (h.devs i).decoded.1)
  obtain ⟨S, hspec, ht, rfl⟩ := Simulation.path
    (Simulation.of_abstraction fun _ _ _ hs hstep => service_step hs hstep) hpath ⟨h.routed hw, rfl⟩
  rw [hidle] at hspec
  refine ⟨hspec, fun i v a ha hpending hheld => ?_⟩
  have hinterrupt : irqSystem t (.interrupt ((brcmMsiDemuxIsr t.pcie).1.map (·.1))) t.demuxed :=
    ⟨asserted_of_due ht.ledger ha hpending hheld, rfl, rfl⟩
  obtain ⟨-, due, -, hmem, hcalls, -⟩ := service_step ht hinterrupt
  refine ⟨_, _, hinterrupt, ?_⟩
  rw [hcalls]
  exact List.mem_map_of_mem (f := Prod.snd) ((hmem (i, v) a.server).2 ⟨a, ha, rfl, hpending⟩)

/-- What is seen of a block of four vectors, a server on the third, a message for it, and the interrupt
that calls the server. -/
def sampleLabels : List (ServiceLabel Bool) :=
  [.call (.vector (.allocIntVectors (some true) 4 4 pciIrqMsi)) (.code 4),
    .call (.vector (.addIntVectorServer (some true) 2 (some ⟨0x1000⟩))) (.code 0),
    .message true 2, .interrupt [⟨0x1000⟩]]

/-- A run of the sample machine, and that of the service. -/
theorem service_refines_sample : ∃ t : IrqState Bool GicTable,
    Path irqSystem sampleState sampleLabels t ∧
      Path Service.Step (fun _ => Client.idle) sampleLabels t.service ∧
        ∀ i v a, (t.service i).vecs v = some a → a.pending = true → a.held = false →
          ∃ calls t', irqSystem t (.interrupt calls) t' ∧ a.server ∈ calls := by
  have hpath : ∃ t : IrqState Bool GicTable, Path irqSystem sampleState sampleLabels t :=
    ⟨_, .cons ⟨by decide +kernel, rfl⟩ (.cons ⟨by decide +kernel, rfl⟩
      (.cons ⟨by decide +kernel, by decide +kernel, rfl⟩
        (.cons ⟨by decide +kernel, by decide +kernel, rfl⟩ (.nil _))))⟩
  obtain ⟨t, hpath⟩ := hpath
  exact ⟨t, hpath,
    service_refines sampleState_probed (fun _ _ => sampleDevice_msiMsgWritable) hpath⟩

end Refinement

end BcmPcie
