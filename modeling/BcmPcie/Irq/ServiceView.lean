import BcmPcie.Irq.Attachment
import BcmPcie.Irq.DemuxSteps
import BcmPcie.Irq.Service

/-! # The service behind the slots

Vectors on slots of one controller, with one status and one mask register for all of them. A state
stands for a service in which every device has its vectors to itself; each call of the core changes the
slots of one device, and with them one client of the service.

* `IrqState.service` — the service that a state stands for.
* `service_put`, `service_put_slot` — what a change of the slots of one device makes of it.
* `AllocOutcome.service`, `AddOutcome.service`, `service_irqStep_rem`, … — and the calls of the core. -/

namespace BcmPcie

open BitSet

variable {ι σ : Type*}

/-! ## The service that a state stands for -/

/-- What is attached to vector `v` of an allocation. Of a slot it counts what the registers of the demux
say of it, of INTx the server alone. -/
def attachmentOf (pcie : PciController σ) (a : IrqAlloc) (v : ℕ) : Option Attachment :=
  if v < a.nvec then
    if UsesSlots a.mode then
      (pcie.msi.servers (a.slots v)).map fun server =>
        ⟨server, pcie.intr2.status.getLsbD (a.slots v), pcie.intr2.mask.getLsbD (a.slots v)⟩
    else a.intxServer.map fun server => ⟨server, false, false⟩
  else none

/-- The client that a device is. -/
def clientOf (pcie : PciController σ) (a : IrqAlloc) : Client where
  nvec := a.nvec
  messages := decide (UsesSlots a.mode)
  vecs := attachmentOf pcie a

/-- The service that a state stands for. -/
def IrqState.service (s : IrqState ι σ) : Service ι := fun i => clientOf s.pcie (s.allocs i)

/-- A slot is as it was. -/
def SlotKept (pcie pcie' : PciController σ) (j : ℕ) : Prop :=
  pcie'.msi.servers j = pcie.msi.servers j ∧
    pcie'.intr2.status.getLsbD j = pcie.intr2.status.getLsbD j ∧
      pcie'.intr2.mask.getLsbD j = pcie.intr2.mask.getLsbD j

section Frame

variable {pcie pcie' pcie'' : PciController σ} {a a' : IrqAlloc} {v j : ℕ}

/-- Doing nothing keeps a slot. -/
theorem SlotKept.refl (pcie : PciController σ) (j : ℕ) : SlotKept pcie pcie j := ⟨rfl, rfl, rfl⟩

/-- Two steps that keep a slot keep it together. -/
theorem SlotKept.trans (h : SlotKept pcie pcie' j) (h' : SlotKept pcie' pcie'' j) :
    SlotKept pcie pcie'' j :=
  ⟨h'.1.trans h.1, h'.2.1.trans h.2.1, h'.2.2.trans h.2.2⟩

/-- What is attached to a vector on a slot. -/
theorem attachmentOf_of_owns (h : a.Owns v j) : attachmentOf pcie a v =
    (pcie.msi.servers j).map fun server =>
      ⟨server, pcie.intr2.status.getLsbD j, pcie.intr2.mask.getLsbD j⟩ := by
  obtain ⟨huses, hv, rfl⟩ := h
  rw [attachmentOf, if_pos hv, if_pos huses]

/-- Nothing is attached to a vector that is not there. -/
theorem attachmentOf_of_le (h : a.nvec ≤ v) : attachmentOf pcie a v = none :=
  if_neg (Nat.not_lt.2 h)

/-- An allocation whose slots are as they were is the client it was. -/
theorem clientOf_congr (h : ∀ v j, a.Owns v j → SlotKept pcie pcie' j) :
    clientOf pcie' a = clientOf pcie a := by
  refine Client.ext rfl rfl (funext fun v => ?_)
  show attachmentOf pcie' a v = attachmentOf pcie a v
  by_cases hv : v < a.nvec
  · by_cases huses : UsesSlots a.mode
    · obtain ⟨hserver, hstatus, hmask⟩ := h v _ ⟨huses, hv, rfl⟩
      rw [attachmentOf_of_owns ⟨huses, hv, rfl⟩, attachmentOf_of_owns ⟨huses, hv, rfl⟩, hserver,
        hstatus, hmask]
    · rw [attachmentOf, attachmentOf, if_pos hv, if_pos hv, if_neg huses, if_neg huses]
  · rw [attachmentOf_of_le (Nat.not_lt.1 hv), attachmentOf_of_le (Nat.not_lt.1 hv)]

/-- If one slot of an allocation changes, one vector of the client does. -/
theorem clientOf_setVec (hown : a.Owns v j) (honly : ∀ v', a.Owns v' j → v' = v)
    (hother : ∀ k, k ≠ j → SlotKept pcie pcie' k) :
    clientOf pcie' a = (clientOf pcie a).setVec v (attachmentOf pcie' a v) := by
  refine Client.ext rfl rfl (funext fun v' => ?_)
  show attachmentOf pcie' a v' = Function.update (attachmentOf pcie a) v (attachmentOf pcie' a v) v'
  by_cases hv : v' = v
  · rw [hv, Function.update_self]
  · rw [Function.update_of_ne hv]
    by_cases hlt : v' < a.nvec
    · have hown' : a.Owns v' (a.slots v') := ⟨hown.1, hlt, rfl⟩
      have hne : a.slots v' ≠ j := fun heq => hv (honly v' (heq ▸ hown'))
      obtain ⟨hserver, hstatus, hmask⟩ := hother _ hne
      rw [attachmentOf_of_owns hown', attachmentOf_of_owns hown', hserver, hstatus, hmask]
    · rw [attachmentOf_of_le (Nat.not_lt.1 hlt), attachmentOf_of_le (Nat.not_lt.1 hlt)]

/-- A device without an allocation is an idle client. -/
theorem clientOf_idle (hshape : AllocShape a) (h : a.mode = .idle) : clientOf pcie a = .idle := by
  refine Client.ext (hshape.idle h) (decide_eq_false (by rw [h]; decide)) (funext fun v => ?_)
  exact attachmentOf_of_le (by rw [hshape.idle h]; exact Nat.zero_le v)

end Frame

section State

variable [DecidableEq ι] {s : IrqState ι σ} {i : ι} {pcie : PciController σ} {dev : PciDevice}

/-- A change of one device, and of slots that are not those of others, changes one client. -/
theorem service_put (hother : ∀ i', i' ≠ i → ∀ v j, (s.allocs i').Owns v j → SlotKept s.pcie pcie j) :
    (s.put i pcie dev).service = Function.update s.service i (clientOf pcie dev.active) := by
  funext i'
  show clientOf pcie ((s.put i pcie dev).allocs i') = _
  rw [allocs_put]
  by_cases hi : i' = i
  · rw [hi, Function.update_self, Function.update_self]
  · rw [Function.update_of_ne hi, Function.update_of_ne hi]
    exact clientOf_congr (hother i' hi)

/-- A change that keeps all slots and the allocation of a device changes nothing. -/
theorem service_put_same (hkept : ∀ j, SlotKept s.pcie pcie j)
    (hactive : dev.active = (s.devs i).active) : (s.put i pcie dev).service = s.service := by
  rw [service_put fun _ _ _ j _ => hkept j, hactive, clientOf_congr fun _ j _ => hkept j]
  exact Function.update_eq_self i s.service

/-- A change of one slot of a device changes one vector of the client. -/
theorem service_put_slot (hled : s.SlotsOwned) {v j : ℕ} (hown : (s.devs i).active.Owns v j)
    (hother : ∀ k, k ≠ j → SlotKept s.pcie pcie k) (hactive : dev.active = (s.devs i).active) :
    (s.put i pcie dev).service = Function.update s.service i ((s.service i).setVec v
      (attachmentOf pcie (s.devs i).active v)) := by
  rw [service_put, hactive, clientOf_setVec hown
    (fun v' hown' => (hled.unique i v' i v j hown' hown).2) hother]
  · rfl
  · intro i' hi v' j' hown'
    refine hother j' fun heq => hi ?_
    exact (hled.unique i' v' i v j (heq ▸ hown') hown).1

end State

/-! ## Slots -/

section Slot

variable {pcie : PciController σ} {a : IrqAlloc} {v j k : ℕ}

/-- Clearing a bit leaves the others. -/
theorem getLsbD_clr {x : BitVec 32} (hk : k ≠ j) :
    (x &&& ~~~bit 32 j).getLsbD k = x.getLsbD k := by
  rw [BitVec.getLsbD_and, BitVec.getLsbD_not, getLsbD_bit, decide_eq_false (Ne.symm hk)]
  by_cases h32 : k < 32
  · simp [h32]
  · simp [BitVec.getLsbD_of_ge x k (Nat.not_lt.1 h32)]

/-- A bit that is cleared is not set. -/
theorem getLsbD_clr_self {x : BitVec 32} : (x &&& ~~~bit 32 j).getLsbD j = false := by
  rw [BitVec.getLsbD_and, BitVec.getLsbD_not, getLsbD_bit]
  by_cases h32 : j < 32
  · simp [h32]
  · simp [h32]

/-- Setting a bit leaves the others. -/
theorem getLsbD_set {x : BitVec 32} (hk : k ≠ j) : (x ||| bit 32 j).getLsbD k = x.getLsbD k := by
  rw [BitVec.getLsbD_or, getLsbD_bit, decide_eq_false (Ne.symm hk), Bool.and_false, Bool.or_false]

/-- A bit that is set is set. -/
theorem getLsbD_set_self {x : BitVec 32} (hj : j < 32) : (x ||| bit 32 j).getLsbD j = true := by
  rw [BitVec.getLsbD_or, getLsbD_bit, decide_eq_true hj, decide_eq_true rfl]
  exact Bool.or_true _

/-- Binding a slot keeps the others. -/
theorem slotKept_bind (isr : Option Interrupt) (hk : k ≠ j) :
    SlotKept pcie (brcmMsiSlotBind pcie j isr) k :=
  ⟨Function.update_of_ne hk _ _, getLsbD_clr hk, getLsbD_clr hk⟩

/-- Unbinding a slot keeps the others. -/
theorem slotKept_unbind (hk : k ≠ j) : SlotKept pcie (brcmMsiSlotUnbind pcie j) k :=
  ⟨Function.update_of_ne hk _ _, rfl, getLsbD_set hk⟩

/-- Masking a slot keeps the others. -/
theorem slotKept_mask (hk : k ≠ j) : SlotKept pcie (brcmMsiSlotMask pcie j) k :=
  ⟨rfl, rfl, getLsbD_set hk⟩

/-- Unmasking a slot keeps the others. -/
theorem slotKept_unmask (hk : k ≠ j) : SlotKept pcie (brcmMsiSlotUnmask pcie j) k :=
  ⟨rfl, rfl, getLsbD_clr hk⟩

/-- A message to a slot keeps the others. -/
theorem slotKept_latch (hk : k ≠ j) : SlotKept pcie (pcie.setIntr2 (pcie.intr2.latch j)) k :=
  ⟨rfl, getLsbD_set hk, rfl⟩

/-- A bind drops what the slot has latched and lets it through. -/
theorem attachmentOf_bind (isr : Option Interrupt) (hown : a.Owns v j) :
    attachmentOf (brcmMsiSlotBind pcie j isr) a v = isr.map fun server => ⟨server, false, false⟩ := by
  rw [attachmentOf_of_owns hown]
  show (Function.update pcie.msi.servers j isr j).map _ = _
  rw [Function.update_self]
  refine congrArg (fun f => isr.map f) (funext fun server => ?_)
  show Attachment.mk server ((pcie.intr2.status &&& ~~~bit 32 j).getLsbD j)
    ((pcie.intr2.mask &&& ~~~bit 32 j).getLsbD j) = ⟨server, false, false⟩
  rw [getLsbD_clr_self, getLsbD_clr_self]

/-- Unbinding the slot of a vector takes its server away. -/
theorem attachmentOf_unbind (hown : a.Owns v j) :
    attachmentOf (brcmMsiSlotUnbind pcie j) a v = none := by
  rw [attachmentOf_of_owns hown]
  show (Function.update pcie.msi.servers j none j).map _ = _
  rw [Function.update_self]
  rfl

/-- Masking the slot of a vector holds its messages back. -/
theorem attachmentOf_mask (hown : a.Owns v j) (hj : j < 32) :
    attachmentOf (brcmMsiSlotMask pcie j) a v
      = (attachmentOf pcie a v).map fun b => { b with held := true } := by
  rw [attachmentOf_of_owns hown, attachmentOf_of_owns hown, Option.map_map]
  refine congrArg (fun f => (pcie.msi.servers j).map f) (funext fun server => ?_)
  show Attachment.mk server _ ((pcie.intr2.mask ||| bit 32 j).getLsbD j) = ⟨server, _, true⟩
  rw [getLsbD_set_self hj]
  rfl

/-- Unmasking it lets them go. -/
theorem attachmentOf_unmask (hown : a.Owns v j) :
    attachmentOf (brcmMsiSlotUnmask pcie j) a v
      = (attachmentOf pcie a v).map fun b => { b with held := false } := by
  rw [attachmentOf_of_owns hown, attachmentOf_of_owns hown, Option.map_map]
  refine congrArg (fun f => (pcie.msi.servers j).map f) (funext fun server => ?_)
  show Attachment.mk server _ ((pcie.intr2.mask &&& ~~~bit 32 j).getLsbD j) = ⟨server, _, false⟩
  rw [getLsbD_clr_self]
  rfl

/-- A message to the slot of a vector waits there. -/
theorem attachmentOf_latch (hown : a.Owns v j) (hj : j < 32) :
    attachmentOf (pcie.setIntr2 (pcie.intr2.latch j)) a v
      = (attachmentOf pcie a v).map fun b => { b with pending := true } := by
  rw [attachmentOf_of_owns hown, attachmentOf_of_owns hown, Option.map_map]
  refine congrArg (fun f => (pcie.msi.servers j).map f) (funext fun server => ?_)
  show Attachment.mk server ((pcie.intr2.status ||| bit 32 j).getLsbD j) _ = ⟨server, true, _⟩
  rw [getLsbD_set_self hj]
  rfl

end Slot

/-! ## The calls of the core -/

section Calls

variable [DecidableEq ι] {s : IrqState ι σ} {pcie : PciController σ}

/-- Vectors on slots without servers. -/
theorem clientOf_fresh {a : IrqAlloc} (huses : UsesSlots a.mode)
    (hfree : ∀ v < a.nvec, pcie.msi.servers (a.slots v) = none) :
    clientOf pcie a = .fresh a.nvec true := by
  refine Client.ext rfl (decide_eq_true huses) (funext fun v => ?_)
  show attachmentOf pcie a v = none
  by_cases hv : v < a.nvec
  · rw [attachmentOf_of_owns ⟨huses, hv, rfl⟩, hfree v hv]
    rfl
  · exact attachmentOf_of_le (Nat.not_lt.1 hv)

/-- An INTx vector, and its server if there is one. -/
theorem clientOf_intx {a : IrqAlloc} (hmode : a.mode = .intx) (hnvec : a.nvec = 1) :
    clientOf pcie a
      = (Client.fresh 1 false).setVec 0 (a.intxServer.map fun server => ⟨server, false, false⟩) := by
  have huses : ¬ UsesSlots a.mode := by
    rw [hmode]
    decide
  refine Client.ext hnvec (decide_eq_false huses) (funext fun v => ?_)
  show attachmentOf pcie a v = Function.update (fun _ => none) 0 _ v
  by_cases hv : v = 0
  · rw [hv, Function.update_self, attachmentOf, hnvec, if_pos Nat.one_pos, if_neg huses]
  · rw [Function.update_of_ne hv, attachmentOf_of_le (by omega)]

/-- What an allocation makes of the service. -/
theorem AllocOutcome.service (hled : s.SlotsOwned) (i : ι) {min max : ℕ} {flags : BitVec 32}
    {r : PciController σ × PciDevice × Except Errno ℕ}
    (hout : AllocOutcome s.pcie (s.devs i) min max flags r) :
    (∀ e, r.2.2 = .error e → (s.put i r.1 r.2.1).service = s.service) ∧
      ∀ n, r.2.2 = .ok n → s.service.Grants i min max flags n (s.put i r.1 r.2.1).service := by
  have hshape : AllocShape (s.devs i).active := hled.shape i
  have hput {used : BitVec 32} {dev : PciDevice} : (s.put i (s.pcie.setUsed used) dev).service
      = Function.update s.service i (clientOf (s.pcie.setUsed used) dev.active) :=
    service_put fun _ _ _ _ _ => ⟨rfl, rfl, rfl⟩
  cases hout with
  | refused e slots hslots =>
    refine ⟨fun _ _ => ?_, fun n hn => absurd hn (by simp)⟩
    rw [service_put fun _ _ _ j _ => SlotKept.refl s.pcie j]
    have hsame : clientOf s.pcie ((s.devs i).setSlots slots).active = s.service i := by
      by_cases hidle : (s.devs i).active.mode = .idle
      · rw [clientOf_idle (setSlots_ledger hslots hshape).1 hidle]
        exact (clientOf_idle hshape hidle).symm
      · rw [hslots hidle]
        rfl
    rw [hsame]
    exact Function.update_eq_self i s.service
  | msix n slots used hidle hflags _ hpos hmin hmax _ _ hres =>
    refine ⟨fun e he => absurd he (by simp), fun n' hn => ?_⟩
    obtain rfl : n = n' := by simpa using hn
    refine ⟨hshape.idle hidle, hpos, hmin, hmax, Or.inl ⟨Or.inl hflags, ?_⟩⟩
    have hactive := (pciMsixProgram_sameRecord ((s.devs i).setSlots slots) (s.pcie.setUsed used)
      n).active
    rw [hput, setActive_active, hactive]
    exact congrArg (Function.update s.service i) (clientOf_fresh (Or.inr rfl) fun v hv =>
      hled.servers_of_free (hres.lt v hv) (hres.free v hv))
  | msi k base slots used hidle hflags _ hmin hmax _ _ _ hres =>
    refine ⟨fun e he => absurd he (by simp), fun n' hn => ?_⟩
    obtain rfl : 2 ^ k = n' := by simpa using hn
    refine ⟨hshape.idle hidle, Nat.one_le_two_pow, hmin, hmax, Or.inl ⟨Or.inr hflags, ?_⟩⟩
    have hactive := (pciMsiProgram_sameRecord
      ((s.devs i).setSlots (blockSlots slots base (2 ^ k))) (s.pcie.setUsed used) (2 ^ k)).active
    rw [hput, setActive_active, hactive]
    exact congrArg (Function.update s.service i) (clientOf_fresh (Or.inl rfl) fun v hv =>
      hled.servers_of_free (hres.lt v hv) (hres.free v hv))
  | intx slots hidle hflags _ hmin hmax =>
    refine ⟨fun e he => absurd he (by simp), fun n' hn => ?_⟩
    obtain rfl : 1 = n' := by simpa using hn
    refine ⟨hshape.idle hidle, le_rfl, hmin, hmax, Or.inr ⟨⟨hflags, rfl⟩, ?_⟩⟩
    have hnone : (s.devs i).active.intxServer = none := by
      by_contra hserver
      exact absurd (hidle.symm.trans (hshape.intxServer hserver)) (by decide)
    rw [service_put fun _ _ _ j _ => SlotKept.refl s.pcie j]
    refine congrArg (Function.update s.service i) ((clientOf_intx rfl rfl).trans ?_)
    show (Client.fresh 1 false).setVec 0 ((s.devs i).active.intxServer.map _) = _
    rw [hnone]
    exact Client.ext rfl rfl (Function.update_eq_self 0 _)

variable [Gic400 σ]

/-- Removing a server touches a slot of the device alone. -/
theorem RemOutcome.slotKept {dev : PciDevice} {vec : ℕ} {isr : Option Interrupt}
    {r : PciController σ × PciDevice} (hout : RemOutcome pcie dev vec isr r) {j : ℕ}
    (hj : dev.active.mode ≠ .intx → ∀ v < dev.active.nvec, dev.active.slots v ≠ j) :
    SlotKept pcie r.1 j := by
  cases hout with
  | ignored => exact SlotKept.refl pcie j
  | intx => exact ⟨rfl, rfl, rfl⟩
  | slot hvec hmode => exact slotKept_unbind (hj hmode vec hvec).symm

/-- Teardown touches slots of the device alone. -/
theorem slotKept_pciIrqVectorsFree (pcie : PciController σ) {dev : PciDevice}
    (hshape : AllocShape dev.active) {j : ℕ} (hj : ∀ v, ¬ dev.active.Owns v j) :
    SlotKept pcie (pciIrqVectorsFree pcie dev).1 j := by
  obtain ⟨used, heq⟩ := pciIrqVectorsFree_eq pcie dev
  rw [heq]
  have hkept := detachServers_invariant
    (P := fun p d => d.active = { dev.active with intxServer := d.active.intxServer } ∧
      SlotKept pcie p j)
    (fun p d vec isr hpd => ?_) pcie dev dev.active.nvec ⟨rfl, SlotKept.refl pcie j⟩
  · exact ⟨hkept.2.1, hkept.2.2.1, hkept.2.2.2⟩
  · obtain ⟨hactive, hkept⟩ := hpd
    refine ⟨by rw [pciIrqRemServer_active, hactive], hkept.trans ?_⟩
    refine (pciIrqRemServer_outcome p d vec isr).slotKept fun hmode v hv heq => ?_
    rw [hactive] at hmode hv heq
    exact hj v ⟨usesSlots_of_vec hshape hv hmode, hv, heq⟩

/-- What teardown makes of the service. -/
theorem service_irqStep_free (hled : s.SlotsOwned) (i : ι) :
    (irqStep s (.vectorsFree i)).service = Function.update s.service i .idle := by
  have hshape : AllocShape (s.devs i).active := hled.shape i
  obtain ⟨hidle, hshape', -⟩ := pciIrqVectorsFree_ledger s.pcie (s.devs i) hshape
  unfold irqStep
  rw [service_put]
  · exact congrArg (Function.update s.service i) (clientOf_idle hshape' hidle)
  · intro i' hi v j hown
    exact slotKept_pciIrqVectorsFree s.pcie hshape fun v' hown' =>
      hi (hled.unique i' v i v' j hown hown').1

/-- What a new server makes of the service. -/
theorem AddOutcome.service (hled : s.SlotsOwned) (i : ι) {vec : ℕ} {server : Interrupt}
    {r : PciController σ × PciDevice × Except Errno Unit}
    (hout : AddOutcome s.pcie (s.devs i) vec (some server) r) :
    (∀ e, r.2.2 = .error e → (s.put i r.1 r.2.1).service = s.service) ∧
      (r.2.2 = .ok () → vec < (s.service i).nvec ∧ (s.service i).vecs vec = none ∧
        (s.put i r.1 r.2.1).service
          = Function.update s.service i ((s.service i).attach vec server)) := by
  have hshape : AllocShape (s.devs i).active := hled.shape i
  cases hout with
  | badVec => exact ⟨fun _ _ => by rw [put_self], fun h => absurd h (by simp)⟩
  | busy => exact ⟨fun _ _ => by rw [put_self], fun h => absurd h (by simp)⟩
  | gicRefused =>
    exact ⟨fun _ _ => service_put_same (fun _ => ⟨rfl, rfl, rfl⟩) rfl, fun h => absurd h (by simp)⟩
  | intx hvec hmode hfree =>
    refine ⟨fun e he => absurd he (by simp), fun _ => ⟨hvec, ?_, ?_⟩⟩
    · show attachmentOf s.pcie (s.devs i).active vec = none
      rw [attachmentOf, if_pos hvec, if_neg (by rw [hmode]; decide), hfree]
      rfl
    · have hnvec := hshape.intx hmode
      have hzero : vec = 0 := by omega
      refine (service_put fun _ _ _ j _ => (⟨rfl, rfl, rfl⟩ :
        SlotKept s.pcie (brcmIntxAddServer s.pcie (s.devs i) (some server)).1 j)).trans ?_
      rw [pciIntx_active, setIntxServer_active,
        clientOf_intx (a := { (s.devs i).active with intxServer := some server }) hmode hnvec]
      have hclient : s.service i = Client.fresh 1 false := by
        refine (clientOf_intx hmode hnvec).trans ?_
        rw [hfree]
        exact Client.ext rfl rfl (Function.update_eq_self 0 _)
      rw [hclient, hzero]
      rfl
  | slot hvec hmode hfree =>
    have hown : (s.devs i).active.Owns vec ((s.devs i).active.slots vec) :=
      ⟨usesSlots_of_vec hshape hvec hmode, hvec, rfl⟩
    refine ⟨fun e he => absurd he (by simp), fun _ => ⟨hvec, ?_, ?_⟩⟩
    · refine (attachmentOf_of_owns hown).trans ?_
      rw [hfree]
      rfl
    · rw [service_put_slot hled hown (fun k hk => slotKept_bind _ hk)
        (pciIrqVecOpen_sameRecord _ vec).active, attachmentOf_bind _ hown]
      rfl

omit [DecidableEq ι] [Gic400 σ] in
/-- The server on a vector. -/
theorem server_attachmentOf {dev : PciDevice} {vec : ℕ} {server : Interrupt}
    (hshape : AllocShape dev.active) :
    (attachmentOf pcie dev.active vec).map (·.server) = some server ↔
      VecAttached pcie dev vec server := by
  unfold VecAttached attachmentOf
  by_cases hv : vec < dev.active.nvec
  · rw [if_pos hv, and_iff_right hv, pciIrqVecServer]
    by_cases hmode : dev.active.mode = .intx
    · rw [if_pos hmode, if_neg (by rw [hmode]; decide), Option.map_map]
      cases dev.active.intxServer <;> exact Iff.rfl
    · rw [if_neg hmode, if_pos (usesSlots_of_vec hshape hv hmode), Option.map_map]
      cases hserver : pcie.msi.servers (dev.active.slots vec) <;>
        simp [brcmMsiSlotServer, hserver]
  · rw [if_neg hv]
    exact iff_of_false (by simp) fun h => hv h.1

/-- What the removal of a server makes of the service. -/
theorem service_irqStep_rem (hled : s.SlotsOwned) (i : ι) (vec : ℕ) (server : Interrupt) :
    (irqStep s (.remServer i vec (some server))).service
      = Function.update s.service i ((s.service i).detach vec server) := by
  have hshape : AllocShape (s.devs i).active := hled.shape i
  have hserver := @server_attachmentOf _ s.pcie (s.devs i) vec server hshape
  show (s.put i (pciIrqRemServer s.pcie (s.devs i) vec (some server)).1
    (pciIrqRemServer s.pcie (s.devs i) vec (some server)).2).service = _
  by_cases hat : VecAttached s.pcie (s.devs i) vec server
  · have hdetach : (s.service i).detach vec server = (s.service i).setVec vec none :=
      if_pos (hserver.2 hat)
    obtain ⟨hvec, hattached⟩ := hat
    rw [hdetach, pciIrqRemServer, if_neg (by simp [Nat.not_le.2 hvec, hattached])]
    by_cases hmode : (s.devs i).active.mode = .intx
    · have hnvec := hshape.intx hmode
      have hzero : vec = 0 := by omega
      rw [if_pos hmode]
      dsimp only
      refine (service_put fun _ _ _ j _ => (⟨rfl, rfl, rfl⟩ : SlotKept s.pcie
        (brcmIntxRemServer s.pcie (pciIntx (s.devs i) false) (some server)) j)).trans ?_
      rw [setIntxServer_active, pciIntx_active,
        clientOf_intx (a := { (s.devs i).active with intxServer := none }) hmode hnvec, hzero]
      refine congrArg (Function.update s.service i) ?_
      rw [show s.service i = _ from clientOf_intx hmode hnvec]
      exact Client.ext rfl rfl (Function.update_idem _ _ _).symm
    · have hown : (s.devs i).active.Owns vec ((s.devs i).active.slots vec) :=
        ⟨usesSlots_of_vec hshape hvec hmode, hvec, rfl⟩
      have hactive := (pciIrqVecClose_sameRecord (s.devs i) vec).active
      rw [if_neg hmode]
      dsimp only
      rw [hactive, service_put_slot hled hown (fun k hk => slotKept_unbind hk) hactive,
        attachmentOf_unbind hown]
  · have hdetach : (s.service i).detach vec server = s.service i := if_neg (mt hserver.1 hat)
    rw [hdetach, pciIrqRemServer_of_not_attached hat, put_self, Function.update_eq_self]

omit [Gic400 σ] in
/-- What the runtime mask makes of the service. -/
theorem MaskOutcome.service (hled : s.SlotsOwned) (i : ι) {vec : ℕ} {open' : Bool}
    {r : PciController σ × PciDevice × Bool} (hout : MaskOutcome s.pcie (s.devs i) vec open' r) :
    s.service.Holds i vec (!open') r.2.2 (s.put i r.1 r.2.1).service := by
  have hshape : AllocShape (s.devs i).active := hled.shape i
  cases hout with
  | badVec hvec =>
    refine ⟨(decide_eq_false (Nat.not_lt.2 hvec)).symm, ?_⟩
    rw [put_self, Client.hold_of_none (attachmentOf_of_le hvec), Function.update_eq_self]
  | intx hvec hmode =>
    refine ⟨(decide_eq_true hvec).symm, ?_⟩
    have hline : (s.service i).hold vec (!open') = s.service i := by
      refine if_neg ?_
      show ¬ decide (UsesSlots (s.devs i).active.mode) = true
      rw [hmode]
      decide
    rw [hline, Function.update_eq_self,
      service_put_same (fun j => SlotKept.refl s.pcie j) (pciIntx_active _ _)]
  | slot hvec hmode =>
    have huses := usesSlots_of_vec hshape hvec hmode
    have hown : (s.devs i).active.Owns vec ((s.devs i).active.slots vec) := ⟨huses, hvec, rfl⟩
    have hlt := hled.lt i vec _ hown
    have hhold (held : Bool) : (s.service i).hold vec held = (s.service i).setVec vec
        ((attachmentOf s.pcie (s.devs i).active vec).map fun b => { b with held := held }) :=
      if_pos (decide_eq_true huses)
    refine ⟨(decide_eq_true hvec).symm, ?_⟩
    cases open' with
    | false =>
      refine (service_put_slot hled hown (fun k hk => slotKept_mask hk) rfl).trans ?_
      rw [attachmentOf_mask hown hlt, ← hhold]
      rfl
    | true =>
      refine (service_put_slot hled hown (fun k hk => slotKept_unmask hk) rfl).trans ?_
      rw [attachmentOf_unmask hown, ← hhold]
      rfl

end Calls

end BcmPcie
