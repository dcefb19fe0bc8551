import BcmPcie.Irq.DeviceGate
import BcmPcie.Irq.Failure
import Mathlib.Data.List.Induction

/-! # Attached servers

Which server a vector has, from the call that attached it to the one that takes it away. Each call of
the core has one lemma that says what it makes of the attached servers of its device; the servers of
other devices it leaves alone, since their slots are not its own.

* `attached_irqStep_iff` — the attached servers after a core call.
* `attached_libStep_iff` — the same of a library call.
* `serversKept_iff` — exactly which runs keep a server attached until it is named. -/

namespace BcmPcie

open Runs

variable {ι σ : Type*}

/-! ## Attachment -/

/-- `server` is attached to vector `vec` of the device. -/
def VecAttached (pcie : PciController σ) (dev : PciDevice) (vec : ℕ) (server : Interrupt) : Prop :=
  vec < dev.active.nvec ∧ pciIrqVecServer pcie dev vec = some server

instance (pcie : PciController σ) (dev : PciDevice) (vec : ℕ) (server : Interrupt) :
    Decidable (VecAttached pcie dev vec server) := inferInstanceAs (Decidable (_ ∧ _))

/-- `server` is attached to vector `vec` of device `i`. -/
def IrqState.Attached (s : IrqState ι σ) (i : ι) (vec : ℕ) (server : Interrupt) : Prop :=
  VecAttached s.pcie (s.devs i) vec server

instance (s : IrqState ι σ) (i : ι) (vec : ℕ) (server : Interrupt) :
    Decidable (s.Attached i vec server) := inferInstanceAs (Decidable (VecAttached _ _ _ _))

/-- The second record is the same allocation as the first: its type, its count and its slots. -/
def IrqAlloc.Same (a a' : IrqAlloc) : Prop :=
  a'.mode = a.mode ∧ a'.nvec = a.nvec ∧ a'.slots = a.slots

/-- An allocation is the same as itself. -/
theorem IrqAlloc.Same.refl (a : IrqAlloc) : a.Same a := ⟨rfl, rfl, rfl⟩

/-- The same allocation through two steps. -/
theorem IrqAlloc.Same.trans {a a' a'' : IrqAlloc} (h : a.Same a') (h' : a'.Same a'') :
    a.Same a'' :=
  ⟨h'.1.trans h.1, h'.2.1.trans h.2.1, h'.2.2.trans h.2.2⟩

section Device

variable {pcie pcie' : PciController σ} {dev dev' : PciDevice} {vec v : ℕ}
  {server : Interrupt} {isr : Option Interrupt}

/-- The attached servers are a matter of the allocation record and of the slots it names. -/
theorem vecAttached_congr (hactive : dev'.active = dev.active)
    (hservers : dev.active.mode ≠ .intx → v < dev.active.nvec →
      pcie'.msi.servers (dev.active.slots v) = pcie.msi.servers (dev.active.slots v)) :
    VecAttached pcie' dev' v server ↔ VecAttached pcie dev v server := by
  unfold VecAttached pciIrqVecServer brcmMsiSlotServer
  rw [hactive]
  refine and_congr_right fun hv => ?_
  by_cases hmode : dev.active.mode = .intx
  · rw [if_pos hmode, if_pos hmode]
  · rw [if_neg hmode, if_neg hmode, hservers hmode hv]

/-- A device with an attached server has an allocation. -/
theorem VecAttached.mode_ne_idle (h : VecAttached pcie dev v server)
    (hshape : AllocShape dev.active) : dev.active.mode ≠ .idle := by
  intro hidle
  have hv := h.1
  rw [hshape.idle hidle] at hv
  exact Nat.not_lt_zero v hv

/-- No server is attached to an idle function. -/
theorem not_vecAttached_of_idle (hshape : AllocShape dev.active) (h : dev.active.mode = .idle) :
    ¬ VecAttached pcie dev v server := fun hat => hat.mode_ne_idle hshape h

variable [Gic400 σ]

/-- Removing a server that is not the vector's does nothing. -/
theorem pciIrqRemServer_of_not_attached (h : ¬ VecAttached pcie dev vec server) :
    pciIrqRemServer pcie dev vec (some server) = (pcie, dev) := by
  unfold pciIrqRemServer
  refine if_pos ?_
  by_contra hnot
  rw [not_or, not_le, not_not] at hnot
  exact h hnot

end Device

section Calls

variable {s : IrqState ι σ} {i : ι} {v : ℕ} {server : Interrupt}

/-! ## The core calls -/

/-- An allocation attaches no server: the slots it takes were free, so have none. -/
theorem AllocOutcome.attached_iff (hled : s.SlotsOwned) {min max : ℕ} {flags : BitVec 32}
    {r : PciController σ × PciDevice × Except Errno ℕ}
    (hout : AllocOutcome s.pcie (s.devs i) min max flags r) :
    VecAttached r.1 r.2.1 v server ↔ s.Attached i v server := by
  have hshape : AllocShape (s.devs i).active := hled.shape i
  have hidle : (s.devs i).active.mode = .idle → ¬ s.Attached i v server :=
    not_vecAttached_of_idle hshape
  -- both sides are false of a device that was idle; the slots it is given are free, so hold no
  -- server
  cases hout with
  | refused e slots hslots =>
    by_cases hmode : (s.devs i).active.mode = .idle
    · refine iff_of_false (fun hat => ?_) (hidle hmode)
      have hv : v < (s.devs i).active.nvec := hat.1
      rw [hshape.idle hmode] at hv
      exact Nat.not_lt_zero v hv
    · rw [hslots hmode]
      exact Iff.rfl
  | msix n slots used hmode _ _ _ _ _ _ _ hres =>
    refine iff_of_false (fun hat => ?_) (hidle hmode)
    obtain ⟨hv, hserver⟩ := hat
    rw [pciIrqVecServer, if_neg (by simp), setActive_active,
      (pciMsixProgram_sameRecord ((s.devs i).setSlots slots) (s.pcie.setUsed used) n).active]
      at hserver
    exact absurd ((hled.servers_of_free (hres.lt v hv) (hres.free v hv)).symm.trans hserver) (by simp)
  | msi k base slots used hmode _ _ _ _ _ _ _ hres =>
    refine iff_of_false (fun hat => ?_) (hidle hmode)
    obtain ⟨hv, hserver⟩ := hat
    rw [pciIrqVecServer, if_neg (by simp), setActive_active,
      (pciMsiProgram_sameRecord ((s.devs i).setSlots (blockSlots slots base (2 ^ k)))
        (s.pcie.setUsed used) (2 ^ k)).active] at hserver
    exact absurd ((hled.servers_of_free (hres.lt v hv) (hres.free v hv)).symm.trans hserver) (by simp)
  | intx slots hmode =>
    refine iff_of_false (fun hat => ?_) (hidle hmode)
    have hserver : (s.devs i).active.intxServer = some server := hat.2
    have hintx := hshape.intxServer (by rw [hserver]; simp)
    exact absurd (hmode.symm.trans hintx) (by decide)

variable [Gic400 σ]

/-- Adding a server attaches it, if it succeeds, and no other. -/
theorem attached_addServer_iff (hled : s.SlotsOwned) (vec : ℕ) (isr : Option Interrupt) :
    let r := pciIrqAddServer s.pcie (s.devs i) vec isr
    VecAttached r.1 r.2.1 v server ↔
      s.Attached i v server ∨ (v = vec ∧ isr = some server ∧ r.2.2 = .ok ()) := by
  have hshape : AllocShape (s.devs i).active := hled.shape i
  have hout := pciIrqAddServer_outcome s.pcie (s.devs i) vec isr
  dsimp only
  generalize pciIrqAddServer s.pcie (s.devs i) vec isr = r at hout ⊢
  cases hout with
  | badVec => exact (or_iff_left (by simp)).symm
  | busy => exact (or_iff_left (by simp)).symm
  | gicRefused =>
    refine Iff.trans ?_ (or_iff_left (by simp)).symm
    exact vecAttached_congr rfl fun _ _ => rfl
  | intx hvec hmode hfree =>
    -- the only vector of an INTx allocation
    rw [hshape.intx hmode] at hvec
    have hnot : ¬ s.Attached i v server := by
      rintro ⟨-, hserver⟩
      rw [pciIrqVecServer, if_pos hmode, hfree] at hserver
      exact absurd hserver (by simp)
    rw [or_iff_right hnot]
    unfold VecAttached pciIrqVecServer
    simp only [pciIntx_active, setIntxServer_active, hmode, if_true,
      hshape.intx hmode, and_true]
    refine and_congr_left fun _ => ?_
    omega
  | slot hvec hmode hfree =>
    have huses := usesSlots_of_vec hshape hvec hmode
    have hactive := (pciIrqVecOpen_sameRecord (s.devs i) vec).active
    by_cases hv : v = vec
    · subst hv
      have hnot : ¬ s.Attached i v server := by
        rintro ⟨-, hserver⟩
        rw [pciIrqVecServer, if_neg hmode, brcmMsiSlotServer, hfree] at hserver
        exact absurd hserver (by simp)
      rw [or_iff_right hnot]
      unfold VecAttached pciIrqVecServer brcmMsiSlotServer
      simp only [hactive, hmode, if_false, brcmMsiSlotBind_servers, Function.update_self, hvec,
        true_and, and_true]
    · rw [or_iff_left fun h => hv h.1]
      refine vecAttached_congr hactive fun _ hlt => ?_
      rw [brcmMsiSlotBind_servers, Function.update_of_ne (slots_ne hled huses hlt hvec hv)]

/-- Removing a server detaches it and no other. -/
theorem attached_remServer_iff (hled : s.SlotsOwned) (vec : ℕ) (gone : Interrupt) :
    let r := pciIrqRemServer s.pcie (s.devs i) vec (some gone)
    VecAttached r.1 r.2 v server ↔ s.Attached i v server ∧ ¬ (v = vec ∧ gone = server) := by
  have hshape : AllocShape (s.devs i).active := hled.shape i
  dsimp only
  by_cases hat : s.Attached i vec gone
  · have hout := pciIrqRemServer_outcome s.pcie (s.devs i) vec (some gone)
    have hgone := pciIrqVecServer_remServer s.pcie (s.devs i) hat.1
    rw [hat.2] at hgone
    generalize pciIrqRemServer s.pcie (s.devs i) vec (some gone) = r at hout hgone ⊢
    -- a vector has one server, so what is left is on the other vectors
    have hself : v = vec → (s.Attached i v server ∧ ¬ (v = vec ∧ gone = server) ↔ False) := by
      rintro rfl
      refine iff_of_false (fun h => h.2 ⟨rfl, ?_⟩) not_false
      exact Option.some.inj (hat.2.symm.trans h.1.2)
    by_cases hv : v = vec
    · rw [hself hv]
      subst hv
      refine iff_of_false (fun h => ?_) not_false
      exact absurd (hgone.symm.trans h.2) (by simp)
    · rw [and_iff_left fun h => hv h.1]
      cases hout with
      | ignored => exact Iff.rfl
      | intx hvec hmode =>
        have hone : (s.devs i).active.nvec = 1 := hshape.intx hmode
        refine iff_of_false (fun h => ?_) fun h => ?_
        · have hlt : v < (s.devs i).active.nvec := by
            have := h.1
            simpa only [setIntxServer_active, pciIntx_active] using this
          omega
        · have hlt := h.1
          omega
      | slot hvec hmode =>
        have huses := usesSlots_of_vec hshape hvec hmode
        refine vecAttached_congr (pciIrqVecClose_sameRecord (s.devs i) vec).active fun _ hlt => ?_
        rw [brcmMsiSlotUnbind_servers, Function.update_of_ne (slots_ne hled huses hlt hvec hv)]
  · rw [pciIrqRemServer_of_not_attached hat]
    refine (and_iff_left_of_imp fun h => ?_).symm
    rintro ⟨rfl, rfl⟩
    exact hat h

variable [DecidableEq ι]

/-- The core call attaches `server` to vector `v` of device `i`. -/
def IrqCall.Attaches (s : IrqState ι σ) (i : ι) (v : ℕ) (server : Interrupt) : IrqCall ι → Prop
  | .addServer dev vec isr => dev = i ∧ vec = v ∧ isr = some server ∧
      (pciIrqAddServer s.pcie (s.devs dev) vec isr).2.2 = .ok ()
  | _ => False

omit [DecidableEq ι] [Gic400 σ] in
/-- The core call takes `server` from vector `v` of device `i` if it is attached there. -/
def IrqCall.Detaches (i : ι) (v : ℕ) (server : Interrupt) : IrqCall ι → Prop
  | .vectorsFree dev => dev = i
  | .remServer dev vec isr => dev = i ∧ vec = v ∧ isr = some server
  | _ => False

/-- A call on another device takes no server away and attaches none. -/
theorem attached_irqStep_of_ne (hled : s.SlotsOwned) {c : IrqCall ι} (hi : i ≠ c.target) :
    (irqStep s c).Attached i v server ↔ s.Attached i v server := by
  unfold irqStep IrqState.Attached
  rw [put_devs_of_ne _ _ _ _ hi]
  refine vecAttached_congr rfl fun hmode hv => ?_
  -- the call writes only slots its own device owns, and a slot has one owner
  refine IrqCall.apply_servers s.pcie (hled.shape c.target) c fun w hown => hi ?_
  exact (hled.unique i v c.target w _ ⟨usesSlots_of_vec (hled.shape i) hv hmode, hv, rfl⟩ hown).1

/-- **The attached servers after a core call**: those that were and are not taken away, and the one
that is attached. -/
theorem attached_irqStep_iff (hled : s.SlotsOwned) {c : IrqCall ι} (hc : c.HasServer) :
    (irqStep s c).Attached i v server ↔
      (s.Attached i v server ∧ ¬ c.Detaches i v server) ∨ c.Attaches s i v server := by
  by_cases hi : i = c.target
  · -- what the call makes of its own device
    unfold irqStep
    simp only [IrqState.Attached, hi, put_pcie, put_devs_self]
    cases c with
    | vectorsAlloc dev min max flags =>
      have hout := pciIrqVectorsAlloc_outcome s.pcie (s.devs dev) min max flags
      refine (hout.attached_iff hled).trans ?_
      simp only [IrqCall.Detaches, IrqCall.Attaches, not_false_eq_true, and_true, or_false]
      exact Iff.rfl
    | vectorsFree dev =>
      obtain ⟨hidle, hshape, -⟩ := pciIrqVectorsFree_ledger s.pcie (s.devs dev) (hled.shape dev)
      refine iff_of_false (not_vecAttached_of_idle hshape hidle) ?_
      simp [IrqCall.Detaches, IrqCall.Attaches, IrqCall.target]
    | addServer dev vec isr =>
      refine (attached_addServer_iff hled vec isr).trans ?_
      simp only [IrqCall.Detaches, IrqCall.Attaches, IrqCall.target, not_false_eq_true, and_true,
        true_and, @eq_comm _ v vec]
      exact Iff.rfl
    | remServer dev vec isr =>
      obtain ⟨gone, rfl⟩ := Option.ne_none_iff_exists'.1 hc
      refine (attached_remServer_iff hled vec gone).trans ?_
      simp only [IrqCall.Detaches, IrqCall.Attaches, IrqCall.target, true_and, or_false,
        Option.some.injEq, @eq_comm _ v vec]
      exact Iff.rfl
    | vecMask dev vec =>
      obtain ⟨hmsi, hactive, -⟩ := (pciIrqVecMask_outcome s.pcie (s.devs dev) vec).same
      simp only [IrqCall.Detaches, IrqCall.Attaches, not_false_eq_true, and_true, or_false]
      exact vecAttached_congr hactive fun _ _ => congrArg (fun msi : PcieMsi => msi.servers _) hmsi
    | vecUnmask dev vec =>
      obtain ⟨hmsi, hactive, -⟩ := (pciIrqVecUnmask_outcome s.pcie (s.devs dev) vec).same
      simp only [IrqCall.Detaches, IrqCall.Attaches, not_false_eq_true, and_true, or_false]
      exact vecAttached_congr hactive fun _ _ => congrArg (fun msi : PcieMsi => msi.servers _) hmsi
  · rw [attached_irqStep_of_ne hled hi]
    have hdet : ¬ c.Detaches i v server := by
      cases c <;> simp only [IrqCall.Detaches, not_false_eq_true] <;>
        exact fun h => hi (by simp_all [IrqCall.target])
    have hatt : ¬ c.Attaches s i v server := by
      cases c <;> simp only [IrqCall.Attaches, not_false_eq_true]
      exact fun h => hi h.1.symm
    simp only [hdet, hatt, not_false_eq_true, and_true, or_false]

/-- A device with an allocation keeps it until it is freed. -/
theorem same_irqStep {c : IrqCall ι} (hbusy : (s.devs i).active.mode ≠ .idle)
    (hfree : c ≠ .vectorsFree i) :
    (s.devs i).active.Same ((irqStep s c).devs i).active := by
  unfold irqStep
  by_cases hi : i = c.target
  · subst hi
    rw [put_devs_self]
    cases c with
    | vectorsAlloc dev min max flags =>
      have hout := pciIrqVectorsAlloc_outcome s.pcie (s.devs dev) min max flags
      simp only [IrqCall.apply, IrqCall.target] at hbusy ⊢
      generalize pciIrqVectorsAlloc s.pcie (s.devs dev) min max flags = r at hout ⊢
      -- a device that has an allocation is granted none, so only a refusal is left
      cases hout with
      | refused e slots hslots => exact ⟨rfl, rfl, hslots hbusy⟩
      | msix n slots used hidle => exact absurd hidle hbusy
      | msi k base slots used hidle => exact absurd hidle hbusy
      | intx slots hidle => exact absurd hidle hbusy
    | vectorsFree dev => exact absurd rfl hfree
    | addServer dev vec isr =>
      have hout := pciIrqAddServer_outcome s.pcie (s.devs dev) vec isr
      simp only [IrqCall.apply, IrqCall.target]
      generalize pciIrqAddServer s.pcie (s.devs dev) vec isr = r at hout ⊢
      cases hout with
      | badVec => exact IrqAlloc.Same.refl _
      | busy => exact IrqAlloc.Same.refl _
      | gicRefused => exact IrqAlloc.Same.refl _
      | intx =>
        rw [pciIntx_active, setIntxServer_active]
        exact ⟨rfl, rfl, rfl⟩
      | slot =>
        rw [(pciIrqVecOpen_sameRecord (s.devs dev) vec).active]
        exact IrqAlloc.Same.refl _
    | remServer dev vec isr =>
      simp only [IrqCall.apply, IrqCall.target]
      rw [pciIrqRemServer_active]
      exact ⟨rfl, rfl, rfl⟩
    | vecMask dev vec =>
      simp only [IrqCall.apply, IrqCall.target]
      rw [(pciIrqVecMask_outcome s.pcie (s.devs dev) vec).same.2.1]
      exact IrqAlloc.Same.refl _
    | vecUnmask dev vec =>
      simp only [IrqCall.apply, IrqCall.target]
      rw [(pciIrqVecUnmask_outcome s.pcie (s.devs dev) vec).same.2.1]
      exact IrqAlloc.Same.refl _
  · rw [put_devs_of_ne _ _ _ _ hi]
    exact IrqAlloc.Same.refl _

/-! ## The library calls -/

/-- The call attaches `server` to vector `v` of device `i`: it is one of the two calls that add a
server, and succeeds. -/
def LibCall.Attaches (s : IrqState ι σ) (i : ι) (v : ℕ) (server : Interrupt) : LibCall ι → Prop
  | .vector (.addIntVectorServer dev vec isr) => dev = some i ∧ vec = v ∧ isr = some server ∧
      (libAddIntVectorServer s dev vec isr).2 = pcieOk
  | .addIntServer isr dev => dev = some i ∧ v = 0 ∧ isr = some server ∧
      (libAddIntServer s isr dev).2 = true
  | _ => False

omit [DecidableEq ι] [Gic400 σ] in
/-- The call takes `server` from vector `v` of device `i` if it is attached there. The obsolete
removal frees the whole device, whatever server it is given. -/
def LibCall.Detaches (i : ι) (v : ℕ) (server : Interrupt) : LibCall ι → Prop
  | .vector (.freeIntVectors dev) => dev = some i
  | .vector (.remIntVectorServer dev vec isr) => dev = some i ∧ vec = v ∧ isr = some server
  | .remIntServer isr dev => dev = some i ∧ isr ≠ none
  | _ => False

omit [DecidableEq ι] [Gic400 σ] in
/-- The call is one a client of `server` on vector `v` of device `i` ends its use with: it frees the
device, or names the server. -/
def LibCall.Names (i : ι) (v : ℕ) (server : Interrupt) : LibCall ι → Prop
  | .vector (.freeIntVectors dev) => dev = some i
  | .vector (.remIntVectorServer dev vec isr) => dev = some i ∧ vec = v ∧ isr = some server
  | .remIntServer isr dev => dev = some i ∧ isr = some server
  | _ => False

omit [DecidableEq ι] [Gic400 σ] in
/-- A call that names a server detaches it. -/
theorem LibCall.Names.detaches {c : LibCall ι} (h : c.Names i v server) :
    c.Detaches i v server := by
  cases c with
  | vector c => cases c <;> exact h
  | remIntServer isr dev => exact ⟨h.1, by rw [h.2]; simp⟩
  | addIntServer | enableMSI | disableMSI | maskMSI | unmaskMSI | checkSetINTxMask => exact h

/-- The two core calls of `pci_add_intserver`, and the one that undoes the first. -/
theorem libAddIntServer_eq (s : IrqState ι σ) (server : Interrupt) (dev : ι) :
    libAddIntServer s (some server) (some dev)
      = let flags := if (s.devs dev).intx.preferMsi then pciIrqMsi ||| pciIrqIntx else pciIrqIntx
        let s₁ := irqStep s (.vectorsAlloc dev 1 1 flags)
        match (pciIrqVectorsAlloc s.pcie (s.devs dev) 1 1 flags).2.2 with
        | .ok 1 =>
          let s₂ := irqStep s₁ (.addServer dev 0 (some server))
          match (pciIrqAddServer s₁.pcie (s₁.devs dev) 0 (some server)).2.2 with
          | .ok () => (s₂, true)
          | .error _ => (irqStep s₂ (.vectorsFree dev), false)
        | _ => (s₁, false) := rfl

omit [DecidableEq ι] [Gic400 σ] in
/-- An allocation is granted to a device without one. -/
theorem AllocOutcome.idle_of_ok {pcie : PciController σ} {dev : PciDevice} {min max n : ℕ}
    {flags : BitVec 32} {r : PciController σ × PciDevice × Except Errno ℕ}
    (hout : AllocOutcome pcie dev min max flags r) (hok : r.2.2 = .ok n) :
    dev.active.mode = .idle := by
  cases hout with
  | refused => exact absurd hok (by simp)
  | msix n slots used hidle => exact hidle
  | msi k base slots used hidle => exact hidle
  | intx slots hidle => exact hidle

/-- What the typed calls make of the attached servers. -/
theorem attached_vectorStep_iff (hled : s.SlotsOwned) (c : VectorCall ι) :
    (vectorStep s c).Attached i v server ↔
      (s.Attached i v server ∧ ¬ (LibCall.vector c).Detaches i v server) ∨
        (LibCall.vector c).Attaches s i v server := by
  rw [vectorStep_eq]
  cases hc : c.core with
  | none =>
    -- a `NULL` argument: nothing is named
    have hnone : ¬ (LibCall.vector c).Detaches i v server ∧
        ¬ (LibCall.vector c).Attaches s i v server := by
      cases c with
      | allocIntVectors | maskIntVector | unmaskIntVector => exact ⟨not_false, not_false⟩
      | freeIntVectors dev =>
        obtain rfl := Option.map_eq_none_iff.1 hc
        exact ⟨fun h => absurd h (by simp [LibCall.Detaches]), not_false⟩
      | addIntVectorServer dev vec isr =>
        cases dev <;> cases isr <;> simp_all [VectorCall.core, LibCall.Detaches, LibCall.Attaches]
      | remIntVectorServer dev vec isr =>
        cases dev <;> cases isr <;> simp_all [VectorCall.core, LibCall.Detaches, LibCall.Attaches]
    simp only [Option.map_none, Option.getD_none, hnone.1, hnone.2, not_false_eq_true, and_true,
      or_false]
  | some c' =>
    rw [Option.map_some, Option.getD_some, attached_irqStep_iff hled (VectorCall.hasServer hc)]
    have hsame : (c'.Detaches i v server ↔ (LibCall.vector c).Detaches i v server) ∧
        (c'.Attaches s i v server ↔ (LibCall.vector c).Attaches s i v server) := by
      cases c with
      | allocIntVectors dev | maskIntVector dev | unmaskIntVector dev =>
        obtain ⟨j, rfl, rfl⟩ := Option.map_eq_some_iff.1 hc
        exact ⟨Iff.rfl, Iff.rfl⟩
      | freeIntVectors dev =>
        obtain ⟨j, rfl, rfl⟩ := Option.map_eq_some_iff.1 hc
        exact ⟨by simp [LibCall.Detaches, IrqCall.Detaches], Iff.rfl⟩
      | addIntVectorServer dev vec isr =>
        cases dev <;> cases isr <;> simp only [VectorCall.core, reduceCtorEq, Option.some.injEq] at hc
        subst hc
        refine ⟨Iff.rfl, ?_⟩
        simp only [LibCall.Attaches, IrqCall.Attaches, Option.some.injEq, libAddIntVectorServer]
        refine and_congr_right fun _ => and_congr_right fun _ => and_congr_right fun _ => ?_
        split
        · rename_i hr
          simp [hr]
        · rename_i e hr
          have := pcieErr_neg e
          simp only [hr, reduceCtorEq, pcieOk, false_iff]
          omega
      | remIntVectorServer dev vec isr =>
        cases dev <;> cases isr <;> simp only [VectorCall.core, reduceCtorEq, Option.some.injEq] at hc
        subst hc
        exact ⟨by simp [LibCall.Detaches, IrqCall.Detaches], Iff.rfl⟩
    rw [hsame.1, hsame.2]

/-- What `pci_add_intserver` makes of the attached servers: the vector it undoes was free before. -/
theorem attached_addIntServer_iff (hled : s.SlotsOwned) (isr : Option Interrupt) (dev : Option ι) :
    (libAddIntServer s isr dev).1.Attached i v server ↔
      s.Attached i v server ∨ (LibCall.addIntServer isr dev).Attaches s i v server := by
  -- a null device or server is refused at entry
  have hnull : (libAddIntServer s isr dev).2 = false →
      ¬ (LibCall.addIntServer isr dev).Attaches s i v server := by
    rintro hfalse ⟨-, -, -, htrue⟩
    exact absurd (hfalse.symm.trans htrue) (by decide)
  obtain _ | new := isr
  · exact (or_iff_left (hnull rfl)).symm
  obtain _ | j := dev
  · exact (or_iff_left (hnull rfl)).symm
  simp only [LibCall.Attaches, Option.some.injEq]
  rw [libAddIntServer_eq]
  dsimp only
  -- the flags do not matter: only whether the single vector was granted
  generalize (if (s.devs j).intx.preferMsi then pciIrqMsi ||| pciIrqIntx else pciIrqIntx) = flags
  have hout := pciIrqVectorsAlloc_outcome s.pcie (s.devs j) 1 1 flags
  have hled₁ := slotsOwned_irqStep hled (.vectorsAlloc j 1 1 flags)
  have halloc : (irqStep s (.vectorsAlloc j 1 1 flags)).Attached i v server ↔
      s.Attached i v server := by
    refine (attached_irqStep_iff hled (c := .vectorsAlloc j 1 1 flags) trivial).trans ?_
    simp only [IrqCall.Detaches, IrqCall.Attaches, not_false_eq_true, and_true, or_false]
  generalize irqStep s (.vectorsAlloc j 1 1 flags) = s₁ at hled₁ halloc ⊢
  split
  · rename_i hok
    have hidle := hout.idle_of_ok hok
    have hadd := @attached_irqStep_iff _ _ s₁ i v server _ _ hled₁ (.addServer j 0 (some new))
      (Option.some_ne_none _)
    simp only [IrqCall.Detaches, IrqCall.Attaches, not_false_eq_true, and_true, halloc] at hadd
    have hled₂ := slotsOwned_irqStep hled₁ (.addServer j 0 (some new))
    generalize irqStep s₁ (.addServer j 0 (some new)) = s₂ at hled₂ hadd ⊢
    split
    · rename_i hadded
      rw [hadd, hadded]
      simp only [and_true, Option.some.injEq, @eq_comm _ 0 v]
    · rename_i e hfail
      -- the undo frees the device, which had no allocation and so no server before the call
      rw [attached_irqStep_iff hled₂ (c := .vectorsFree j) trivial, hadd, hfail]
      simp only [IrqCall.Detaches, IrqCall.Attaches, reduceCtorEq, and_false, or_false,
        Bool.false_eq_true, and_iff_left_iff_imp]
      rintro hat rfl
      exact not_vecAttached_of_idle (hled.shape j) hidle hat
  · simpa only [Bool.false_eq_true, and_false, or_false] using halloc

omit [Gic400 σ] in
/-- A change that keeps the demux state and the allocation of a device keeps its servers. -/
theorem attached_put_same (s : IrqState ι σ) (j : ι) {dev : PciDevice}
    (hactive : dev.active = (s.devs j).active) :
    (s.put j s.pcie dev).Attached i v server ↔ s.Attached i v server := by
  by_cases hi : i = j
  · subst hi
    unfold IrqState.Attached
    rw [put_pcie, put_devs_self]
    exact vecAttached_congr hactive fun _ _ => rfl
  · unfold IrqState.Attached
    rw [put_pcie, put_devs_of_ne _ _ _ _ hi]

/-- **The attached servers after a library call**: those that were and are not taken away, and the
one that is attached. -/
theorem attached_libStep_iff (hled : s.SlotsOwned) (c : LibCall ι) :
    (libStep s c).Attached i v server ↔
      (s.Attached i v server ∧ ¬ c.Detaches i v server) ∨ c.Attaches s i v server := by
  have hsame : ∀ {t : IrqState ι σ}, (t.Attached i v server ↔ s.Attached i v server) →
      (t.Attached i v server ↔ (s.Attached i v server ∧ ¬ False) ∨ False) := by
    intro t ht
    rw [ht, not_false_eq_true, and_true, or_false]
  cases c with
  | vector c => exact attached_vectorStep_iff hled c
  | addIntServer isr dev =>
    refine (attached_addIntServer_iff hled isr dev).trans ?_
    simp only [LibCall.Detaches, not_false_eq_true, and_true]
  | remIntServer isr dev =>
    obtain _ | gone := isr
    · refine (hsame Iff.rfl).trans ?_
      simp only [LibCall.Detaches, LibCall.Attaches, ne_eq, not_true_eq_false, and_false]
    obtain _ | j := dev
    · refine (hsame Iff.rfl).trans ?_
      simp only [LibCall.Detaches, LibCall.Attaches, reduceCtorEq, false_and]
    -- the second of its two core calls frees the device
    have hled' := slotsOwned_vectorStep s (.remIntVectorServer (some j) 0 (some gone)) hled
    refine (attached_vectorStep_iff hled' (.freeIntVectors (some j))).trans ?_
    rw [attached_vectorStep_iff hled]
    simp only [LibCall.Detaches, LibCall.Attaches, Option.some.injEq, or_false, ne_eq, reduceCtorEq,
      not_false_eq_true, and_true, and_assoc]
    refine and_congr_right fun _ => and_iff_right_of_imp ?_
    exact fun hne h => hne h.1
  | enableMSI dev =>
    obtain _ | j := dev
    · exact hsame Iff.rfl
    · simp only [libStep, libEnableMSI]
      split
      · exact hsame Iff.rfl
      · exact hsame (attached_put_same s j rfl)
  | disableMSI dev =>
    obtain _ | j := dev
    · exact hsame Iff.rfl
    · exact hsame (attached_put_same s j rfl)
  | maskMSI dev => exact attached_vectorStep_iff hled (.maskIntVector dev 0)
  | unmaskMSI dev => exact attached_vectorStep_iff hled (.unmaskIntVector dev 0)
  | checkSetINTxMask dev mask =>
    obtain _ | j := dev
    · exact hsame Iff.rfl
    · exact hsame (attached_put_same s j (pciIntx_active _ _))

omit [Gic400 σ] in
/-- The calls that only write registers of one device leave every allocation. -/
theorem same_put (s : IrqState ι σ) (i j : ι) {dev : PciDevice}
    (hactive : dev.active = (s.devs j).active) :
    (s.devs i).active.Same ((s.put j s.pcie dev).devs i).active := by
  by_cases hi : i = j
  · subst hi
    rw [put_devs_self, hactive]
    exact IrqAlloc.Same.refl _
  · rw [put_devs_of_ne _ _ _ _ hi]
    exact IrqAlloc.Same.refl _

/-- A vector call is one core call, and of those only the free call drops an allocation. -/
theorem same_vectorStep (hbusy : (s.devs i).active.mode ≠ .idle) (c : VectorCall ι)
    (hfree : ∀ dev, c = .freeIntVectors dev → dev ≠ some i) :
    (s.devs i).active.Same ((vectorStep s c).devs i).active := by
  rw [vectorStep_eq]
  cases hc : c.core with
  | none => exact IrqAlloc.Same.refl _
  | some c' =>
    refine same_irqStep hbusy ?_
    rintro rfl
    cases c with
    | freeIntVectors dev =>
      obtain ⟨j, rfl, hj⟩ := Option.map_eq_some_iff.1 hc
      obtain rfl : j = i := by simpa using hj
      exact hfree _ rfl rfl
    | addIntVectorServer dev vec isr =>
      cases dev <;> cases isr <;> exact absurd hc (by simp [VectorCall.core])
    | remIntVectorServer dev vec isr =>
      cases dev <;> cases isr <;> exact absurd hc (by simp [VectorCall.core])
    | allocIntVectors | maskIntVector | unmaskIntVector => simp [VectorCall.core] at hc

/-- `AddIntServer` allocates for an idle device, and so leaves one that is not. -/
theorem same_addIntServer (hbusy : (s.devs i).active.mode ≠ .idle) (isr : Interrupt) (j : ι) :
    (s.devs i).active.Same ((libAddIntServer s (some isr) (some j)).1.devs i).active := by
  rw [libAddIntServer_eq]
  dsimp only
  generalize (if (s.devs j).intx.preferMsi then pciIrqMsi ||| pciIrqIntx else pciIrqIntx) = flags
  have hout := pciIrqVectorsAlloc_outcome s.pcie (s.devs j) 1 1 flags
  have halloc : (s.devs i).active.Same
      ((irqStep s (.vectorsAlloc j 1 1 flags)).devs i).active := same_irqStep hbusy (by simp)
  split
  · -- the allocation was granted, so it was another device's
    rename_i hok
    have hi : i ≠ j := by
      rintro rfl
      exact hbusy (hout.idle_of_ok hok)
    have hother : ∀ (t : IrqState ι σ) (c : IrqCall ι), c.target = j →
        (irqStep t c).devs i = t.devs i := by
      rintro t c rfl
      exact put_devs_of_ne _ _ _ _ hi
    split
    · rw [hother _ (.addServer j 0 (some isr)) rfl]
      exact halloc
    · rw [hother _ (.vectorsFree j) rfl, hother _ (.addServer j 0 (some isr)) rfl]
      exact halloc
  · exact halloc

/-- A device with an attached server keeps its allocation as long as the server stays attached. -/
theorem same_libStep (hled : s.SlotsOwned) (c : LibCall ι) (h : s.Attached i v server)
    (hnot : ¬ c.Detaches i v server) :
    (s.devs i).active.Same ((libStep s c).devs i).active := by
  have hbusy : (s.devs i).active.mode ≠ .idle := h.mode_ne_idle (hled.shape i)
  cases c with
  | vector c =>
    refine same_vectorStep hbusy c ?_
    rintro dev rfl hdev
    exact hnot hdev
  | addIntServer isr dev =>
    obtain _ | new := isr
    · exact IrqAlloc.Same.refl _
    obtain _ | j := dev
    · exact IrqAlloc.Same.refl _
    exact same_addIntServer hbusy new j
  | remIntServer isr dev =>
    obtain _ | gone := isr
    · exact IrqAlloc.Same.refl _
    obtain _ | j := dev
    · exact IrqAlloc.Same.refl _
    -- a removal on the device itself frees it, and so detaches the server
    have hi : i ≠ j := by
      rintro rfl
      exact hnot ⟨rfl, by simp⟩
    simp only [libStep, libRemIntServer, libFreeIntVectors, libRemIntVectorServer]
    rw [put_devs_of_ne _ _ _ _ hi, put_devs_of_ne _ _ _ _ hi]
    exact IrqAlloc.Same.refl _
  | enableMSI dev =>
    obtain _ | j := dev
    · exact IrqAlloc.Same.refl _
    · simp only [libStep, libEnableMSI]
      split
      · exact IrqAlloc.Same.refl _
      · exact same_put s i j rfl
  | disableMSI dev =>
    obtain _ | j := dev
    · exact IrqAlloc.Same.refl _
    · exact same_put s i j rfl
  | maskMSI dev => exact same_vectorStep hbusy (.maskIntVector dev 0) (by simp)
  | unmaskMSI dev => exact same_vectorStep hbusy (.unmaskIntVector dev 0) (by simp)
  | checkSetINTxMask dev mask =>
    obtain _ | j := dev
    · exact IrqAlloc.Same.refl _
    · exact same_put s i j (pciIntx_active _ _)

/-! ## Runs -/

/-- The remove call names a server that is not attached where the call says. -/
def LibCall.RemovesUnattached (s : IrqState ι σ) : LibCall ι → Prop
  | .vector (.remIntVectorServer (some i) v (some server)) => ¬ s.Attached i v server
  | .remIntServer (some server) (some i) => ∀ v, ¬ s.Attached i v server
  | _ => False

/-- What clients are promised of a run of library calls from a state: an attached server stays, and
its device keeps the allocation, until the device is freed or the server named; a remove call that
names a server which is not attached changes nothing. -/
structure ServersKept (s : IrqState ι σ) (cs : List (LibCall ι)) : Prop where
  stays : ∀ (pre : List (LibCall ι)) (c : LibCall ι) (mid post : List (LibCall ι)) (i : ι) (v : ℕ)
      (server : Interrupt), cs = pre ++ c :: mid ++ post →
    c.Attaches (run libStep s pre) i v server → (∀ c' ∈ mid, ¬ c'.Names i v server) →
      (run libStep s (pre ++ c :: mid)).Attached i v server ∧
        ((run libStep s (pre ++ [c])).devs i).active.Same
          ((run libStep s (pre ++ c :: mid)).devs i).active
  ignored : ∀ (pre : List (LibCall ι)) (c : LibCall ι) (post : List (LibCall ι)),
    cs = pre ++ c :: post → c.RemovesUnattached (run libStep s pre) →
      libStep (run libStep s pre) c = run libStep s pre

/-- Where `pci_rem_intserver` is harmless: the device has no allocation, or the server it is given is
attached to it and no other is. -/
def RemovesOwn (s : IrqState ι σ) : LibCall ι → Prop
  | .remIntServer (some server) (some i) => (s.devs i).active.mode = .idle ∨
      (∃ v, s.Attached i v server) ∧ ∀ v other, s.Attached i v other → other = server
  | _ => True

/-- Teardown of a device without an allocation does nothing. -/
theorem pciIrqVectorsFree_of_idle (pcie : PciController σ) {dev : PciDevice}
    (hshape : AllocShape dev.active) (hidle : dev.active.mode = .idle) :
    pciIrqVectorsFree pcie dev = (pcie, dev) := by
  have hnvec : dev.active.nvec = 0 := hshape.idle hidle
  have hdetach : detachServers pcie dev 0 = (pcie, dev) := rfl
  have hoff : switchOff dev = dev := by
    rw [switchOff, if_neg (by rw [hidle]; decide), if_neg (by rw [hidle]; decide)]
  rw [pciIrqVectorsFree, hnvec, hdetach]
  dsimp only
  rw [hoff, if_pos (by rw [hidle]; decide), hnvec, setActive_of_eq hidle hnvec]
  rfl

omit [DecidableEq ι] [Gic400 σ] in
/-- A harmless call takes away none but the server it names. -/
theorem not_detaches_of_removesOwn {c : LibCall ι} (hled : s.SlotsOwned) (hC : RemovesOwn s c)
    (h : s.Attached i v server) (hnot : ¬ c.Names i v server) : ¬ c.Detaches i v server := by
  intro hdet
  cases c with
  | vector c =>
    cases c with
    | freeIntVectors | remIntVectorServer => exact hnot hdet
    | allocIntVectors | addIntVectorServer | maskIntVector | unmaskIntVector => exact hdet
  | remIntServer isr dev =>
    obtain ⟨rfl, hisr⟩ := hdet
    obtain ⟨gone, rfl⟩ := Option.ne_none_iff_exists'.1 hisr
    obtain hidle | ⟨-, hall⟩ := hC
    · exact h.mode_ne_idle (hled.shape i) hidle
    · exact hnot ⟨rfl, by rw [hall v server h]⟩
  | addIntServer | enableMSI | disableMSI | maskMSI | unmaskMSI | checkSetINTxMask => exact hdet

/-- A harmless call that names a server which is not attached changes nothing. -/
theorem libStep_of_removesUnattached {c : LibCall ι} (hled : s.SlotsOwned) (hC : RemovesOwn s c)
    (hun : c.RemovesUnattached s) : libStep s c = s := by
  cases c with
  | vector c =>
    cases c with
    | remIntVectorServer dev vec isr =>
      obtain _ | j := dev
      · exact absurd hun not_false
      obtain _ | gone := isr
      · exact absurd hun not_false
      simp only [libStep, vectorStep, libRemIntVectorServer]
      rw [pciIrqRemServer_of_not_attached hun, put_self]
    | _ => exact absurd hun not_false
  | remIntServer isr dev =>
    obtain _ | gone := isr
    · exact absurd hun not_false
    obtain _ | j := dev
    · exact absurd hun not_false
    obtain hidle | ⟨⟨w, hat⟩, -⟩ := hC
    · simp only [libStep, libRemIntServer, libRemIntVectorServer, libFreeIntVectors]
      rw [pciIrqRemServer_of_not_attached (hun 0), put_self,
        pciIrqVectorsFree_of_idle s.pcie (hled.shape j) hidle, put_self]
    · exact absurd hat (hun w)
  | _ => exact absurd hun not_false

/-- An attached server stays through harmless calls that do not name it. -/
theorem attached_run (hled : s.SlotsOwned) (h : s.Attached i v server) (cs : List (LibCall ι))
    (hC : EveryStep libStep RemovesOwn s cs) (hnot : ∀ c ∈ cs, ¬ c.Names i v server) :
    (run libStep s cs).Attached i v server ∧
      (s.devs i).active.Same ((run libStep s cs).devs i).active := by
  induction cs generalizing s with
  | nil => exact ⟨h, IrqAlloc.Same.refl _⟩
  | cons c cs ih =>
    have hdet := not_detaches_of_removesOwn hled hC.1 h (hnot c List.mem_cons_self)
    have hnext := (attached_libStep_iff hled c).2 (Or.inl ⟨h, hdet⟩)
    have hsame := same_libStep hled c h hdet
    obtain ⟨hat, hrest⟩ := ih (slotsOwned_libStep s c hled) hnext hC.2
      fun c' hc' => hnot c' (List.mem_cons_of_mem c hc')
    exact ⟨hat, hsame.trans hrest⟩

/-- An attached server was attached by a call, and not taken away since. -/
theorem exists_attaches (hled : s.SlotsOwned) (hnone : ¬ s.Attached i v server)
    (cs : List (LibCall ι)) (h : (run libStep s cs).Attached i v server) :
    ∃ pre c mid, cs = pre ++ c :: mid ∧ c.Attaches (run libStep s pre) i v server ∧
      ∀ c' ∈ mid, ¬ c'.Names i v server := by
  induction cs using List.reverseRecOn with
  | nil => exact absurd h hnone
  | append_singleton cs c ih =>
    have hled' : (run libStep s cs).SlotsOwned :=
      run_invariant (P := IrqState.SlotsOwned) slotsOwned_libStep s cs hled
    rw [run_append, run_cons, run_nil] at h
    obtain ⟨hbefore, hdet⟩ | hatt := (attached_libStep_iff hled' c).1 h
    · obtain ⟨pre, c₀, mid, rfl, hatt, hmid⟩ := ih hbefore
      refine ⟨pre, c₀, mid ++ [c], by simp, hatt, fun c' hc' => ?_⟩
      obtain hin | hlast := List.mem_append.1 hc'
      · exact hmid c' hin
      · obtain rfl := List.mem_singleton.1 hlast
        exact fun hnames => hdet (LibCall.Names.detaches hnames)
    · exact ⟨cs, c, [], rfl, hatt, fun c' hc' => absurd hc' List.not_mem_nil⟩

/-- After `pci_rem_intserver` the device has no allocation. -/
theorem libRemIntServer_mode (hled : s.SlotsOwned) (gone : Interrupt) (i : ι) :
    ((libRemIntServer s (some gone) (some i)).devs i).active.mode = .idle := by
  have hled' := slotsOwned_vectorStep s (.remIntVectorServer (some i) 0 (some gone)) hled
  have hfree := pciIrqVectorsFree_ledger
    (vectorStep s (.remIntVectorServer (some i) 0 (some gone))).pcie
    ((vectorStep s (.remIntVectorServer (some i) 0 (some gone))).devs i) (hled'.shape i)
  simp only [libRemIntServer, libFreeIntVectors]
  rw [put_devs_self]
  exact hfree.1

/-- **Exact condition.** From probe, the promise is kept in just the runs in which every
`pci_rem_intserver` finds the device without an allocation, or its own server attached there and no
other. -/
theorem serversKept_iff (h : Probed s) (cs : List (LibCall ι)) :
    ServersKept s cs ↔ EveryStep libStep RemovesOwn s cs := by
  have hled := h.slotsOwned
  have hledger : ∀ pre : List (LibCall ι), (run libStep s pre).SlotsOwned := fun pre =>
    run_invariant (P := IrqState.SlotsOwned) slotsOwned_libStep s pre hled
  constructor
  -- a step that breaks the condition breaks one of the two promises: the cases are which server the
  -- call names
  · intro hkept
    rw [everyStep_iff_forall_split]
    rintro pre c post rfl
    by_contra hbad
    cases c with
    | remIntServer isr dev =>
      obtain _ | gone := isr
      · exact hbad trivial
      obtain _ | j := dev
      · exact hbad trivial
      simp only [RemovesOwn, not_or] at hbad
      obtain ⟨hbusy, hother⟩ := hbad
      have hidle := libRemIntServer_mode (hledger pre) gone j
      by_cases hown : ∃ v, (run libStep s pre).Attached j v gone
      · -- another server is attached; the run that attached it, and this call, take it away
        have hstranger : ∃ v other, (run libStep s pre).Attached j v other ∧ other ≠ gone := by
          by_contra hnone
          refine hother ⟨hown, fun v other hat => ?_⟩
          by_contra hne
          exact hnone ⟨v, other, hat, hne⟩
        obtain ⟨v, other, hat, hne⟩ := hstranger
        -- no device has a server at probe, so some earlier call attached this one
        have hfresh : ¬ s.Attached j v other := by
          refine not_vecAttached_of_idle (hled.shape j) ?_
          rw [(h.devs j).decoded.1]
        obtain ⟨pre', c₀, mid, rfl, hatt, hmid⟩ := exists_attaches hled hfresh pre hat
        have hstays := hkept.stays pre' c₀ (mid ++ [.remIntServer (some gone) (some j)]) post j v
          other (by simp) hatt fun c' hc' => ?_
        · have hlast := hstays.1
          rw [← List.cons_append, ← List.append_assoc, run_append, run_cons, run_nil] at hlast
          have hled' := slotsOwned_libStep _ (.remIntServer (some gone) (some j))
            (hledger (pre' ++ c₀ :: mid))
          exact not_vecAttached_of_idle (hled'.shape j) hidle hlast
        · obtain hin | hlast := List.mem_append.1 hc'
          · exact hmid c' hin
          · obtain rfl := List.mem_singleton.1 hlast
            rintro ⟨-, hnames⟩
            exact hne (Option.some.inj hnames).symm
      · -- the server named is not attached, yet the device loses its allocation
        have hsame := hkept.ignored pre (.remIntServer (some gone) (some j)) post rfl fun v hat =>
          hown ⟨v, hat⟩
        rw [libStep] at hsame
        rw [hsame] at hidle
        exact hbusy hidle
    | _ => exact hbad trivial
  -- conversely, a run is split at the call in question and the promise is read off its rest
  · intro hall
    refine ⟨?_, ?_⟩
    · rintro pre c mid post i v server rfl hatt hnot
      rw [List.append_assoc, everyStep_append, List.cons_append, everyStep_cons, everyStep_append]
        at hall
      have hat := (attached_libStep_iff (hledger pre) c).2 (Or.inr hatt)
      have hrun := attached_run (slotsOwned_libStep _ c (hledger pre)) hat mid hall.2.2.1 hnot
      rwa [run_append, run_append, run_cons, run_cons, run_nil]
    · rintro pre c post rfl hun
      rw [everyStep_append, everyStep_cons] at hall
      exact libStep_of_removesUnattached (hledger pre) hall.2.1 hun

end Calls

/-- A client holds an MSI vector of the device; another one's `pci_add_intserver` is refused, and the
`pci_rem_intserver` of its cleanup takes the first client's server away. -/
def strangerCalls : List (LibCall Bool) :=
  [.vector (.allocIntVectors (some true) 1 1 pciIrqMsi),
    .vector (.addIntVectorServer (some true) 0 (some ⟨0x1000⟩)),
    .addIntServer (some ⟨0x2000⟩) (some true), .remIntServer (some ⟨0x2000⟩) (some true)]

/-- A server is lost in the sample run. -/
theorem serversKept_fails_sample : ¬ ServersKept sampleState strangerCalls := by
  intro h
  have hatt : (LibCall.vector (.addIntVectorServer (some true) 0 (some ⟨0x1000⟩))).Attaches
      (run libStep sampleState [.vector (.allocIntVectors (some true) 1 1 pciIrqMsi)]) true 0
      ⟨0x1000⟩ := ⟨rfl, rfl, rfl, by decide +kernel⟩
  have hstays := h.stays _ _ [.addIntServer (some ⟨0x2000⟩) (some true),
    .remIntServer (some ⟨0x2000⟩) (some true)] [] true 0 ⟨0x1000⟩ rfl hatt (by simp [LibCall.Names])
  have hgone : ¬ (run libStep sampleState strangerCalls).Attached true 0 ⟨0x1000⟩ := by
    decide +kernel
  exact hgone hstays.1

/-- One client after the other on one device, each with its own calls. -/
theorem serversKept_sample :
    ServersKept sampleState [.addIntServer (some ⟨0x1000⟩) (some true),
      .remIntServer (some ⟨0x1000⟩) (some true), .addIntServer (some ⟨0x2000⟩) (some true)] := by
  refine (serversKept_iff sampleState_probed _).2 ⟨trivial, Or.inr ⟨⟨0, by decide +kernel⟩, ?_⟩,
    trivial, trivial⟩
  rintro v other ⟨hv, hserver⟩
  have hone : ((libStep sampleState (.addIntServer (some ⟨0x1000⟩) (some true))).devs
      true).active.nvec = 1 := by decide +kernel
  have hzero : v = 0 := by omega
  subst hzero
  have hfirst : pciIrqVecServer
      (libStep sampleState (.addIntServer (some ⟨0x1000⟩) (some true))).pcie
      ((libStep sampleState (.addIntServer (some ⟨0x1000⟩) (some true))).devs true) 0
      = some ⟨0x1000⟩ := by decide +kernel
  exact Option.some.inj (hserver.symm.trans hfirst)

end BcmPcie
