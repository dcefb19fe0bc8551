import BcmPcie.Irq.State

/-! # Slot ownership

The slot pool of the controller and the vectors of its devices are one ledger: a reserved slot is
the slot of exactly one vector of one device. The ledger is stated of the demux state and of the
allocation record of each device (`SlotsOwned`), with one lemma for each way a call edits it — the
owners stay, a device claims free slots, a device gives its slots back — and holds in every
state reached from probe.

* `slotsOwned_irqStep` — every call keeps the ledger.
* `slotsOwned_run` — it holds after every sequence of calls, and is empty once every device is free.
-/

namespace BcmPcie

open BitSet Runs

variable {ι σ : Type*}

/-! ## The ledger -/

/-- The types whose vectors sit on demux slots. -/
def UsesSlots (mode : IrqMode) : Prop := mode = .msi ∨ mode = .msix

instance (mode : IrqMode) : Decidable (UsesSlots mode) := inferInstanceAs (Decidable (_ ∨ _))

/-- Vector `v` of an allocation is on demux slot `j`. -/
def IrqAlloc.Owns (a : IrqAlloc) (v j : ℕ) : Prop := UsesSlots a.mode ∧ v < a.nvec ∧ a.slots v = j

/-- What each type of allocation looks like by itself. -/
structure AllocShape (a : IrqAlloc) : Prop where
  idle : a.mode = .idle → a.nvec = 0
  intx : a.mode = .intx → a.nvec = 1
  /-- An MSI block is contiguous, of a power of two slots, and aligned to its length. -/
  msi : a.mode = .msi →
    ∃ k base, a.nvec = 2 ^ k ∧ 2 ^ k ∣ base ∧ ∀ v < a.nvec, a.slots v = base + v
  intxServer : a.intxServer ≠ none → a.mode = .intx

/-- **The ledger.** The reserved slots are those of the vectors, one vector to a slot, and only such a
slot has a server. -/
structure SlotsOwned (msi : PcieMsi) (allocs : ι → IrqAlloc) : Prop where
  shape : ∀ i, AllocShape (allocs i)
  lt : ∀ i v j, (allocs i).Owns v j → j < 32
  unique : ∀ i v i' v' j, (allocs i).Owns v j → (allocs i').Owns v' j → i = i' ∧ v = v'
  used : ∀ j < 32, msi.used.getLsbD j = true ↔ ∃ i v, (allocs i).Owns v j
  servers : ∀ j, msi.servers j ≠ none → ∃ i v, (allocs i).Owns v j

/-- An idle function owns no slot. -/
theorem not_owns_of_idle {a : IrqAlloc} (h : a.mode = .idle) (v j : ℕ) : ¬ a.Owns v j := by
  rintro ⟨huses, -⟩
  rw [h] at huses
  exact absurd huses (by decide)

/-- Nor does one in INTx mode. -/
theorem not_owns_of_intx {a : IrqAlloc} (h : a.mode = .intx) (v j : ℕ) : ¬ a.Owns v j := by
  rintro ⟨huses, -⟩
  rw [h] at huses
  exact absurd huses (by decide)

/-- An allocation that has a vector and is not INTx sits on slots. -/
theorem usesSlots_of_vec {a : IrqAlloc} (h : AllocShape a) {vec : ℕ} (hvec : vec < a.nvec)
    (hmode : a.mode ≠ .intx) : UsesSlots a.mode := by
  cases hm : a.mode with
  | idle =>
    rw [h.idle hm] at hvec
    exact absurd hvec (Nat.not_lt_zero vec)
  | intx => exact absurd hm hmode
  | msi => exact Or.inl rfl
  | msix => exact Or.inr rfl

namespace SlotsOwned

variable {msi msi' : PcieMsi} {allocs : ι → IrqAlloc}

/-- A slot that no vector is on has no server. -/
theorem servers_eq_none (h : SlotsOwned msi allocs) {j : ℕ} (hj : ∀ i v, ¬ (allocs i).Owns v j) :
    msi.servers j = none := by
  by_contra hne
  obtain ⟨i, v, hown⟩ := h.servers j hne
  exact hj i v hown

/-- A free slot has no server. -/
theorem servers_of_free (h : SlotsOwned msi allocs) {j : ℕ} (hj : j < 32)
    (hfree : msi.used.getLsbD j = false) : msi.servers j = none := by
  refine h.servers_eq_none fun i v hown => ?_
  rw [(h.used j hj).2 ⟨i, v, hown⟩] at hfree
  exact absurd hfree (by decide)

variable [DecidableEq ι]

/-- **The owners stay.** A device keeps its slots; servers come and go on owned slots only. -/
theorem keep (h : SlotsOwned msi allocs) (i : ι) {a : IrqAlloc} (hshape : AllocShape a)
    (howns : ∀ v j, a.Owns v j ↔ (allocs i).Owns v j) (hused : msi'.used = msi.used)
    (hservers : ∀ j, msi'.servers j ≠ none → msi.servers j ≠ none ∨ ∃ v, (allocs i).Owns v j) :
    SlotsOwned msi' (Function.update allocs i a) := by
  have hsame : ∀ i' v j, (Function.update allocs i a i').Owns v j ↔ (allocs i').Owns v j := by
    intro i' v j
    by_cases hi : i' = i
    · subst hi
      rw [Function.update_self]
      exact howns v j
    · rw [Function.update_of_ne hi]
  refine ⟨fun i' => ?_, ?_, ?_, ?_, ?_⟩
  · by_cases hi : i' = i
    · subst hi
      rwa [Function.update_self]
    · rw [Function.update_of_ne hi]
      exact h.shape i'
  · simpa only [hsame] using h.lt
  · simpa only [hsame] using h.unique
  · simpa only [hsame, hused] using h.used
  · intro j hne
    simp only [hsame]
    obtain hold | ⟨v, hown⟩ := hservers j hne
    · exact h.servers j hold
    · exact ⟨i, v, hown⟩

/-- **A claim.** A device without slots reserves free ones. -/
theorem claim (h : SlotsOwned msi allocs) (i : ι) {a : IrqAlloc} (hidle : (allocs i).mode = .idle)
    (hshape : AllocShape a) (huses : UsesSlots a.mode)
    (hres : Reserves msi.used msi'.used a.slots a.nvec) (hservers : msi'.servers = msi.servers) :
    SlotsOwned msi' (Function.update allocs i a) := by
  have hself : ∀ v j, (Function.update allocs i a i).Owns v j ↔ v < a.nvec ∧ a.slots v = j := by
    intro v j
    rw [Function.update_self]
    exact and_iff_right huses
  have hother : ∀ i', i' ≠ i → Function.update allocs i a i' = allocs i' :=
    fun i' hi => Function.update_of_ne hi a allocs
  -- the claimed slots were free, so no one else is on them
  have hfresh : ∀ i' v' v, v < a.nvec → ¬ (allocs i').Owns v' (a.slots v) := by
    intro i' v' v hv hown
    have hset := (h.used _ (hres.lt v hv)).2 ⟨i', v', hown⟩
    rw [hres.free v hv] at hset
    exact absurd hset (by decide)
  have hidle' : ∀ v j, ¬ (allocs i).Owns v j := not_owns_of_idle hidle
  refine ⟨fun i' => ?_, fun i' v j hown => ?_, fun i' v i'' v' j hown hown' => ?_,
    fun j hj => ?_, fun j hne => ?_⟩
  · by_cases hi : i' = i
    · subst hi
      rwa [Function.update_self]
    · rw [hother i' hi]
      exact h.shape i'
  · by_cases hi : i' = i
    · subst hi
      obtain ⟨hv, rfl⟩ := (hself v j).1 hown
      exact hres.lt v hv
    · rw [hother i' hi] at hown
      exact h.lt i' v j hown
  · by_cases hi : i' = i <;> by_cases hi' : i'' = i
    · subst hi hi'
      obtain ⟨hv, hj⟩ := (hself v j).1 hown
      obtain ⟨hv', hj'⟩ := (hself v' j).1 hown'
      exact ⟨rfl, hres.injective v hv v' hv' (hj.trans hj'.symm)⟩
    · subst hi
      rw [hother i'' hi'] at hown'
      obtain ⟨hv, rfl⟩ := (hself v j).1 hown
      exact absurd hown' (hfresh i'' v' v hv)
    · subst hi'
      rw [hother i' hi] at hown
      obtain ⟨hv, rfl⟩ := (hself v' j).1 hown'
      exact absurd hown (hfresh i' v v' hv)
    · rw [hother i' hi] at hown
      rw [hother i'' hi'] at hown'
      exact h.unique i' v i'' v' j hown hown'
  · rw [hres.reserved j hj, h.used j hj]
    constructor
    · rintro (⟨i', v, hown⟩ | ⟨v, hv, hvj⟩)
      · have hi : i' ≠ i := fun hi => hidle' v j (hi ▸ hown)
        exact ⟨i', v, by rwa [hother i' hi]⟩
      · exact ⟨i, v, (hself v j).2 ⟨hv, hvj⟩⟩
    · rintro ⟨i', v, hown⟩
      by_cases hi : i' = i
      · subst hi
        exact Or.inr ⟨v, (hself v j).1 hown⟩
      · rw [hother i' hi] at hown
        exact Or.inl ⟨i', v, hown⟩
  · rw [hservers] at hne
    obtain ⟨i', v, hown⟩ := h.servers j hne
    have hi : i' ≠ i := fun hi => hidle' v j (hi ▸ hown)
    exact ⟨i', v, by rwa [hother i' hi]⟩

/-- **A release.** A device gives all its slots back, with no server left on them. -/
theorem release (h : SlotsOwned msi allocs) (i : ι) {a : IrqAlloc} (hshape : AllocShape a)
    (hidle : a.mode = .idle)
    (hused : ∀ j < 32, msi'.used.getLsbD j = true ↔
      msi.used.getLsbD j = true ∧ ∀ v, ¬ (allocs i).Owns v j)
    (hservers : ∀ j, msi'.servers j ≠ none →
      msi.servers j ≠ none ∧ ∀ v, ¬ (allocs i).Owns v j) :
    SlotsOwned msi' (Function.update allocs i a) := by
  have hself : ∀ v j, ¬ (Function.update allocs i a i).Owns v j := by
    intro v j
    rw [Function.update_self]
    exact not_owns_of_idle hidle v j
  have hother : ∀ i', i' ≠ i → Function.update allocs i a i' = allocs i' :=
    fun i' hi => Function.update_of_ne hi a allocs
  -- a slot that the device did not own has the owners it had
  have hkept : ∀ j, (∀ v, ¬ (allocs i).Owns v j) →
      ((∃ i' v, (Function.update allocs i a i').Owns v j) ↔ ∃ i' v, (allocs i').Owns v j) := by
    intro j hnot
    constructor
    · rintro ⟨i', v, hown⟩
      have hi : i' ≠ i := fun hi => hself v j (hi ▸ hown)
      exact ⟨i', v, by rwa [hother i' hi] at hown⟩
    · rintro ⟨i', v, hown⟩
      have hi : i' ≠ i := fun hi => hnot v (hi ▸ hown)
      exact ⟨i', v, by rwa [hother i' hi]⟩
  refine ⟨fun i' => ?_, fun i' v j hown => ?_, fun i' v i'' v' j hown hown' => ?_,
    fun j hj => ?_, fun j hne => ?_⟩
  · by_cases hi : i' = i
    · subst hi
      rwa [Function.update_self]
    · rw [hother i' hi]
      exact h.shape i'
  · have hi : i' ≠ i := fun hi => hself v j (hi ▸ hown)
    rw [hother i' hi] at hown
    exact h.lt i' v j hown
  · have hi : i' ≠ i := fun hi => hself v j (hi ▸ hown)
    have hi' : i'' ≠ i := fun hi => hself v' j (hi ▸ hown')
    rw [hother i' hi] at hown
    rw [hother i'' hi'] at hown'
    exact h.unique i' v i'' v' j hown hown'
  · rw [hused j hj, h.used j hj]
    constructor
    · rintro ⟨hown, hnot⟩
      exact (hkept j hnot).2 hown
    · rintro ⟨i', v, hown⟩
      have hi : i' ≠ i := fun hi => hself v j (hi ▸ hown)
      rw [hother i' hi] at hown
      refine ⟨⟨i', v, hown⟩, fun v' hown' => hi ?_⟩
      exact (h.unique i' v i v' j hown hown').1
  · obtain ⟨hold, hnot⟩ := hservers j hne
    exact (hkept j hnot).2 (h.servers j hold)

end SlotsOwned

/-! ## The calls, one by one -/

/-- The allocation records of a state. -/
def IrqState.allocs (s : IrqState ι σ) : ι → IrqAlloc := fun i => (s.devs i).active

/-- The ledger of a state. -/
def IrqState.SlotsOwned (s : IrqState ι σ) : Prop := BcmPcie.SlotsOwned s.pcie.msi s.allocs

variable [DecidableEq ι]

/-- Putting back a record changes its own allocation only. -/
theorem allocs_put (s : IrqState ι σ) (i : ι) (pcie : PciController σ) (dev : PciDevice) :
    (s.put i pcie dev).allocs = Function.update s.allocs i dev.active := by
  funext j
  by_cases hj : j = i
  · subst hj
    simp only [IrqState.allocs, put_devs_self, Function.update_self]
  · simp only [IrqState.allocs, put_devs_of_ne s i pcie dev hj, Function.update_of_ne hj]

/-- Moving the scratch slots of an idle device, or none of a busy one, keeps the shape and the
owners. -/
theorem setSlots_ledger {dev : PciDevice} {slots : ℕ → ℕ}
    (hslots : dev.active.mode ≠ .idle → slots = dev.active.slots) (h : AllocShape dev.active) :
    AllocShape (dev.setSlots slots).active ∧
      ∀ v j, (dev.setSlots slots).active.Owns v j ↔ dev.active.Owns v j := by
  -- an idle device owns nothing, whatever its slots say
  by_cases hidle : dev.active.mode = .idle
  · refine ⟨⟨h.idle, h.intx, fun hmsi => ?_, h.intxServer⟩, fun v j => iff_of_false ?_ ?_⟩
    · exact absurd (hidle.symm.trans hmsi) (by decide)
    · exact not_owns_of_idle (a := (dev.setSlots slots).active) hidle v j
    · exact not_owns_of_idle hidle v j
  · rw [hslots hidle]
    exact ⟨h, fun _ _ => Iff.rfl⟩

variable {s : IrqState ι σ}

/-- An allocation refuses, claims free slots, or records INTx. -/
theorem slotsOwned_alloc (h : s.SlotsOwned) (i : ι) {min max : ℕ} {flags : BitVec 32}
    {r : PciController σ × PciDevice × Except Errno ℕ}
    (hout : AllocOutcome s.pcie (s.devs i) min max flags r) :
    (s.put i r.1 r.2.1).SlotsOwned := by
  have hshape : AllocShape (s.devs i).active := h.shape i
  unfold IrqState.SlotsOwned
  rw [allocs_put]
  -- by the outcome: MSI-X and MSI claim the slots they reserved, the others none
  cases hout with
  | refused e slots hslots =>
    obtain ⟨hshape', howns⟩ := setSlots_ledger hslots hshape
    exact h.keep i hshape' howns rfl fun j hne => Or.inl hne
  | msix n slots used hidle _ _ _ _ _ _ _ hres =>
    have hactive := (pciMsixProgram_sameRecord ((s.devs i).setSlots slots)
      (s.pcie.setUsed used) n).active
    refine h.claim i hidle ?_ (Or.inr rfl) ?_ rfl
    · refine ⟨fun hm => ?_, fun hm => ?_, fun hm => ?_, fun hserver => ?_⟩
      · exact absurd hm (by simp)
      · exact absurd hm (by simp)
      · exact absurd hm (by simp)
      · rw [setActive_active, hactive] at hserver
        exact absurd (hidle.symm.trans (hshape.intxServer hserver)) (by decide)
    · rw [setActive_active, hactive]
      exact hres
  | msi k base slots used hidle _ _ _ _ _ hdvd _ hres =>
    have hactive := (pciMsiProgram_sameRecord
      ((s.devs i).setSlots (blockSlots slots base (2 ^ k))) (s.pcie.setUsed used) (2 ^ k)).active
    refine h.claim i hidle ?_ (Or.inl rfl) ?_ rfl
    · refine ⟨fun hm => ?_, fun hm => ?_, fun _ => ⟨k, base, rfl, hdvd, fun v hv => ?_⟩,
        fun hserver => ?_⟩
      · exact absurd hm (by simp)
      · exact absurd hm (by simp)
      · rw [setActive_active, hactive]
        exact if_pos hv
      · rw [setActive_active, hactive] at hserver
        exact absurd (hidle.symm.trans (hshape.intxServer hserver)) (by decide)
    · rw [setActive_active, hactive]
      exact hres
  | intx slots hidle _ _ _ _ =>
    refine h.keep i ?_ (fun v j => iff_of_false ?_ ?_) rfl fun j hne => Or.inl hne
    · refine ⟨fun hm => ?_, fun _ => rfl, fun hm => ?_, fun _ => rfl⟩
      · exact absurd hm (by simp)
      · exact absurd hm (by simp)
    · exact not_owns_of_intx rfl v j
    · exact not_owns_of_idle hidle v j

variable [Gic400 σ]

/-- A new server sits on an owned slot. -/
theorem slotsOwned_add (h : s.SlotsOwned) (i : ι) {vec : ℕ} {isr : Option Interrupt}
    {r : PciController σ × PciDevice × Except Errno Unit}
    (hout : AddOutcome s.pcie (s.devs i) vec isr r) : (s.put i r.1 r.2.1).SlotsOwned := by
  have hshape : AllocShape (s.devs i).active := h.shape i
  unfold IrqState.SlotsOwned
  rw [allocs_put]
  cases hout with
  | badVec => exact h.keep i hshape (fun _ _ => Iff.rfl) rfl fun j hne => Or.inl hne
  | busy => exact h.keep i hshape (fun _ _ => Iff.rfl) rfl fun j hne => Or.inl hne
  | gicRefused => exact h.keep i hshape (fun _ _ => Iff.rfl) rfl fun j hne => Or.inl hne
  | intx _ hmode _ =>
    rw [pciIntx_active, setIntxServer_active]
    refine h.keep i ⟨hshape.idle, hshape.intx, hshape.msi, fun _ => hmode⟩ (fun _ _ => Iff.rfl) rfl
      fun j hne => Or.inl hne
  | slot hvec hmode _ =>
    rw [(pciIrqVecOpen_sameRecord (s.devs i) vec).active]
    refine h.keep i hshape (fun _ _ => Iff.rfl) rfl fun j hne => ?_
    simp only [put_pcie, brcmMsiSlotBind_servers, Function.update_apply] at hne
    split at hne
    · rename_i hj
      right
      exact ⟨vec, usesSlots_of_vec hshape hvec hmode, hvec, hj.symm⟩
    · exact Or.inl hne

/-- Removing a server leaves the owners alone. -/
theorem slotsOwned_rem (h : s.SlotsOwned) (i : ι) {vec : ℕ} {isr : Option Interrupt}
    {r : PciController σ × PciDevice} (hout : RemOutcome s.pcie (s.devs i) vec isr r) :
    (s.put i r.1 r.2).SlotsOwned := by
  have hshape : AllocShape (s.devs i).active := h.shape i
  unfold IrqState.SlotsOwned
  rw [allocs_put]
  cases hout with
  | ignored => exact h.keep i hshape (fun _ _ => Iff.rfl) rfl fun j hne => Or.inl hne
  | intx =>
    rw [setIntxServer_active, pciIntx_active]
    exact h.keep i ⟨hshape.idle, hshape.intx, hshape.msi, fun hne => absurd rfl hne⟩
      (fun _ _ => Iff.rfl) rfl fun j hne => Or.inl hne
  | slot =>
    rw [(pciIrqVecClose_sameRecord (s.devs i) vec).active]
    refine h.keep i hshape (fun _ _ => Iff.rfl) rfl fun j hne => Or.inl ?_
    simp only [put_pcie, brcmMsiSlotUnbind_servers, Function.update_apply] at hne
    split at hne
    · exact absurd rfl hne
    · exact hne

omit [Gic400 σ] in
/-- The runtime mask leaves the ledger alone. -/
theorem slotsOwned_mask (h : s.SlotsOwned) (i : ι) {vec : ℕ} {open' : Bool}
    {r : PciController σ × PciDevice × Bool}
    (hout : MaskOutcome s.pcie (s.devs i) vec open' r) : (s.put i r.1 r.2.1).SlotsOwned := by
  obtain ⟨hmsi, hactive, -⟩ := hout.same
  unfold IrqState.SlotsOwned
  rw [allocs_put, put_pcie, hmsi, hactive]
  exact h.keep i (h.shape i) (fun _ _ => Iff.rfl) rfl fun j hne => Or.inl hne

omit [DecidableEq ι] in
/-- **Teardown.** The device is idle, its slots are free and without servers, all else is as it was.
-/
theorem pciIrqVectorsFree_ledger (pcie : PciController σ) (dev : PciDevice)
    (hshape : AllocShape dev.active) :
    let r := pciIrqVectorsFree pcie dev
    r.2.active.mode = .idle ∧ AllocShape r.2.active ∧
      (∀ j < 32, r.1.msi.used.getLsbD j = true ↔
        pcie.msi.used.getLsbD j = true ∧ ∀ v, ¬ dev.active.Owns v j) ∧
      ∀ j, r.1.msi.servers j ≠ none → pcie.msi.servers j ≠ none ∧ ∀ v, ¬ dev.active.Owns v j := by
  -- first every vector loses its server, then the registers are switched off, then the slots go
  have hquiet := detachServers_quieted pcie dev dev.active.nvec
  have hgone := detachServers_gone pcie dev (le_refl dev.active.nvec)
  have hactive := detachServers_active pcie dev dev.active.nvec
  have hintx : (detachServers pcie dev dev.active.nvec).2.active.intxServer = none := by
    by_cases hmode : dev.active.mode = .intx
    · have h0 := hgone 0 (by rw [hshape.intx hmode]; exact Nat.one_pos)
      rwa [pciIrqVecServer, if_pos (by rw [hactive]; exact hmode)] at h0
    · exact detachServers_intxServer_none pcie dev _ (not_imp_comm.1 hshape.intxServer hmode)
  simp only [pciIrqVectorsFree]
  generalize detachServers pcie dev dev.active.nvec = st at hquiet hgone hactive hintx ⊢
  obtain ⟨p, d⟩ := st
  dsimp only at hquiet hgone hactive hintx ⊢
  have hsame := (switchOff_sameRecord d).active
  generalize switchOff d = d' at hsame ⊢
  have hmode : d'.active.mode = dev.active.mode := by rw [hsame, hactive]
  have hslots : d'.active.slots = dev.active.slots := by rw [hsame, hactive]
  have hnvec : d'.active.nvec = dev.active.nvec := by rw [hsame, hactive]
  have hnone : d'.active.intxServer = none := by rw [hsame]; exact hintx
  refine ⟨rfl, ⟨fun _ => rfl, fun h => absurd h (by simp), fun h => absurd h (by simp),
    fun h => absurd hnone h⟩, fun j hj => ?_, fun j hne => ?_⟩
  · rw [hmode, hslots, hnvec]
    -- INTx has no slots to give back
    by_cases hm : dev.active.mode = .intx
    · rw [if_neg (not_not.2 hm), hquiet.used]
      exact (and_iff_left fun v => not_owns_of_intx hm v j).symm
    · rw [if_pos hm, pciIrqSlotsFree, setUsed_used, getLsbD_clearAll _ _ hj, hquiet.used,
        Bool.and_eq_true, Bool.not_eq_true', decide_eq_false_iff_not, List.mem_map]
      refine and_congr_right fun _ => ⟨fun h v hown => h ⟨v, ?_, hown.2.2⟩, ?_⟩
      · exact List.mem_range.2 hown.2.1
      · rintro h ⟨v, hv, hvj⟩
        rw [List.mem_range] at hv
        exact h v ⟨usesSlots_of_vec hshape hv hm, hv, hvj⟩
  · have hservers : (if d'.active.mode ≠ .intx then pciIrqSlotsFree p d'.active.slots d'.active.nvec
        else p).msi.servers = p.msi.servers := by
      split <;> rfl
    rw [hservers] at hne
    have hold : pcie.msi.servers j ≠ none := by
      obtain ⟨hs, -⟩ | ⟨hs, -⟩ := hquiet.slot j
      · rwa [← hs]
      · exact absurd hs hne
    -- a slot the device owned lost its server with the vector
    refine ⟨hold, fun v hown => hne ?_⟩
    obtain ⟨huses, hv, rfl⟩ := hown
    have hv' := hgone v hv
    have hnot : d.active.mode ≠ .intx := by
      rw [hactive]
      rintro hm
      rw [hm] at huses
      exact absurd huses (by decide)
    rw [pciIrqVecServer, if_neg hnot, brcmMsiSlotServer, hactive] at hv'
    exact hv'

/-- **One call keeps the ledger.** -/
theorem slotsOwned_irqStep (h : s.SlotsOwned) (c : IrqCall ι) : (irqStep s c).SlotsOwned := by
  cases c with
  | vectorsAlloc i min max flags =>
    exact slotsOwned_alloc h i (pciIrqVectorsAlloc_outcome s.pcie (s.devs i) min max flags)
  | vectorsFree i =>
    obtain ⟨hidle, hshape, hused, hservers⟩ :=
      pciIrqVectorsFree_ledger s.pcie (s.devs i) (h.shape i)
    unfold irqStep IrqState.SlotsOwned
    rw [allocs_put]
    exact h.release i hshape hidle hused hservers
  | addServer i vec isr =>
    exact slotsOwned_add h i (pciIrqAddServer_outcome s.pcie (s.devs i) vec isr)
  | remServer i vec isr =>
    exact slotsOwned_rem h i (pciIrqRemServer_outcome s.pcie (s.devs i) vec isr)
  | vecMask i vec => exact slotsOwned_mask h i (pciIrqVecMask_outcome s.pcie (s.devs i) vec)
  | vecUnmask i vec => exact slotsOwned_mask h i (pciIrqVecUnmask_outcome s.pcie (s.devs i) vec)

/-! ## Runs -/

omit [DecidableEq ι] [Gic400 σ] in
/-- Functions without an allocation, on a pool with no slot reserved or bound, own nothing. -/
theorem slotsOwned_of_fresh (hused : s.pcie.msi.used = 0) (hservers : ∀ j, s.pcie.msi.servers j = none)
    (hactive : ∀ i, (s.devs i).active = {}) : s.SlotsOwned := by
  have hallocs : ∀ i, s.allocs i = {} := hactive
  have hnot : ∀ i v j, ¬ (s.allocs i).Owns v j := fun i v j => by
    rw [hallocs]
    exact not_owns_of_idle rfl v j
  refine ⟨fun i => ?_, fun i v j hown => absurd hown (hnot i v j),
    fun i v _ _ j hown => absurd hown (hnot i v j), fun j hj => ?_,
    fun j hne => absurd (hservers j) hne⟩
  · rw [hallocs]
    exact ⟨fun _ => rfl, fun h => absurd h (by decide), fun h => absurd h (by decide),
      fun h => absurd rfl h⟩
  · rw [hused]
    refine iff_of_false (by simp) ?_
    rintro ⟨i, v, hown⟩
    exact hnot i v j hown

omit [DecidableEq ι] [Gic400 σ] in
/-- Probe leaves an empty ledger. -/
theorem Probed.slotsOwned (h : Probed s) : s.SlotsOwned :=
  slotsOwned_of_fresh h.used h.servers fun i => (h.devs i).decoded.1

omit [DecidableEq ι] [Gic400 σ] in
/-- A ledger without owners is an empty pool. -/
theorem used_eq_zero (h : s.SlotsOwned) (hnone : ∀ i, ¬ UsesSlots (s.devs i).active.mode) :
    s.pcie.msi.used = 0 := by
  apply BitVec.eq_of_getLsbD_eq
  intro j hj
  have hfree : ¬ s.pcie.msi.used.getLsbD j = true := by
    rw [h.used j hj]
    rintro ⟨i, v, hown⟩
    exact hnone i hown.1
  simpa using hfree

/-- Freeing a device makes it idle and leaves the others alone. -/
theorem irqStep_free_mode (h : s.SlotsOwned) (i j : ι)
    (huses : UsesSlots ((irqStep s (.vectorsFree i)).devs j).active.mode) :
    j ≠ i ∧ UsesSlots (s.devs j).active.mode := by
  have hidle := (pciIrqVectorsFree_ledger s.pcie (s.devs i) (h.shape i)).1
  unfold irqStep at huses
  by_cases hj : j = i
  · subst hj
    simp only [IrqCall.target, put_devs_self] at huses
    rw [IrqCall.apply, hidle] at huses
    exact absurd huses (by decide)
  · simp only [IrqCall.target, put_devs_of_ne s i _ _ hj] at huses
    exact ⟨hj, huses⟩

/-- Freeing every device that has slots empties the pool. -/
theorem used_run_free (h : s.SlotsOwned) (l : List ι)
    (hl : ∀ i, UsesSlots (s.devs i).active.mode → i ∈ l) :
    (run irqStep s (l.map .vectorsFree)).pcie.msi.used = 0 := by
  induction l generalizing s with
  | nil => exact used_eq_zero h fun i huses => List.not_mem_nil (hl i huses)
  | cons i l ih =>
    refine ih (slotsOwned_irqStep h (.vectorsFree i)) fun j huses => ?_
    obtain ⟨hne, hold⟩ := irqStep_free_mode h i j huses
    exact (List.mem_cons.1 (hl j hold)).resolve_left hne

/-- **Slot ownership.** After any sequence of calls from probe the reserved slots are those of the
vectors, one vector to a slot, and freeing every device that has some empties the pool. -/
theorem slotsOwned_run (h : Probed s) (cs : List (IrqCall ι)) :
    (run irqStep s cs).SlotsOwned ∧
      ∀ l : List ι, (∀ i, UsesSlots ((run irqStep s cs).devs i).active.mode → i ∈ l) →
        (run irqStep (run irqStep s cs) (l.map .vectorsFree)).pcie.msi.used = 0 := by
  have hrun : (run irqStep s cs).SlotsOwned :=
    run_invariant (P := IrqState.SlotsOwned) (fun _ c hs => slotsOwned_irqStep hs c) s cs
      h.slotsOwned
  exact ⟨hrun, fun l hl => used_run_free hrun l hl⟩

/-- One device takes three MSI-X vectors and the other a block of four for MSI; the ledger holds, and
freeing both empties the pool. -/
theorem slotsOwned_run_sample :
    let cs := [.vectorsAlloc false 3 3 pciIrqMsix, .vectorsAlloc true 1 4 pciIrqMsi,
      .addServer true 2 (some ⟨0x1000⟩)]
    (run irqStep sampleState cs).SlotsOwned ∧
      ∀ l : List Bool, (∀ i, UsesSlots ((run irqStep sampleState cs).devs i).active.mode → i ∈ l) →
        (run irqStep (run irqStep sampleState cs) (l.map .vectorsFree)).pcie.msi.used = 0 :=
  slotsOwned_run sampleState_probed _

example : (run irqStep sampleState [.vectorsAlloc false 3 3 pciIrqMsix,
    .vectorsAlloc true 1 4 pciIrqMsi]).pcie.msi.used = 0xf7#32 := by decide +kernel

end BcmPcie
