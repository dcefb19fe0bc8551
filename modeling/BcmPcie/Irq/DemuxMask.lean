import BcmPcie.Irq.LibraryCalls

/-! # The slot masks at the root complex

A demux slot is meant to be unmasked only while a server is bound to it. Binding and unbinding keep
that; the runtime unmask does not look whether the vector has a server, so it is up to the caller.

* `slotsGuarded_vectorStep_iff` — a typed call keeps the guard just when it does not unmask a vector
  without a server.
* `along_slotsGuarded_iff` — the same of a whole run. -/

namespace BcmPcie

open BitSet Runs

variable {ι σ : Type*}

/-- Every slot that is unmasked at the root complex has a server bound to it. -/
def SlotsGuarded (s : IrqState ι σ) : Prop :=
  ∀ j < 32, s.pcie.intr2.mask.getLsbD j = false → s.pcie.msi.servers j ≠ none

instance (s : IrqState ι σ) : Decidable (SlotsGuarded s) :=
  inferInstanceAs (Decidable (∀ j < 32, _ → _))

/-- The call does not unmask a slot that has no server: an `UnmaskIntVector` that reaches a demux slot
names a vector with a server attached. -/
def UnmasksAttached (s : IrqState ι σ) : VectorCall ι → Prop
  | .unmaskIntVector (some i) vec =>
    vec < (s.devs i).active.nvec → (s.devs i).active.mode ≠ .intx →
      s.pcie.msi.servers ((s.devs i).active.slots vec) ≠ none
  | _ => True

/-- After the probe every slot is masked, so none is open without a server. -/
theorem Probed.slotsGuarded {s : IrqState ι σ} (h : Probed s) : SlotsGuarded s := by
  intro j hj hopen
  rw [h.mask, BitVec.getLsbD_allOnes, decide_eq_true hj] at hopen
  exact absurd hopen (by decide)

/-- A change that leaves each slot as it was, or unbound and masked, keeps the guard. -/
theorem slotsGuarded_of_quiet {s s' : IrqState ι σ} (h : SlotsGuarded s)
    (hslot : ∀ j,
      s'.pcie.msi.servers j = s.pcie.msi.servers j ∧
        (j < 32 → s'.pcie.intr2.mask.getLsbD j = s.pcie.intr2.mask.getLsbD j) ∨
      s'.pcie.msi.servers j = none ∧ (j < 32 → s'.pcie.intr2.mask.getLsbD j = true)) :
    SlotsGuarded s' := by
  intro j hj hopen
  obtain ⟨hs, hm⟩ | ⟨-, hm⟩ := hslot j
  · rw [hs]
    exact h j hj (by rw [← hm hj, hopen])
  · rw [hm hj] at hopen
    exact absurd hopen (by decide)

variable [DecidableEq ι] [Gic400 σ] {s : IrqState ι σ}

omit [Gic400 σ] in
/-- An allocation, granted or not, leaves servers and masks alone. -/
theorem slotsGuarded_alloc (h : SlotsGuarded s) (i : ι) {min max : ℕ} {flags : BitVec 32}
    {r : PciController σ × PciDevice × Except Errno ℕ}
    (hout : AllocOutcome s.pcie (s.devs i) min max flags r) : SlotsGuarded (s.put i r.1 r.2.1) := by
  refine slotsGuarded_of_quiet h fun j => Or.inl ?_
  cases hout <;> exact ⟨rfl, fun _ => rfl⟩

/-- Teardown quiets slots. -/
theorem slotsGuarded_free (h : SlotsGuarded s) (i : ι) :
    SlotsGuarded (irqStep s (.vectorsFree i)) := by
  obtain ⟨used, heq⟩ := pciIrqVectorsFree_eq s.pcie (s.devs i)
  refine slotsGuarded_of_quiet h ?_
  simp only [irqStep, IrqCall.apply, IrqCall.target, put_pcie, heq]
  exact (detachServers_quieted s.pcie (s.devs i) _).slot

/-- A server that is bound is there when its slot opens. -/
theorem slotsGuarded_add (h : SlotsGuarded s) (i : ι) {vec : ℕ} {isr : Option Interrupt}
    (hisr : isr ≠ none) {r : PciController σ × PciDevice × Except Errno Unit}
    (hout : AddOutcome s.pcie (s.devs i) vec isr r) : SlotsGuarded (s.put i r.1 r.2.1) := by
  cases hout with
  | badVec => exact slotsGuarded_of_quiet h fun j => Or.inl ⟨rfl, fun _ => rfl⟩
  | busy => exact slotsGuarded_of_quiet h fun j => Or.inl ⟨rfl, fun _ => rfl⟩
  | gicRefused => exact slotsGuarded_of_quiet h fun j => Or.inl ⟨rfl, fun _ => rfl⟩
  | intx => exact slotsGuarded_of_quiet h fun j => Or.inl ⟨rfl, fun _ => rfl⟩
  | slot =>
    intro j hj hopen
    simp only [put_pcie, brcmMsiSlotBind_servers, Function.update_apply]
    split
    · exact hisr
    · rename_i hne
      rw [put_pcie, brcmMsiSlotBind_mask _ _ _ hj, decide_eq_true (Ne.symm hne),
        Bool.and_true] at hopen
      exact h j hj hopen

/-- The runtime mask opens nothing. -/
theorem slotsGuarded_mask (h : SlotsGuarded s) (i : ι) (vec : ℕ) :
    SlotsGuarded (irqStep s (.vecMask i vec)) := by
  have hout := pciIrqVecMask_outcome s.pcie (s.devs i) vec
  simp only [irqStep, IrqCall.apply, IrqCall.target]
  generalize pciIrqVecMask s.pcie (s.devs i) vec = r at hout ⊢
  cases hout with
  | badVec => exact slotsGuarded_of_quiet h fun j => Or.inl ⟨rfl, fun _ => rfl⟩
  | intx => exact slotsGuarded_of_quiet h fun j => Or.inl ⟨rfl, fun _ => rfl⟩
  | slot =>
    intro j hj hopen
    simp only [Bool.false_eq_true, if_false, put_pcie, brcmMsiSlotMask_msi] at hopen ⊢
    rw [brcmMsiSlotMask_mask _ _ hj, Bool.or_eq_false_iff] at hopen
    exact h j hj hopen.1

/-- **The runtime unmask.** It keeps the guard just when the vector it opens has a server. -/
theorem slotsGuarded_unmask_iff (hled : s.SlotsOwned) (h : SlotsGuarded s) (i : ι) (vec : ℕ) :
    SlotsGuarded (irqStep s (.vecUnmask i vec)) ↔
      UnmasksAttached s (.unmaskIntVector (some i) vec) := by
  have hout := pciIrqVecUnmask_outcome s.pcie (s.devs i) vec
  simp only [irqStep, IrqCall.apply, IrqCall.target, UnmasksAttached]
  generalize pciIrqVecUnmask s.pcie (s.devs i) vec = r at hout ⊢
  have hsame : ∀ dev, SlotsGuarded (s.put i s.pcie dev) :=
    fun dev => slotsGuarded_of_quiet h fun j => Or.inl ⟨rfl, fun _ => rfl⟩
  cases hout with
  | badVec hvec => exact iff_of_true (hsame _) fun hlt => absurd hvec (Nat.not_le.2 hlt)
  | intx _ hmode => exact iff_of_true (hsame _) fun _ hne => absurd hmode hne
  | slot hvec hmode =>
    have hshape : AllocShape (s.devs i).active := hled.shape i
    have hlt : (s.devs i).active.slots vec < 32 :=
      hled.lt i vec _ ⟨usesSlots_of_vec hshape hvec hmode, hvec, rfl⟩
    simp only [if_true]
    constructor
    · intro hguard _ _
      refine hguard _ hlt ?_
      simp only [put_pcie, brcmMsiSlotUnmask_mask _ _ hlt, ne_eq, not_true_eq_false, decide_false,
        Bool.and_false]
    · intro hserver j hj hopen
      by_cases hjs : (s.devs i).active.slots vec = j
      · exact hjs ▸ hserver hvec hmode
      · rw [put_pcie, brcmMsiSlotUnmask_mask _ _ hj, decide_eq_true hjs, Bool.and_true] at hopen
        exact h j hj hopen

/-- **One typed call.** It keeps the guard just when it does not unmask a vector without a server. -/
theorem slotsGuarded_vectorStep_iff (hled : s.SlotsOwned) (h : SlotsGuarded s)
    (c : VectorCall ι) : SlotsGuarded (vectorStep s c) ↔ UnmasksAttached s c := by
  rw [vectorStep_eq]
  -- only an unmask opens a slot that may have no server
  cases c with
  | allocIntVectors dev min max flags =>
    refine iff_of_true ?_ trivial
    cases dev with
    | none => exact h
    | some i => exact slotsGuarded_alloc h i (pciIrqVectorsAlloc_outcome _ _ min max flags)
  | freeIntVectors dev =>
    refine iff_of_true ?_ trivial
    cases dev with
    | none => exact h
    | some i => exact slotsGuarded_free h i
  | addIntVectorServer dev vec isr =>
    refine iff_of_true ?_ trivial
    obtain _ | i := dev
    · exact h
    · obtain _ | server := isr
      · exact h
      · exact slotsGuarded_add h i (Option.some_ne_none server) (pciIrqAddServer_outcome _ _ vec _)
  | remIntVectorServer dev vec isr =>
    refine iff_of_true ?_ trivial
    obtain _ | i := dev
    · exact h
    · obtain _ | server := isr
      · exact h
      · exact slotsGuarded_of_quiet h (pciIrqRemServer_quieted _ _ vec (some server)).slot
  | maskIntVector dev vec =>
    refine iff_of_true ?_ trivial
    cases dev with
    | none => exact h
    | some i => exact slotsGuarded_mask h i vec
  | unmaskIntVector dev vec =>
    cases dev with
    | none => exact iff_of_true h trivial
    | some i => exact slotsGuarded_unmask_iff hled h i vec

/-- **The slot masks over a run.** From probe, every unmasked slot has a server at every point of a
run just when no call of the run unmasks a vector without one. -/
theorem along_slotsGuarded_iff (h : Probed s) (cs : List (VectorCall ι)) :
    Along vectorStep SlotsGuarded s cs ↔ EveryStep vectorStep UnmasksAttached s cs :=
  along_iff_everyStep (fun s c hs => slotsOwned_vectorStep s c hs)
    (fun _ c hled hs => slotsGuarded_vectorStep_iff hled hs c) h.slotsOwned h.slotsGuarded

/-- An MSI-X vector that is allocated and unmasked before it has a server: its slot is open and
unbound. -/
theorem slotsGuarded_fails_sample :
    Probed sampleState ∧
      ¬ SlotsGuarded (run vectorStep sampleState
        [.allocIntVectors (some false) 1 1 pciIrqMsix, .unmaskIntVector (some false) 0]) :=
  ⟨sampleState_probed, by decide +kernel⟩

/-- The same vector, unmasked once it has its server. -/
theorem along_slotsGuarded_sample :
    Along vectorStep SlotsGuarded sampleState
      [.allocIntVectors (some false) 1 1 pciIrqMsix,
        .addIntVectorServer (some false) 0 (some ⟨0x1000⟩), .unmaskIntVector (some false) 0] ↔
    EveryStep vectorStep UnmasksAttached sampleState
      [.allocIntVectors (some false) 1 1 pciIrqMsix,
        .addIntVectorServer (some false) 0 (some ⟨0x1000⟩), .unmaskIntVector (some false) 0] :=
  along_slotsGuarded_iff sampleState_probed _

end BcmPcie
