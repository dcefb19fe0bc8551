import BcmPcie.Irq.Released

/-! # Drivers

`pci_irq_attach` and `pci_irq_detach` of `libraries/pci_irq.h`, as drivers run them: each is a row of
library calls, and between two of them other drivers go on, devices send messages and there are
interrupts. A driver needs to know none of that.

* `Driver.step` — a driver goes on to its next library call.
* `driversSystem` — drivers on devices of their own, and whatever else there is.
* `DriversInv` — what is so of every driver, by what has been seen.
* `attach_kept` — what a driver may rely on. -/

namespace BcmPcie

open Simulations

variable {ι σ τ : Type*}

/-! ## The calls of a driver -/

/-- `GetIntVectorType`: the `PCI_IRQ_*` value of the allocation, 0 if there is none. -/
def libGetIntVectorType (s : IrqState ι σ) (dev : Option ι) : BitVec 32 :=
  match dev with
  | none => 0
  | some i => (s.devs i).active.mode.toBits

/-- A driver: its device, its server, the types of interrupt it can do with, and whether it asks which
one it got. -/
structure Driver (ι : Type*) where
  dev : ι
  isr : Interrupt
  allowedFlags : BitVec 32
  itypeOut : Bool

/-- Where a driver is. -/
inductive DriverPoint
  | detached
  /-- `pci_irq_attach` has returned this. -/
  | refused (rc : ℤ)
  /-- In `pci_irq_attach`, with a vector. -/
  | allocated
  /-- In `pci_irq_attach`, past `GetIntVectorType`. -/
  | typed (itype : Option (BitVec 32))
  /-- In `pci_irq_attach`, which gives the vector back and returns this. -/
  | failed (rc : ℤ)
  /-- `pci_irq_attach` has returned 0. -/
  | attached (itype : Option (BitVec 32))
  /-- In `pci_irq_detach`, past `RemIntVectorServer`. -/
  | detaching
  deriving DecidableEq, Repr

namespace DriverPoint

/-- The vectors that a driver has. -/
def nvec : DriverPoint → ℕ
  | detached => 0
  | refused _ => 0
  | _ => 1

/-- The server of the driver is there to be called. -/
def Serves : DriverPoint → Prop
  | attached _ => True
  | _ => False

instance (q : DriverPoint) : Decidable q.Serves := by
  unfold Serves
  split <;> infer_instance

end DriverPoint

/-- A driver goes on to where its next library call has returned. It attaches if it is not attached, and
detaches if it is. -/
def Driver.step [DecidableEq ι] [Gic400 σ] (d : Driver ι) (s : IrqState ι σ) :
    DriverPoint → IrqState ι σ × DriverPoint
  | .detached | .refused _ =>
    let (s, nvec) := libAllocIntVectors s (some d.dev) 1 1 d.allowedFlags
    if nvec < 1 then (s, .refused nvec) else (s, .allocated)
  | .allocated => (s, .typed (if d.itypeOut then some (libGetIntVectorType s (some d.dev)) else none))
  | .typed itype =>
    let (s, rc) := libAddIntVectorServer s (some d.dev) 0 (some d.isr)
    if rc ≠ 0 then (s, .failed rc) else (s, .attached itype)
  | .failed rc => (libFreeIntVectors s (some d.dev), .refused rc)
  | .attached _ => (libRemIntVectorServer s (some d.dev) 0 (some d.isr), .detaching)
  | .detaching => (libFreeIntVectors s (some d.dev), .detached)

/-! ## Drivers and whatever else there is -/

/-- What is seen: a driver goes on and gets somewhere, or something else happens to the interrupt
layer. -/
inductive DriversLabel (τ ι : Type*)
  | driver (t : τ) (q : DriverPoint)
  | other (l : ServiceLabel ι)

/-- Whoever else calls the library leaves the devices of the drivers and their servers to them. -/
def Foreign (d : τ → Driver ι) : ServiceLabel ι → Prop
  | .call c _ => ∀ t, c.Spares (d t).dev ∧ ¬ c.Adds (d t).isr
  | _ => True

/-- Drivers, each on a device of its own, the messages and interrupts, and other calls of the library. -/
def driversSystem [DecidableEq ι] [Gic400 σ] [DecidableEq τ] (d : τ → Driver ι) :
    System (IrqState ι σ × (τ → DriverPoint)) (DriversLabel τ ι)
  | (s, p), .driver t q, (s', p') => (d t).step s (p t) = (s', q) ∧ p' = Function.update p t q
  | (s, p), .other l, (s', p') => Foreign d l ∧ irqSystem s l s' ∧ p' = p

/-! ## What a driver has of the service -/

namespace Client

/-- The same vectors and servers, and the same messages wait; what is held back may be something else. -/
structure Undisturbed (c c' : Client) : Prop where
  nvec : c'.nvec = c.nvec
  vecs : ∀ v, (c'.vecs v).map (fun a => (a.server, a.pending))
    = (c.vecs v).map fun a => (a.server, a.pending)

variable {c c' : Client}

/-- A client that is left alone is undisturbed. -/
theorem Undisturbed.refl (c : Client) : c.Undisturbed c := ⟨rfl, fun _ => rfl⟩

/-- An undisturbed client keeps its servers. -/
theorem Undisturbed.server (h : c.Undisturbed c') (v : ℕ) :
    (c'.vecs v).map (·.server) = (c.vecs v).map (·.server) := by
  have hvec := congrArg (Option.map Prod.fst) (h.vecs v)
  rwa [Option.map_map, Option.map_map] at hvec

/-- An undisturbed client keeps the messages that wait. -/
theorem Undisturbed.pending (h : c.Undisturbed c') (v : ℕ) :
    (c'.vecs v).map (·.pending) = (c.vecs v).map (·.pending) := by
  have hvec := congrArg (Option.map Prod.snd) (h.vecs v)
  rwa [Option.map_map, Option.map_map] at hvec

/-- The library disturbs no client when it holds a vector back or lets it go. -/
theorem undisturbed_hold (c : Client) (v : ℕ) (held : Bool) : c.Undisturbed (c.hold v held) := by
  unfold hold
  split
  · refine ⟨rfl, fun w => ?_⟩
    show (Function.update c.vecs v _ w).map _ = _
    by_cases hw : w = v
    · rw [hw, Function.update_self, Option.map_map]
      rfl
    · rw [Function.update_of_ne hw]
  · exact Undisturbed.refl c

end Client

/-- What spares a device leaves it the client it was. -/
theorem Service.Answers.spared [DecidableEq ι] {S S' : Service ι} {c : LibCall ι} {answer : Answer}
    (hans : S.Answers c answer S') {i : ι} (h : c.Spares i) : (S i).Undisturbed (S' i) := by
  have hother {j : ι} {d : Client} (hown : ¬ c.Spares j) :
      (S i).Undisturbed (Function.update S j d i) := by
    have hne : i ≠ j := by
      rintro rfl
      exact hown h
    rw [Function.update_of_ne hne]
    exact Client.Undisturbed.refl (S i)
  cases hans.change with
  | same => exact Client.Undisturbed.refl (S i)
  | fresh j n messages hown => exact hother hown
  | attach j v server d hown => exact hother hown
  | detach j v server hown => exact hother hown
  | hold j v held =>
    by_cases hi : i = j
    · rw [hi, Function.update_self]
      exact Client.undisturbed_hold _ v held
    · rw [Function.update_of_ne hi]
      exact Client.Undisturbed.refl (S i)

/-- What a driver has of the service: its vectors, with its server on the first if it is attached, and
nothing else. -/
structure Driver.Has (d : Driver ι) (c : Client) (q : DriverPoint) : Prop where
  nvec : c.nvec = q.nvec
  vecs : ∀ v, (c.vecs v).map (·.server) = if v = 0 ∧ q.Serves then some d.isr else none

namespace Driver.Has

variable {d : Driver ι} {c c' : Client} {q : DriverPoint} {v : ℕ} {a : Attachment}

/-- A driver's client has what it has at that point as long as it is undisturbed. -/
theorem undisturbed (h : d.Has c q) (hkept : c.Undisturbed c') : d.Has c' q :=
  ⟨hkept.nvec.trans h.nvec, fun v => (hkept.server v).trans (h.vecs v)⟩

/-- At a point where the driver does not serve no server is attached. -/
theorem eq_none (h : d.Has c q) (hq : ¬ q.Serves) (v : ℕ) : c.vecs v = none := by
  have hvec := h.vecs v
  rw [if_neg fun hv => hq hv.2] at hvec
  exact Option.map_eq_none_iff.1 hvec

/-- A server that a driver has is its own, on its first vector, and it is attached. -/
theorem of_eq_some (h : d.Has c q) (ha : c.vecs v = some a) : v = 0 ∧ q.Serves ∧ a.server = d.isr := by
  have hvec := h.vecs v
  rw [ha] at hvec
  by_cases hv : v = 0 ∧ q.Serves
  · rw [if_pos hv] at hvec
    exact ⟨hv.1, hv.2, Option.some.inj hvec⟩
  · rw [if_neg hv] at hvec
    cases hvec

/-- At a point where the driver serves its server is attached to vector 0. -/
theorem exists_of_serves (h : d.Has c q) (hq : q.Serves) :
    ∃ a, c.vecs 0 = some a ∧ a.server = d.isr := by
  have hvec := h.vecs 0
  rw [if_pos ⟨rfl, hq⟩] at hvec
  exact Option.map_eq_some_iff.1 hvec

/-- Vectors without servers. -/
theorem fresh (d : Driver ι) {n : ℕ} (messages : Bool) (hn : n = q.nvec) (hq : ¬ q.Serves) :
    d.Has (.fresh n messages) q :=
  ⟨hn, fun _ => (if_neg fun hv => hq hv.2).symm⟩

end Driver.Has

/-- What a driver has been told, and of what type its allocation is. -/
def Driver.Reports (d : Driver ι) (mode : IrqMode) : DriverPoint → Prop
  | .detached => mode = .idle
  | .refused rc => rc < 0 ∧ mode = .idle
  | .allocated | .detaching => mode.toBits &&& d.allowedFlags ≠ 0
  | .failed rc => rc < 0 ∧ mode.toBits &&& d.allowedFlags ≠ 0
  | .typed itype | .attached itype => mode.toBits &&& d.allowedFlags ≠ 0 ∧
      itype = if d.itypeOut then some mode.toBits else none

/-! ## One step of a driver -/

section Step

variable [DecidableEq ι] [Gic400 σ] {d : Driver ι} {s s' : IrqState ι σ} {q : DriverPoint}

omit [DecidableEq ι] [Gic400 σ] in
/-- The type of an allocation is one that was allowed. -/
theorem AllocOutcome.mode {pcie : PciController σ} {dev : PciDevice} {min max : ℕ} {flags : BitVec 32}
    {r : PciController σ × PciDevice × Except Errno ℕ} (hout : AllocOutcome pcie dev min max flags r) :
    (∀ e, r.2.2 = .error e → r.2.1.active.mode = dev.active.mode) ∧
      ∀ n, r.2.2 = .ok n → r.2.1.active.mode.toBits &&& flags ≠ 0 := by
  cases hout with
  | refused e slots => exact ⟨fun _ _ => rfl, fun n hn => absurd hn (by simp)⟩
  | msix n slots used hidle hflags =>
    exact ⟨fun e he => absurd he (by simp), fun _ _ => by rwa [BitVec.and_comm]⟩
  | msi k base slots used hidle hflags =>
    exact ⟨fun e he => absurd he (by simp), fun _ _ => by rwa [BitVec.and_comm]⟩
  | intx slots hidle hflags =>
    exact ⟨fun e he => absurd he (by simp), fun _ _ => by rwa [BitVec.and_comm]⟩

/-- What a step of a driver comes to: another client of the service, that nothing waits for yet. -/
structure Driver.Stepped (d : Driver ι) (s s' : IrqState ι σ) (q : DriverPoint) : Prop where
  routed : Routed s'
  others : ∀ i, i ≠ d.dev → s'.devs i = s.devs i
  service : ∃ c, s'.service = Function.update s.service d.dev c ∧ d.Has c q ∧
    ∀ v a, c.vecs v = some a → a.pending = false
  reports : d.Reports (s'.devs d.dev).active.mode q

omit [Gic400 σ] in
/-- A step that leaves the service alone, of a driver that is not attached. -/
theorem Driver.Stepped.of_same (hs' : Routed s') (hothers : ∀ i, i ≠ d.dev → s'.devs i = s.devs i)
    (hservice : s'.service = s.service) (hhas : d.Has (s.service d.dev) q) (hq : ¬ q.Serves)
    (hreports : d.Reports (s'.devs d.dev).active.mode q) : d.Stepped s s' q := by
  refine ⟨hs', hothers, ⟨s.service d.dev, ?_, hhas, fun v a ha => ?_⟩, hreports⟩
  · rw [hservice, Function.update_eq_self]
  · rw [hhas.eq_none hq v] at ha
    cases ha

/-- `AllocIntVectors`, of a driver without vectors. -/
theorem Driver.stepped_alloc (hs : Routed s) (hnone : d.Has (s.service d.dev) .detached)
    (hidle : (s.devs d.dev).active.mode = .idle) :
    let r := libAllocIntVectors s (some d.dev) 1 1 d.allowedFlags
    d.Stepped s r.1 (if r.2 < 1 then .refused r.2 else .allocated) := by
  have hout := pciIrqVectorsAlloc_outcome s.pcie (s.devs d.dev) 1 1 d.allowedFlags
  have hrouted : Routed (libAllocIntVectors s (some d.dev) 1 1 d.allowedFlags).1 :=
    routed_libStep s (.vector (.allocIntVectors (some d.dev) 1 1 d.allowedFlags)) hs
  obtain ⟨herror, hok⟩ := hout.service hs.ledger d.dev
  obtain ⟨hkept, hallowed⟩ := hout.mode
  unfold libAllocIntVectors at hrouted ⊢
  dsimp only at hrouted ⊢
  generalize pciIrqVectorsAlloc s.pcie (s.devs d.dev) 1 1 d.allowedFlags = r at *
  have hothers : ∀ i, i ≠ d.dev → (s.put d.dev r.1 r.2.1).devs i = s.devs i :=
    fun i hi => put_devs_of_ne _ _ _ _ hi
  have hdev : ((s.put d.dev r.1 r.2.1).devs d.dev).active.mode = r.2.1.active.mode := by
    rw [put_devs_self]
  cases hresult : r.2.2 with
  | error e =>
    have hneg := pcieErr_neg e
    dsimp only
    rw [if_pos (by omega)]
    refine .of_same hrouted hothers (herror e hresult) ⟨hnone.nvec, hnone.vecs⟩ not_false ⟨hneg, ?_⟩
    rw [hdev, hkept e hresult, hidle]
  | ok n =>
    obtain ⟨-, hpos, -, hmax, hgrant⟩ := hok n hresult
    obtain rfl : n = 1 := by omega
    dsimp only
    rw [if_neg (by decide)]
    obtain ⟨messages, hservice⟩ : ∃ messages, (s.put d.dev r.1 r.2.1).service
        = Function.update s.service d.dev (.fresh 1 messages) := by
      rcases hgrant with ⟨-, hgrant⟩ | ⟨-, hgrant⟩
      · exact ⟨true, hgrant⟩
      · exact ⟨false, hgrant⟩
    refine ⟨hrouted, hothers, ⟨_, hservice, .fresh d messages rfl not_false, nofun⟩, ?_⟩
    show _ ≠ _
    rw [hdev]
    exact hallowed 1 hresult

omit [DecidableEq ι] [Gic400 σ] in
/-- A mode that the flags of a call allow is not idle. -/
theorem IrqMode.ne_idle_of_allowed {mode : IrqMode} {flags : BitVec 32} (h : mode.toBits &&& flags ≠ 0) :
    mode ≠ .idle := by
  rintro rfl
  exact h BitVec.zero_and

/-- The type of an allocation stays what it is until it is freed. -/
theorem mode_irqStep {i : ι} {flags : BitVec 32} (h : (s.devs i).active.mode.toBits &&& flags ≠ 0)
    {c : IrqCall ι} (hfree : c ≠ .vectorsFree i) :
    ((irqStep s c).devs i).active.mode = (s.devs i).active.mode :=
  (same_irqStep (IrqMode.ne_idle_of_allowed h) hfree).1

/-- `AddIntVectorServer`, of a driver that has a vector. -/
theorem Driver.stepped_add {itype : Option (BitVec 32)} (hs : Routed s)
    (hhas : d.Has (s.service d.dev) (.typed itype))
    (hreports : d.Reports (s.devs d.dev).active.mode (.typed itype)) :
    let r := libAddIntVectorServer s (some d.dev) 0 (some d.isr)
    d.Stepped s r.1 (if r.2 ≠ 0 then .failed r.2 else .attached itype) := by
  obtain ⟨hallowed, hitype⟩ := hreports
  have hout := pciIrqAddServer_outcome s.pcie (s.devs d.dev) 0 (some d.isr)
  have hrouted : Routed (libAddIntVectorServer s (some d.dev) 0 (some d.isr)).1 :=
    routed_libStep s (.vector (.addIntVectorServer (some d.dev) 0 (some d.isr))) hs
  have hmode : ((libAddIntVectorServer s (some d.dev) 0 (some d.isr)).1.devs d.dev).active.mode
      = (s.devs d.dev).active.mode :=
    mode_irqStep hallowed (c := .addServer d.dev 0 (some d.isr)) nofun
  obtain ⟨herror, hok⟩ := hout.service hs.ledger d.dev
  unfold libAddIntVectorServer at hrouted hmode ⊢
  dsimp only at hrouted hmode ⊢
  generalize pciIrqAddServer s.pcie (s.devs d.dev) 0 (some d.isr) = r at *
  have hothers : ∀ i, i ≠ d.dev → (s.put d.dev r.1 r.2.1).devs i = s.devs i :=
    fun i hi => put_devs_of_ne _ _ _ _ hi
  cases hresult : r.2.2 with
  | error e =>
    have hneg := pcieErr_neg e
    dsimp only
    rw [if_pos hneg.ne]
    refine .of_same hrouted hothers (herror e hresult) ⟨hhas.nvec, hhas.vecs⟩ not_false ⟨hneg, ?_⟩
    rw [hmode]
    exact hallowed
  | ok u =>
    obtain ⟨-, -, hservice⟩ := hok hresult
    dsimp only
    rw [if_neg (not_not.2 rfl)]
    refine ⟨hrouted, hothers, ⟨_, hservice, ⟨hhas.nvec, fun v => ?_⟩, fun v a ha => ?_⟩, ?_⟩
    · show Option.map _ (Function.update (s.service d.dev).vecs 0 (some ⟨d.isr, false, false⟩) v) = _
      by_cases hv : v = 0
      · rw [hv, Function.update_self]
        rfl
      · rw [Function.update_of_ne hv, hhas.eq_none not_false, if_neg fun h => hv h.1]
        rfl
    · have ha : Function.update (s.service d.dev).vecs 0 (some ⟨d.isr, false, false⟩) v = some a := ha
      by_cases hv : v = 0
      · rw [hv, Function.update_self] at ha
        rw [← Option.some.inj ha]
      · rw [Function.update_of_ne hv, hhas.eq_none not_false] at ha
        cases ha
    · show _ ∧ _
      rw [hmode]
      exact ⟨hallowed, hitype⟩

/-- `RemIntVectorServer`, of a driver that is attached. -/
theorem Driver.stepped_rem {itype : Option (BitVec 32)} (hs : Routed s)
    (hhas : d.Has (s.service d.dev) (.attached itype))
    (hreports : d.Reports (s.devs d.dev).active.mode (.attached itype)) :
    d.Stepped s (libRemIntVectorServer s (some d.dev) 0 (some d.isr)) .detaching := by
  obtain ⟨hallowed, -⟩ := hreports
  have hdetach : (s.service d.dev).detach 0 d.isr = (s.service d.dev).setVec 0 none := by
    have hserver := hhas.vecs 0
    rw [if_pos ⟨rfl, trivial⟩] at hserver
    exact if_pos hserver
  have hvecs : ∀ v, ((s.service d.dev).setVec 0 none).vecs v = none := by
    intro v
    show Function.update (s.service d.dev).vecs 0 none v = none
    by_cases hv : v = 0
    · rw [hv, Function.update_self]
    · rw [Function.update_of_ne hv, ← Option.map_eq_none_iff, hhas.vecs v, if_neg fun h => hv h.1]
  refine ⟨routed_libStep s (.vector (.remIntVectorServer (some d.dev) 0 (some d.isr))) hs,
    fun i hi => put_devs_of_ne _ _ _ _ hi, ⟨_, service_irqStep_rem hs.ledger d.dev 0 d.isr, ?_, ?_⟩, ?_⟩
  · rw [hdetach]
    refine ⟨hhas.nvec, fun v => ?_⟩
    rw [hvecs v, if_neg fun h => h.2]
    rfl
  · intro v a ha
    rw [hdetach, hvecs v] at ha
    cases ha
  · have hmode := mode_irqStep (s := s) hallowed (c := .remServer d.dev 0 (some d.isr)) nofun
    show ((irqStep s (.remServer d.dev 0 (some d.isr))).devs d.dev).active.mode.toBits &&& _ ≠ 0
    rw [hmode]
    exact hallowed

/-- `FreeIntVectors`. -/
theorem Driver.stepped_free (hs : Routed s) (hnvec : q.nvec = 0) (hq : ¬ q.Serves)
    (hreports : d.Reports .idle q) : d.Stepped s (libFreeIntVectors s (some d.dev)) q := by
  have hidle : ((libFreeIntVectors s (some d.dev)).devs d.dev).active.mode = .idle := by
    obtain ⟨hmode, -⟩ := pciIrqVectorsFree_ledger s.pcie (s.devs d.dev) (hs.ledger.shape d.dev)
    unfold libFreeIntVectors
    dsimp only
    rw [put_devs_self, hmode]
  refine ⟨routed_libStep s (.vector (.freeIntVectors (some d.dev))) hs,
    fun i hi => put_devs_of_ne _ _ _ _ hi,
    ⟨_, service_irqStep_free hs.ledger d.dev, .fresh d false hnvec.symm hq, nofun⟩, ?_⟩
  rw [hidle]
  exact hreports

/-- **One step** of a driver, from where it is. -/
theorem Driver.stepped (hs : Routed s) (hhas : d.Has (s.service d.dev) q)
    (hreports : d.Reports (s.devs d.dev).active.mode q) :
    d.Stepped s (d.step s q).1 (d.step s q).2 := by
  cases q with
  | detached =>
    have h := d.stepped_alloc hs hhas hreports
    unfold Driver.step
    dsimp only at h ⊢
    split <;> rename_i hlt
    · rwa [if_pos hlt] at h
    · rwa [if_neg hlt] at h
  | refused rc =>
    have h := d.stepped_alloc hs ⟨hhas.nvec, hhas.vecs⟩ hreports.2
    unfold Driver.step
    dsimp only at h ⊢
    split <;> rename_i hlt
    · rwa [if_pos hlt] at h
    · rwa [if_neg hlt] at h
  | allocated =>
    exact .of_same hs (fun _ _ => rfl) rfl ⟨hhas.nvec, hhas.vecs⟩ not_false ⟨hreports, rfl⟩
  | typed itype =>
    have h := d.stepped_add hs hhas hreports
    unfold Driver.step
    dsimp only at h ⊢
    split <;> rename_i hrc
    · rwa [if_pos hrc] at h
    · rwa [if_neg hrc] at h
  | failed rc => exact d.stepped_free hs rfl not_false ⟨hreports.1, rfl⟩
  | attached itype => exact d.stepped_rem hs hhas hreports
  | detaching => exact d.stepped_free hs rfl not_false rfl

end Step

/-! ## What is seen of a driver -/

/-- Where the driver has got to last is `attached`. -/
def AttachedBy (t : τ) : List (DriversLabel τ ι) → Prop :=
  Since (fun l => ∃ itype, l = .driver t (.attached itype)) fun l => ∀ q, l ≠ .driver t q

/-- The device has sent a message for its first vector, and the driver has not moved and there has been
no interrupt since. -/
def MessageWaits (dev : ι) (t : τ) : List (DriversLabel τ ι) → Prop :=
  Since (fun l => l = .other (.message dev 0)) fun l =>
    (∀ q, l ≠ .driver t q) ∧ ∀ calls, l ≠ .other (.interrupt calls)

section Seen

variable {t u : τ} {dev : ι} {h : List (DriversLabel τ ι)} {q : DriverPoint} {l : ServiceLabel ι}

/-- After a step of the driver its server is attached if and only if the driver serves at the point
reached. -/
theorem attachedBy_driver : AttachedBy t (h ++ [.driver t q]) ↔ q.Serves := by
  unfold AttachedBy
  rw [since_concat]
  constructor
  · rintro (⟨itype, heq⟩ | ⟨-, hnot⟩)
    · obtain ⟨-, rfl⟩ := DriversLabel.driver.inj heq
      exact trivial
    · exact absurd rfl (hnot q)
  · intro hq
    cases q with
    | attached itype => exact Or.inl ⟨itype, rfl⟩
    | _ => exact absurd hq not_false

/-- A step of another driver attaches or removes nothing of this one. -/
theorem attachedBy_driver_of_ne (hne : u ≠ t) : AttachedBy u (h ++ [.driver t q]) ↔ AttachedBy u h := by
  unfold AttachedBy
  rw [since_concat, or_iff_right]
  · refine and_iff_left fun q' heq => hne ?_
    exact (DriversLabel.driver.inj heq).1.symm
  · rintro ⟨itype, heq⟩
    exact hne (DriversLabel.driver.inj heq).1.symm

/-- A step of the machine attaches or removes nothing. -/
theorem attachedBy_other : AttachedBy t (h ++ [.other l]) ↔ AttachedBy t h := by
  unfold AttachedBy
  rw [since_concat, or_iff_right]
  · exact and_iff_left nofun
  · rintro ⟨itype, heq⟩
    cases heq

/-- After a step of the driver no message waits: what came before is not its to serve. -/
theorem not_messageWaits_driver : ¬ MessageWaits dev t (h ++ [.driver t q]) := by
  unfold MessageWaits
  rw [since_concat]
  rintro (heq | ⟨-, hnot, -⟩)
  · cases heq
  · exact hnot q rfl

/-- A step of another driver takes no message away. -/
theorem messageWaits_driver_of_ne (hne : u ≠ t) :
    MessageWaits dev u (h ++ [.driver t q]) ↔ MessageWaits dev u h := by
  unfold MessageWaits
  rw [since_concat, or_iff_right nofun]
  refine and_iff_left ⟨fun q' heq => hne ?_, nofun⟩
  exact (DriversLabel.driver.inj heq).1.symm

/-- A message waits once it has been sent. -/
theorem messageWaits_message : MessageWaits dev t (h ++ [.other (.message dev 0)]) :=
  since_concat.2 (Or.inl rfl)

/-- After an interrupt no message waits. -/
theorem not_messageWaits_interrupt {calls : List Interrupt} :
    ¬ MessageWaits dev t (h ++ [.other (.interrupt calls)]) := by
  unfold MessageWaits
  rw [since_concat]
  rintro (heq | ⟨-, -, hnot⟩)
  · cases heq
  · exact hnot calls rfl

/-- Any other step of the machine neither sends nor serves a message. -/
theorem messageWaits_other (hmessage : l ≠ .message dev 0) (hinterrupt : ∀ calls, l ≠ .interrupt calls) :
    MessageWaits dev t (h ++ [.other l]) ↔ MessageWaits dev t h := by
  unfold MessageWaits
  rw [since_concat, or_iff_right]
  · refine and_iff_left ⟨nofun, fun calls heq => hinterrupt calls ?_⟩
    exact DriversLabel.other.inj heq
  · exact fun heq => hmessage (DriversLabel.other.inj heq)

end Seen

/-! ## All drivers -/

/-- What is so of every driver, by what has been seen: it has what it has come to, nobody else has its
server, and a message waits for its server if it does by what has been seen. -/
structure DriversInv (d : τ → Driver ι) (h : List (DriversLabel τ ι)) (s : IrqState ι σ)
    (p : τ → DriverPoint) : Prop where
  routed : Routed s
  has : ∀ t, (d t).Has (s.service (d t).dev) (p t)
  reports : ∀ t, (d t).Reports (s.devs (d t).dev).active.mode (p t)
  only : ∀ t, s.service.OnlyAt (d t).isr (d t).dev 0
  serves : ∀ t, (p t).Serves ↔ AttachedBy t h
  waits : ∀ t a, (s.service (d t).dev).vecs 0 = some a →
    (a.pending = true ↔ MessageWaits (d t).dev t h)

section Runs

variable [DecidableEq ι] [Gic400 σ] {d : τ → Driver ι} {h : List (DriversLabel τ ι)}
  {s s' : IrqState ι σ} {p : τ → DriverPoint}

omit [Gic400 σ] in
/-- **A driver moves.** No other driver sees it. -/
theorem DriversInv.driver [DecidableEq τ] (hdev : Function.Injective fun t => (d t).dev)
    (hisr : Function.Injective fun t => (d t).isr) (hinv : DriversInv d h s p) {t : τ} {q : DriverPoint}
    (hstep : (d t).Stepped s s' q) :
    DriversInv d (h ++ [.driver t q]) s' (Function.update p t q) := by
  obtain ⟨c, hservice, hhas, hquiet⟩ := hstep.service
  have hself : s'.service (d t).dev = c := by
    rw [hservice, Function.update_self]
  have hother {u : τ} (hu : u ≠ t) : s'.service (d u).dev = s.service (d u).dev := by
    rw [hservice, Function.update_of_ne (hdev.ne hu)]
  refine ⟨hstep.routed, fun u => ?_, fun u => ?_, fun u i v a ha hserver => ?_, fun u => ?_,
    fun u a ha => ?_⟩
  · by_cases hu : u = t
    · rw [hu, hself, Function.update_self]
      exact hhas
    · rw [hother hu, Function.update_of_ne hu]
      exact hinv.has u
  · by_cases hu : u = t
    · rw [hu, Function.update_self]
      exact hstep.reports
    · rw [hstep.others _ (hdev.ne hu), Function.update_of_ne hu]
      exact hinv.reports u
  · rw [hservice] at ha
    rcases Service.vecs_update ha with ⟨rfl, hnew⟩ | ⟨-, hold⟩
    · obtain ⟨hv, -, hown⟩ := hhas.of_eq_some hnew
      exact ⟨congrArg (fun t => (d t).dev) (hisr (hown.symm.trans hserver)), hv⟩
    · exact hinv.only u i v a hold hserver
  · by_cases hu : u = t
    · rw [hu, Function.update_self]
      exact attachedBy_driver.symm
    · rw [Function.update_of_ne hu, attachedBy_driver_of_ne hu]
      exact hinv.serves u
  · by_cases hu : u = t
    · rw [hu, hself] at ha
      rw [hu, hquiet 0 a ha]
      exact iff_of_false Bool.false_ne_true not_messageWaits_driver
    · rw [hother hu] at ha
      rw [messageWaits_driver_of_ne hu]
      exact hinv.waits u a ha

/-- A call that spares a device leaves its allocation alone. -/
theorem active_libStep (s : IrqState ι σ) {c : LibCall ι} {i : ι} (h : c.Spares i) :
    ((libStep s c).devs i).active = (s.devs i).active := by
  have hne {j : ι} (hj : (some j : Option ι) ≠ some i) : i ≠ j := fun hi => hj (congrArg some hi.symm)
  have hput (j : ι) {pcie : PciController σ} {dev : PciDevice}
      (hactive : dev.active = (s.devs j).active) :
      ((s.put j pcie dev).devs i).active = (s.devs i).active := by
    by_cases hi : i = j
    · rw [hi, put_devs_self, hactive]
    · rw [put_devs_of_ne _ _ _ _ hi]
  cases c with
  | vector c =>
    cases c with
    | allocIntVectors dev =>
      cases dev with
      | none => rfl
      | some j => exact congrArg PciDevice.active (put_devs_of_ne _ _ _ _ (hne h))
    | freeIntVectors dev =>
      cases dev with
      | none => rfl
      | some j => exact congrArg PciDevice.active (put_devs_of_ne _ _ _ _ (hne h))
    | addIntVectorServer dev vec isr =>
      cases dev <;> cases isr <;> try rfl
      exact congrArg PciDevice.active (put_devs_of_ne _ _ _ _ (hne h))
    | remIntVectorServer dev vec isr =>
      cases dev <;> cases isr <;> try rfl
      exact congrArg PciDevice.active (put_devs_of_ne _ _ _ _ (hne h))
    | maskIntVector dev vec =>
      cases dev with
      | none => rfl
      | some j => exact hput j (pciIrqVecMask_outcome s.pcie (s.devs j) vec).same.2.1
    | unmaskIntVector dev vec =>
      cases dev with
      | none => rfl
      | some j => exact hput j (pciIrqVecUnmask_outcome s.pcie (s.devs j) vec).same.2.1
  | addIntServer isr dev =>
    cases isr <;> cases dev <;> try rfl
    rename_i server j
    have hother (t : IrqState ι σ) {c : IrqCall ι} (hc : c.target = j) :
        ((irqStep t c).devs i) = t.devs i := by
      rw [← hc] at h
      exact put_devs_of_ne _ _ _ _ (hne h)
    simp only [libStep]
    rw [libAddIntServer_eq]
    dsimp only
    split
    · split
      · rw [hother _ (c := .addServer j 0 (some server)) rfl, hother _ (c := .vectorsAlloc j 1 1 _) rfl]
      · rw [hother _ (c := .vectorsFree j) rfl, hother _ (c := .addServer j 0 (some server)) rfl,
          hother _ (c := .vectorsAlloc j 1 1 _) rfl]
    · rw [hother _ (c := .vectorsAlloc j 1 1 _) rfl]
  | remIntServer isr dev =>
    cases isr <;> cases dev <;> try rfl
    refine congrArg PciDevice.active ((put_devs_of_ne _ _ _ _ (hne h)).trans ?_)
    exact put_devs_of_ne _ _ _ _ (hne h)
  | enableMSI dev =>
    cases dev with
    | none => rfl
    | some j =>
      simp only [libStep, libEnableMSI]
      split
      · rfl
      · exact hput j rfl
  | disableMSI dev =>
    cases dev with
    | none => rfl
    | some j => exact hput j rfl
  | maskMSI dev =>
    cases dev with
    | none => rfl
    | some j => exact hput j (pciIrqVecMask_outcome s.pcie (s.devs j) 0).same.2.1
  | unmaskMSI dev =>
    cases dev with
    | none => rfl
    | some j => exact hput j (pciIrqVecUnmask_outcome s.pcie (s.devs j) 0).same.2.1
  | checkSetINTxMask dev mask =>
    cases dev with
    | none => rfl
    | some j => exact hput j (pciIntx_active _ _)

/-- A call of another client: the drivers keep what they have, and what waits goes on waiting. -/
theorem DriversInv.call (hinv : DriversInv d h s p) {c : LibCall ι} {answer : Answer}
    (hforeign : Foreign d (.call c answer)) (hstep : irqSystem s (.call c answer) s') :
    DriversInv d (h ++ [.other (.call c answer)]) s' p := by
  obtain ⟨hrouted, hservice⟩ := service_step hinv.routed hstep
  obtain ⟨-, rfl⟩ := hstep
  have hkept (t : τ) := Service.Answers.spared hservice (hforeign t).1
  refine ⟨hrouted, fun t => (hinv.has t).undisturbed (hkept t), fun t => ?_,
    fun t i v a ha hserver => ?_, fun t => (hinv.serves t).trans attachedBy_other.symm, fun t a ha => ?_⟩
  · rw [active_libStep s (hforeign t).1]
    exact hinv.reports t
  · rcases Service.Answers.server_mem hservice ha with ⟨b, hb, hsame⟩ | hadds
    · exact hinv.only t i v b hb (hsame.trans hserver)
    · exact absurd (hserver ▸ hadds) (hforeign t).2
  · have hpending := (hkept t).pending 0
    rw [ha] at hpending
    obtain ⟨b, hb, hsame⟩ := Option.map_eq_some_iff.1 hpending.symm
    have hsame : b.pending = a.pending := hsame
    rw [messageWaits_other (l := .call c answer) nofun nofun, ← hsame]
    exact hinv.waits t b hb

/-- A message: the drivers keep what they have, and it waits for the one it is for. -/
theorem DriversInv.message (hinv : DriversInv d h s p) {i : ι} {v : ℕ}
    (hstep : irqSystem s (.message i v) s') :
    DriversInv d (h ++ [.other (.message i v)]) s' p := by
  obtain ⟨hrouted, hservice⟩ := service_step hinv.routed hstep
  obtain ⟨-, -, hsignal⟩ := hservice
  have hdevs : s'.devs = s.devs := by
    rw [hstep.2.2]
    unfold IrqState.arrive
    split <;> rfl
  have hclient (j : ι) : s'.service j = if j = i then (s.service i).signal v else s.service j := by
    rw [hsignal, Function.update_apply]
  have hmap (w : ℕ) : (((s.service i).signal v).vecs w).map (·.server)
      = ((s.service i).vecs w).map (·.server) := by
    show (Function.update (s.service i).vecs v _ w).map _ = _
    by_cases hw : w = v
    · rw [hw, Function.update_self, Option.map_map]
      rfl
    · rw [Function.update_of_ne hw]
  refine ⟨hrouted, fun t => ?_, fun t => ?_, fun t j w a ha hserver => ?_,
    fun t => (hinv.serves t).trans attachedBy_other.symm, fun t a ha => ?_⟩
  · rw [hclient]
    split
    · rename_i heq
      have hhas := hinv.has t
      rw [heq] at hhas
      exact ⟨hhas.nvec, fun w => (hmap w).trans (hhas.vecs w)⟩
    · exact hinv.has t
  · rw [hdevs]
    exact hinv.reports t
  · rw [hsignal] at ha
    obtain ⟨b, hb, hsame⟩ := Service.server_update (fun _ _ hb => Client.exists_of_setVec_map
      (f := fun a => { a with pending := true }) (fun _ => rfl) hb) ha
    exact hinv.only t j w b hb (hsame.trans hserver)
  · by_cases hhit : (d t).dev = i ∧ v = 0
    · obtain ⟨heq, rfl⟩ := hhit
      rw [hclient, if_pos heq] at ha
      have ha : Function.update (s.service i).vecs 0 _ 0 = some a := ha
      rw [Function.update_self] at ha
      obtain ⟨b, -, rfl⟩ := Option.map_eq_some_iff.1 ha
      rw [heq]
      exact iff_of_true rfl messageWaits_message
    · have hnot : ServiceLabel.message i v ≠ .message (d t).dev 0 := by
        intro heq
        obtain ⟨hi, hv⟩ := ServiceLabel.message.inj heq
        exact hhit ⟨hi.symm, hv⟩
      rw [messageWaits_other hnot nofun]
      refine hinv.waits t a ?_
      rw [hclient] at ha
      split at ha
      · rename_i heq
        have ha : Function.update (s.service i).vecs v _ 0 = some a := ha
        rwa [Function.update_of_ne fun hv => hhit ⟨heq, hv.symm⟩, ← heq] at ha
      · exact ha

/-- An interrupt: the drivers keep what they have, and no message waits any more. -/
theorem DriversInv.interrupt (hinv : DriversInv d h s p) {calls : List Interrupt}
    (hstep : irqSystem s (.interrupt calls) s') :
    DriversInv d (h ++ [.other (.interrupt calls)]) s' p := by
  obtain ⟨hrouted, hservice⟩ := service_step hinv.routed hstep
  obtain ⟨-, -, -, -, hserved⟩ := hservice
  have hdevs : s'.devs = s.devs := by
    rw [hstep.2.2]
    rfl
  have hclient (j : ι) : s'.service j = (s.service j).served := by
    rw [hserved]
  refine ⟨hrouted, fun t => ?_, fun t => ?_, fun t j w a ha hserver => ?_,
    fun t => (hinv.serves t).trans attachedBy_other.symm, fun t a ha => ?_⟩
  · rw [hclient]
    refine ⟨(hinv.has t).nvec, fun w => Eq.trans ?_ ((hinv.has t).vecs w)⟩
    show (((s.service (d t).dev).vecs w).map _).map _ = _
    rw [Option.map_map]
    rfl
  · rw [hdevs]
    exact hinv.reports t
  · rw [hclient] at ha
    obtain ⟨b, hb, rfl⟩ := Option.map_eq_some_iff.1 ha
    exact hinv.only t j w b hb hserver
  · rw [hclient] at ha
    obtain ⟨b, -, rfl⟩ := Option.map_eq_some_iff.1 ha
    exact iff_of_false Bool.false_ne_true not_messageWaits_interrupt

/-- **Something else is seen.** The drivers keep what they have, and a message waits once it has come. -/
theorem DriversInv.other (hinv : DriversInv d h s p) {l : ServiceLabel ι} (hforeign : Foreign d l)
    (hstep : irqSystem s l s') : DriversInv d (h ++ [.other l]) s' p := by
  -- by what is seen; whose turn it is among the drivers stays as it was
  cases l with
  | call c answer => exact hinv.call hforeign hstep
  | message i v => exact hinv.message hstep
  | interrupt calls => exact hinv.interrupt hstep

variable [DecidableEq τ]

/-- **One step** of the drivers and of whatever else there is. -/
theorem DriversInv.step (hdev : Function.Injective fun t => (d t).dev)
    (hisr : Function.Injective fun t => (d t).isr) {x x' : IrqState ι σ × (τ → DriverPoint)}
    {l : DriversLabel τ ι} (hinv : DriversInv d h x.1 x.2) (hstep : driversSystem d x l x') :
    DriversInv d (h ++ [l]) x'.1 x'.2 := by
  cases l with
  | driver t q =>
    obtain ⟨hmoves, hpoint⟩ := hstep
    have hstepped := (d t).stepped hinv.routed (hinv.has t) (hinv.reports t)
    rw [hmoves] at hstepped
    rw [hpoint]
    exact hinv.driver hdev hisr hstepped
  | other l =>
    obtain ⟨hforeign, hstep, hpoint⟩ := hstep
    rw [hpoint]
    exact hinv.other hforeign hstep

omit [DecidableEq ι] [Gic400 σ] [DecidableEq τ] in
/-- Before any driver has done anything. -/
theorem Probed.driversInv (hprobed : Probed s)
    (hw : ∀ i, (s.devs i).msi.capOffset ≠ 0 → MsiMsgWritable (s.devs i)) (d : τ → Driver ι) :
    DriversInv d [] s fun _ => .detached := by
  have hidle (i : ι) : (s.devs i).active.mode = .idle :=
    congrArg IrqAlloc.mode (hprobed.devs i).decoded.1
  have hclient (i : ι) : s.service i = .idle := clientOf_idle (hprobed.slotsOwned.shape i) (hidle i)
  refine ⟨hprobed.routed hw, fun t => ?_, fun t => hidle _, fun t i v a ha => ?_, fun t => ?_,
    fun t a ha => ?_⟩
  · rw [hclient]
    exact .fresh (d t) false rfl not_false
  · rw [hclient] at ha
    cases ha
  · exact iff_of_false not_false (not_since_nil _ _)
  · rw [hclient] at ha
    cases ha

/-! ## What a driver may rely on -/

omit [DecidableEq ι] [Gic400 σ] [DecidableEq τ] in
/-- What `pci_irq_attach` and `pci_irq_detach` say to a driver. Once it is attached its server is on the
one vector of its device, of a type that was allowed and is the one it was told. A driver that was
refused has nothing, as one that was never attached or is not any more. -/
def Driver.Kept (d : Driver ι) (s : IrqState ι σ) : DriverPoint → Prop
  | .detached => (s.devs d.dev).active.mode = .idle
  | .refused rc => rc < 0 ∧ (s.devs d.dev).active.mode = .idle
  | .attached itype => (s.devs d.dev).active.nvec = 1 ∧ s.Attached d.dev 0 d.isr ∧
      libGetIntVectorType s (some d.dev) &&& d.allowedFlags ≠ 0 ∧
      itype = if d.itypeOut then some (libGetIntVectorType s (some d.dev)) else none
  | _ => (s.devs d.dev).active.nvec = 1 ∧ ∀ v isr, ¬ s.Attached d.dev v isr

omit [DecidableEq ι] [Gic400 σ] [DecidableEq τ] in
/-- In a state of the invariant each driver keeps what it has at its point. -/
theorem DriversInv.kept (hinv : DriversInv d h s p) (t : τ) : (d t).Kept s (p t) := by
  have hhas := hinv.has t
  have hreports := hinv.reports t
  have hattached (v : ℕ) (isr : Interrupt) : s.Attached (d t).dev v isr ↔
      ((s.service (d t).dev).vecs v).map (·.server) = some isr :=
    (server_attachmentOf (hinv.routed.ledger.shape (d t).dev)).symm
  have hbusy (hnvec : (p t).nvec = 1) (hq : ¬ (p t).Serves) : (s.devs (d t).dev).active.nvec = 1 ∧
      ∀ v isr, ¬ s.Attached (d t).dev v isr := by
    refine ⟨hhas.nvec.trans hnvec, fun v isr hat => ?_⟩
    rw [hattached, hhas.eq_none hq v] at hat
    cases hat
  cases hq : p t with
  | detached =>
    rw [hq] at hreports
    exact hreports
  | refused rc =>
    rw [hq] at hreports
    exact hreports
  | attached itype =>
    rw [hq] at hreports hhas
    refine ⟨hhas.nvec, (hattached 0 _).2 ?_, hreports⟩
    rw [hhas.vecs 0, if_pos ⟨rfl, trivial⟩]
  | _ =>
    rw [hq] at hbusy
    exact hbusy rfl not_false

end Runs

/-- Of a list of pairs without repetitions in the first, one with the second occurs once at most, if it
has but one first. -/
theorem count_map_snd_le_one {α β : Type*} [DecidableEq β] {l : List (α × β)}
    (hnodup : (l.map (·.1)).Nodup) {a : α} {b : β} (honly : ∀ x ∈ l, x.2 = b → x.1 = a) :
    (l.map (·.2)).count b ≤ 1 := by
  induction l with
  | nil => exact Nat.zero_le 1
  | cons x l ih =>
    obtain ⟨hnew, hrest⟩ := List.nodup_cons.1 hnodup
    by_cases hx : x.2 = b
    · have hnone : (l.map (·.2)).count b = 0 := by
        rw [List.count_eq_zero]
        intro hmem
        obtain ⟨y, hy, hyb⟩ := List.mem_map.1 hmem
        have hsame : y.1 = x.1 :=
          (honly y (List.mem_cons_of_mem _ hy) hyb).trans (honly x List.mem_cons_self hx).symm
        exact hnew (List.mem_map.2 ⟨y, hy, hsame⟩)
      rw [List.map_cons, hx, List.count_cons_self, hnone]
    · rw [List.map_cons, List.count_cons_of_ne hx]
      exact ih hrest fun y hy => honly y (List.mem_cons_of_mem _ hy)

variable [DecidableEq ι] [Gic400 σ] [DecidableEq τ]

/-- **What a driver may rely on.** Of drivers with devices and servers of their own, from probe, in
whatever order they go on and whatever else is seen: each is kept what it was promised, and an interrupt
calls the server of a driver, once, if it is attached and a message waits for it, and otherwise not. -/
theorem attach_kept {d : τ → Driver ι} (hdev : Function.Injective fun t => (d t).dev)
    (hisr : Function.Injective fun t => (d t).isr) {s : IrqState ι σ} (h : Probed s)
    (hw : ∀ i, (s.devs i).msi.capOffset ≠ 0 → MsiMsgWritable (s.devs i))
    {ls : List (DriversLabel τ ι)} {x : IrqState ι σ × (τ → DriverPoint)}
    (hpath : Path (driversSystem d) (s, fun _ => .detached) ls x) :
    (∀ t, (d t).Kept x.1 (x.2 t)) ∧
      ∀ before calls after, ls = before ++ .other (.interrupt calls) :: after → ∀ t,
        calls.count (d t).isr ≤ 1 ∧
          ((d t).isr ∈ calls ↔ AttachedBy t before ∧ MessageWaits (d t).dev t before) := by
  have hrun {ls : List (DriversLabel τ ι)} {x : IrqState ι σ × (τ → DriverPoint)}
      (hpath : Path (driversSystem d) (s, fun _ => .detached) ls x) : DriversInv d ls x.1 x.2 :=
    Path.history (I := fun h (x : IrqState ι σ × (τ → DriverPoint)) => DriversInv d h x.1 x.2)
      (fun hinv hstep => hinv.step hdev hisr hstep) hpath (h := []) (h.driversInv hw d)
  refine ⟨(hrun hpath).kept, ?_⟩
  rintro before calls after rfl t
  obtain ⟨y, hbefore, hafter⟩ := hpath.of_append
  have hinv := hrun hbefore
  obtain _ | ⟨hfirst, -⟩ := hafter
  obtain ⟨-, hstep, -⟩ := hfirst
  obtain ⟨-, due, hnodup, hdue, rfl, -⟩ := service_step hinv.routed hstep
  have honly : ∀ z ∈ due, z.2 = (d t).isr → z.1 = ((d t).dev, 0) := by
    rintro ⟨⟨i, v⟩, server⟩ hz hserver
    obtain ⟨a, ha, rfl, -⟩ := (hdue _ _).1 hz
    obtain ⟨rfl, rfl⟩ := hinv.only t i v a ha hserver
    rfl
  refine ⟨count_map_snd_le_one hnodup honly, ?_⟩
  constructor
  · intro hcalled
    obtain ⟨z, hz, hserver⟩ := List.mem_map.1 hcalled
    have hq := honly z hz hserver
    obtain ⟨a, ha, -, hpending⟩ := (hdue z.1 z.2).1 hz
    rw [hq] at ha
    obtain ⟨-, hserves, -⟩ := (hinv.has t).of_eq_some ha
    exact ⟨(hinv.serves t).1 hserves, (hinv.waits t a ha).1 hpending⟩
  · rintro ⟨hattached, hwaits⟩
    obtain ⟨a, ha, hserver⟩ := (hinv.has t).exists_of_serves ((hinv.serves t).2 hattached)
    have hz := (hdue ((d t).dev, 0) (d t).isr).2 ⟨a, ha, hserver, (hinv.waits t a ha).2 hwaits⟩
    exact List.mem_map.2 ⟨_, hz, rfl⟩

/-! ## Two drivers -/

section Paths

variable {d : τ → Driver ι} {s s' : IrqState ι σ} {p : τ → DriverPoint} {ls : List (DriversLabel τ ι)}
  {x : IrqState ι σ × (τ → DriverPoint)}

/-- A path may begin with a step of a driver. -/
theorem path_driver {t : τ} {q : DriverPoint} (hq : ((d t).step s (p t)).2 = q)
    (hrest : Path (driversSystem d) (((d t).step s (p t)).1, Function.update p t q) ls x) :
    Path (driversSystem d) (s, p) (.driver t q :: ls) x :=
  .cons (t := (((d t).step s (p t)).1, Function.update p t q)) ⟨Prod.ext rfl hq, rfl⟩ hrest

/-- A path may begin with a step of the machine. -/
theorem path_other {l : ServiceLabel ι} (hforeign : Foreign d l) (hstep : irqSystem s l s')
    (hrest : Path (driversSystem d) (s', p) ls x) : Path (driversSystem d) (s, p) (.other l :: ls) x :=
  .cons (t := (s', p)) ⟨hforeign, hstep, rfl⟩ hrest

end Paths

/-- A driver of each device; one of them asks for the type of its interrupt. -/
def sampleDrivers (t : Bool) : Driver Bool where
  dev := t
  isr := if t then ⟨0x1000⟩ else ⟨0x2000⟩
  allowedFlags := pciIrqMsi
  itypeOut := t

/-- What is seen while one driver is attached, called and detached, and the other attached meanwhile. -/
def attachLabels : List (DriversLabel Bool Bool) :=
  [.driver true .allocated, .driver false .allocated, .driver true (.typed (some pciIrqMsi)),
    .driver true (.attached (some pciIrqMsi)), .driver false (.typed none), .other (.message true 0),
    .driver false (.attached none), .other (.interrupt [⟨0x1000⟩]), .driver true .detaching,
    .driver true .detached]

/-- Two drivers on one controller, with interrupts between their calls. -/
theorem attach_kept_sample : ∃ x : IrqState Bool GicTable × (Bool → DriverPoint),
    Path (driversSystem sampleDrivers) (sampleState, fun _ => .detached) attachLabels x ∧
      (∀ t, (sampleDrivers t).Kept x.1 (x.2 t)) ∧
        ∀ before calls after, attachLabels = before ++ .other (.interrupt calls) :: after → ∀ t,
          calls.count (sampleDrivers t).isr ≤ 1 ∧
            ((sampleDrivers t).isr ∈ calls ↔
              AttachedBy t before ∧ MessageWaits (sampleDrivers t).dev t before) := by
  have hpath : ∃ x : IrqState Bool GicTable × (Bool → DriverPoint),
      Path (driversSystem sampleDrivers) (sampleState, fun _ => .detached) attachLabels x :=
    ⟨_, path_driver (by decide +kernel) (path_driver (by decide +kernel)
      (path_driver (by decide +kernel) (path_driver (by decide +kernel)
        (path_driver (by decide +kernel) (path_other trivial ⟨by decide +kernel, by decide +kernel, rfl⟩
          (path_driver (by decide +kernel)
            (path_other trivial ⟨by decide +kernel, by decide +kernel, rfl⟩
              (path_driver (by decide +kernel) (path_driver (by decide +kernel) (.nil _))))))))))⟩
  obtain ⟨x, hpath⟩ := hpath
  have hisr : ∀ t u, (sampleDrivers t).isr = (sampleDrivers u).isr → t = u := by decide
  exact ⟨x, hpath, attach_kept (fun _ _ h => h) (fun t u h => hisr t u h) sampleState_probed
    (fun _ _ => sampleDevice_msiMsgWritable) hpath⟩

end BcmPcie
