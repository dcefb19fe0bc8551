import BcmPcie.Irq.DemuxSteps

/-! # Messages for the previous owner of a slot

A message of a slot's previous owner can arrive after the slot was unbound, and stays latched. The next
bind drops it, but only after its server is in the table: a demux run in between, which another slot
triggers, hands the old message to the new server.

* `Stale` — what becomes of the messages latched when a bind begins.
* `stale_unseen_iff` — the new server is spared just when no demux run starts between the two writes
  while such a message is latched. -/

namespace BcmPcie

open BitSet Runs

variable {σ : Type*}

/-- What becomes of the messages that a slot had latched at some moment. A clear of the slot's status
bit, whoever writes it, takes them out of the register; if it was the demux, it calls the slot's
server for them next. -/
structure Stale where
  latched : Bool
  taken : Bool := false
  /-- The servers that were called for them. -/
  dispatched : List Interrupt := []

/-- The messages that `slot` has latched now. -/
def Stale.start (s : DemuxState σ) (slot : ℕ) : Stale := ⟨s.pcie.intr2.status.getLsbD slot, false, []⟩

/-- A clear of the slot's status bit by the demux. -/
def Stale.take (g : Stale) : Stale := { g with latched := false, taken := g.latched }

/-- A call of the slot's server. -/
def Stale.dispatch (g : Stale) (server : Option Interrupt) : Stale :=
  { g with
    taken := false
    dispatched := if g.taken then server.toList ++ g.dispatched else g.dispatched }

/-- What a step makes of the messages. -/
def staleStep (slot : ℕ) (s : DemuxState σ) (g : Stale) : DemuxEvent → Stale
  | .isrClear =>
    match s.isr with
    | .clear status => if status.ctz.toNat = slot then g.take else g
    | _ => g
  | .isrCall =>
    match s.isr with
    | .call k _ => if k = slot then g.dispatch (s.pcie.msi.servers slot) else g
    | _ => g
  | .bindClr => if s.task = .bindClr slot then { g with latched := false } else g
  | _ => g

/-- One step, with the messages watched. -/
def watchStep (slot : ℕ) (st : DemuxState σ × Stale) (e : DemuxEvent) :
    Option (DemuxState σ × Stale) :=
  (demuxStep st.1 e).map (·, staleStep slot st.1 st.2 e)

/-- No demux run starts between the write of the slot's server and the clear of its status bit while a
message from before the bind is latched. -/
def EntersClear (slot : ℕ) (st : DemuxState σ × Stale) (e : DemuxEvent) : Prop :=
  e = .isrEnter → st.1.task = .bindClr slot → st.2.latched = false

variable {slot : ℕ} {isr : Interrupt} {st st' : DemuxState σ × Stale} {e : DemuxEvent}

/-- A step under watch is a step of the machine. -/
theorem watchStep_move (h : watchStep slot st e = some st') :
    DemuxMove st.1 e st'.1 ∧ st'.2 = staleStep slot st.1 st.2 e := by
  obtain ⟨t, ht, rfl⟩ := Option.map_eq_some_iff.1 h
  exact ⟨demuxStep_move ht, rfl⟩

/-- A run with the messages watched is a run. -/
theorem exec_watchStep {es : List DemuxEvent} (h : exec (watchStep slot) st es = some st') :
    exec demuxStep st.1 es = some st'.1 := by
  induction es generalizing st with
  | nil => exact exec_nil.2 (congrArg Prod.fst (exec_nil.1 h))
  | cons e es ih =>
    obtain ⟨u, hu, hrest⟩ := exec_cons.1 h
    obtain ⟨t, ht, rfl⟩ := Option.map_eq_some_iff.1 hu
    exact exec_cons.2 ⟨t, ht, ih hrest⟩

/-! ## The condition is enough -/

/-- The new server has not been called for an old message, and cannot be as things stand: such a
message is latched only while the bind has yet to clear it and the demux does not run. -/
structure Spared (slot : ℕ) (isr : Interrupt) (st : DemuxState σ × Stale) : Prop where
  latched : st.2.latched = true → st.1.task = .bindClr slot ∧ st.1.isr = .idle
  taken : st.2.taken = false
  dispatched : isr ∉ st.2.dispatched

/-- Away from the clear of the slot, and while the demux runs, no old message is latched. -/
theorem Spared.latched_eq_false (h : Spared slot isr st)
    (hne : st.1.task ≠ .bindClr slot ∨ st.1.isr ≠ .idle) : st.2.latched = false := by
  by_contra hl
  obtain ⟨htask, hisr⟩ := h.latched (Bool.eq_true_of_not_eq_false hl)
  exact hne.elim (fun hn => hn htask) fun hn => hn hisr

/-- A step that leaves the messages alone, where none is latched. -/
theorem Spared.of_eq (h : Spared slot isr st) (hl : st.2.latched = false) (hg : st'.2 = st.2) :
    Spared slot isr st' := by
  refine ⟨fun hl' => ?_, by rw [hg]; exact h.taken, by rw [hg]; exact h.dispatched⟩
  rw [hg, hl] at hl'
  exact absurd hl' (by decide)

/-- A step that meets the condition keeps the new server spared. -/
theorem spared_step (h : Spared slot isr st) (hC : EntersClear slot st e)
    (hstep : watchStep slot st e = some st') : Spared slot isr st' := by
  obtain ⟨hmove, hg⟩ := watchStep_move hstep
  generalize ht : st'.1 = t at hmove
  -- messages and masks move neither the task nor the demux
  have hsame : st'.1.task = st.1.task → st'.1.isr = st.1.isr → st'.2 = st.2 → Spared slot isr st' :=
    fun htask hisr hg => ⟨by rw [htask, hisr, hg]; exact h.latched, by rw [hg]; exact h.taken,
      by rw [hg]; exact h.dispatched⟩
  cases hmove with
  | arrive => exact hsame (by rw [ht]) (by rw [ht]) hg
  -- the one step the condition speaks of: no run starts with an old message latched
  | isrEnter hisr =>
    refine h.of_eq ?_ hg
    by_contra hl
    have htask := (h.latched (Bool.eq_true_of_not_eq_false hl)).1
    exact hl (hC rfl htask)
  -- once the demux runs no old message is latched, so it can take none
  | isrClear status hisr =>
    have hl := h.latched_eq_false (Or.inr (by rw [hisr]; simp))
    simp only [staleStep, hisr] at hg
    split at hg
    · refine ⟨fun hl' => ?_, ?_, ?_⟩
      · rw [hg] at hl'
        exact absurd hl' (by simp [Stale.take])
      · rw [hg]
        exact hl
      · rw [hg]
        exact h.dispatched
    · exact h.of_eq hl hg
  | isrCall k status hisr =>
    have hl := h.latched_eq_false (Or.inr (by rw [hisr]; simp))
    simp only [staleStep, hisr] at hg
    split at hg
    · refine ⟨fun hl' => ?_, by rw [hg]; rfl, ?_⟩
      · rw [hg] at hl'
        exact absurd (hl.symm.trans hl') (by decide)
      · rw [hg, Stale.dispatch, h.taken]
        exact h.dispatched
    · exact h.of_eq hl hg
  | bindServer k server _ htask => exact h.of_eq (h.latched_eq_false (Or.inl (by rw [htask]; simp))) hg
  | bindClr k _ htask =>
    simp only [staleStep] at hg
    split at hg
    · refine ⟨fun hl' => ?_, by rw [hg]; exact h.taken, by rw [hg]; exact h.dispatched⟩
      rw [hg] at hl'
      exact absurd hl' (by simp)
    · rename_i hne
      exact h.of_eq (h.latched_eq_false (Or.inl hne)) hg
  | bindOpen k _ htask => exact h.of_eq (h.latched_eq_false (Or.inl (by rw [htask]; simp))) hg
  | unbindMask k _ htask => exact h.of_eq (h.latched_eq_false (Or.inl (by rw [htask]; simp))) hg
  | unbindServer k _ htask => exact h.of_eq (h.latched_eq_false (Or.inl (by rw [htask]; simp))) hg
  | mask => exact hsame (by rw [ht]) (by rw [ht]) hg
  | unmask => exact hsame (by rw [ht]) (by rw [ht]) hg

/-! ## The condition is necessary -/

/-- While an old message is latched the bind has not cleared it, and the new server is in the table. -/
def Exposed (slot : ℕ) (isr : Interrupt) (st : DemuxState σ × Stale) : Prop :=
  st.2.latched = true → st.1.task = .bindClr slot ∧ st.1.pcie.msi.servers slot = some isr ∧
    st.1.pcie.intr2.status.getLsbD slot = true

/-- A step keeps an old message where the bind has yet to clear it. -/
theorem exposed_step (hslot : slot < 32) (h : Exposed slot isr st)
    (hstep : watchStep slot st e = some st') : Exposed slot isr st' := by
  obtain ⟨hmove, hg⟩ := watchStep_move hstep
  -- away from the clear of this slot nothing is latched, and nothing will be
  have hfalse : st.1.task ≠ .bindClr slot → st'.2 = st.2 → Exposed slot isr st' := by
    intro hne hg hl
    rw [hg] at hl
    exact absurd (h hl).1 hne
  -- a step that moves neither the task nor the servers, and clears no status bit of the slot
  have hkeep : st'.2.latched = st.2.latched → st'.1.task = st.1.task →
      st'.1.pcie.msi.servers = st.1.pcie.msi.servers →
      (st.1.pcie.intr2.status.getLsbD slot = true → st'.1.pcie.intr2.status.getLsbD slot = true) →
      Exposed slot isr st' := by
    intro hg htask hservers hbit hl
    obtain ⟨h₁, h₂, h₃⟩ := h (hg ▸ hl)
    exact ⟨htask.trans h₁, by rw [hservers]; exact h₂, hbit h₃⟩
  generalize ht : st'.1 = t at hmove
  cases hmove with
  | arrive => exact hkeep (by rw [hg]; rfl) (by rw [ht]) (by rw [ht]; rfl) (by rw [ht]; exact latched_latch)
  | isrEnter => exact hkeep (by rw [hg]; rfl) (by rw [ht]) (by rw [ht]) (by rw [ht]; exact id)
  | isrClear status hisr =>
    simp only [staleStep, hisr] at hg
    split at hg
    · intro hl
      rw [hg] at hl
      exact absurd hl (by simp [Stale.take])
    · rename_i hne
      exact hkeep (by rw [hg]) (by rw [ht]) (by rw [ht]; rfl)
        (by rw [ht]; exact latched_writeClr hslot hne)
  | isrCall k status hisr =>
    simp only [staleStep, hisr] at hg
    refine hkeep ?_ (by rw [ht]) (by rw [ht]) (by rw [ht]; exact id)
    rw [hg]
    split <;> rfl
  | bindServer k server _ htask => exact hfalse (by rw [htask]; simp) hg
  | bindClr k _ htask =>
    simp only [staleStep] at hg
    split at hg
    · intro hl
      rw [hg] at hl
      exact absurd hl (by simp)
    · rename_i hne
      exact hfalse hne hg
  | bindOpen k _ htask => exact hfalse (by rw [htask]; simp) hg
  | unbindMask k _ htask => exact hfalse (by rw [htask]; simp) hg
  | unbindServer k _ htask => exact hfalse (by rw [htask]; simp) hg
  | mask => exact hkeep (by rw [hg]; rfl) (by rw [ht]) (by rw [ht]; rfl) (by rw [ht]; exact id)
  | unmask => exact hkeep (by rw [hg]; rfl) (by rw [ht]) (by rw [ht]; rfl) (by rw [ht]; exact id)

/-- An old message is on its way to the new server: the demux has its slot left to do, or has taken
it and calls the server next, or has called it. -/
inductive Doomed (slot : ℕ) (isr : Interrupt) (st : DemuxState σ × Stale) : Prop
  | clear (status : BitVec 32) (hisr : st.1.isr = .clear status) (hbit : status.getLsbD slot = true)
      (hlatched : st.2.latched = true) (hserver : st.1.pcie.msi.servers slot = some isr)
  | other (k : ℕ) (status : BitVec 32) (hisr : st.1.isr = .call k status) (hne : k ≠ slot)
      (hbit : status.getLsbD slot = true) (hlatched : st.2.latched = true)
      (hserver : st.1.pcie.msi.servers slot = some isr)
  | call (status : BitVec 32) (hisr : st.1.isr = .call slot status) (htaken : st.2.taken = true)
      (hserver : st.1.pcie.msi.servers slot = some isr)
  | dispatched (h : isr ∈ st.2.dispatched)

/-- A step leaves alone who was called, or adds to it. -/
theorem dispatched_subset (slot : ℕ) (s : DemuxState σ) (g : Stale) (e : DemuxEvent)
    (h : isr ∈ g.dispatched) : isr ∈ (staleStep slot s g e).dispatched := by
  unfold staleStep
  split
  · split
    · split
      · exact h
      · exact h
    · exact h
  · split
    · split
      · unfold Stale.dispatch
        dsimp only
        split
        · exact List.mem_append_right _ h
        · exact h
      · exact h
    · exact h
  · split
    · exact h
    · exact h
  · exact h

/-- Messages and servers do not bring an old message back. -/
theorem Doomed.congr (h : Doomed slot isr st) (hisr : st'.1.isr = st.1.isr)
    (hserver : st'.1.pcie.msi.servers = st.1.pcie.msi.servers) (hg : st'.2 = st.2) :
    Doomed slot isr st' := by
  cases h with
  | clear status h₁ h₂ h₃ h₄ =>
    exact .clear status (hisr.trans h₁) h₂ (by rw [hg]; exact h₃) (by rw [hserver]; exact h₄)
  | other k status h₁ h₂ h₃ h₄ h₅ =>
    exact .other k status (hisr.trans h₁) h₂ h₃ (by rw [hg]; exact h₄) (by rw [hserver]; exact h₅)
  | call status h₁ h₂ h₃ =>
    exact .call status (hisr.trans h₁) (by rw [hg]; exact h₂) (by rw [hserver]; exact h₃)
  | dispatched h => exact .dispatched (by rw [hg]; exact h)

/-- A task does not act while the demux runs. -/
theorem Doomed.of_idle (h : Doomed slot isr st) (hidle : st.1.isr = .idle)
    (hg : st'.2 = staleStep slot st.1 st.2 e) : Doomed slot isr st' := by
  cases h with
  | clear _ hisr => exact absurd (hidle.symm.trans hisr) (by simp)
  | other _ _ hisr => exact absurd (hidle.symm.trans hisr) (by simp)
  | call _ hisr => exact absurd (hidle.symm.trans hisr) (by simp)
  | dispatched h => exact .dispatched (by rw [hg]; exact dispatched_subset slot _ _ _ h)

/-- With a bit set the interrupt goes on to clear it. -/
theorem isrNext_of_bit {status : BitVec 32} (h : status.getLsbD slot = true) :
    isrNext status = .clear status := by
  rw [isrNext, if_neg]
  rintro rfl
  simp at h

/-- Whatever step comes, the old message stays on its way or has been delivered. -/
theorem doomed_step (h : Doomed slot isr st) (hstep : watchStep slot st e = some st') :
    Doomed slot isr st' := by
  obtain ⟨hmove, hg⟩ := watchStep_move hstep
  generalize ht : st'.1 = t at hmove
  -- the demux has the CPU: a task step ends the argument, a demux step takes it one stage on
  cases hmove with
  | arrive => exact h.congr (by rw [ht]) (by rw [ht]; rfl) hg
  | mask => exact h.congr (by rw [ht]) (by rw [ht]; rfl) hg
  | unmask => exact h.congr (by rw [ht]) (by rw [ht]; rfl) hg
  | isrEnter hidle => exact h.of_idle hidle hg
  | bindServer _ _ hidle => exact h.of_idle hidle hg
  | bindClr _ hidle => exact h.of_idle hidle hg
  | bindOpen _ hidle => exact h.of_idle hidle hg
  | unbindMask _ hidle => exact h.of_idle hidle hg
  | unbindServer _ hidle => exact h.of_idle hidle hg
  | isrClear status hisr =>
    cases h with
    | clear status' hisr' hbit hlatched hserver =>
      obtain rfl : status = status' := by
        have := hisr.symm.trans hisr'
        simpa using this
      simp only [staleStep, hisr] at hg
      by_cases hk : status.ctz.toNat = slot
      · -- the lowest slot left is this one: the demux takes the message
        rw [if_pos hk] at hg
        refine .call (status &&& (status - 1#32)) ?_ ?_ ?_
        · rw [ht, hk]
        · rw [hg]
          exact hlatched
        · rw [ht]
          exact hserver
      · rw [if_neg hk] at hg
        refine .other status.ctz.toNat (status &&& (status - 1#32)) ?_ hk ?_ ?_ ?_
        · rw [ht]
        · rw [getLsbD_and_sub_one (by rintro rfl; simp at hbit), hbit, decide_eq_true (Ne.symm hk)]
          rfl
        · rw [hg]
          exact hlatched
        · rw [ht]
          exact hserver
    | other _ _ hisr' => exact absurd (hisr.symm.trans hisr') (by simp)
    | call _ hisr' => exact absurd (hisr.symm.trans hisr') (by simp)
    | dispatched h => exact .dispatched (by rw [hg]; exact dispatched_subset slot _ _ _ h)
  -- the call of another slot goes back to the status word, the call of this one dispatches
  | isrCall k status hisr =>
    cases h with
    | clear _ hisr' => exact absurd (hisr.symm.trans hisr') (by simp)
    | other k' status' hisr' hne hbit hlatched hserver =>
      obtain ⟨rfl, rfl⟩ : k = k' ∧ status = status' := by
        have := hisr.symm.trans hisr'
        simpa using this
      simp only [staleStep, hisr, if_neg hne] at hg
      refine .clear status ?_ hbit ?_ ?_
      · rw [ht]
        exact isrNext_of_bit hbit
      · rw [hg]
        exact hlatched
      · rw [ht]
        exact hserver
    | call status' hisr' htaken hserver =>
      obtain ⟨rfl, rfl⟩ : k = slot ∧ status = status' := by
        have := hisr.symm.trans hisr'
        simpa using this
      simp only [staleStep, hisr, if_true] at hg
      refine .dispatched ?_
      rw [hg, hserver, Stale.dispatch, if_pos htaken]
      exact List.mem_append_left _ (by simp)
    | dispatched h => exact .dispatched (by rw [hg]; exact dispatched_subset slot _ _ _ h)

/-! ## Both -/

/-- **A new server and the messages of its predecessor.** In a run that begins with the first write of
a bind and ends with the demux idle, the new server is called for no message that was latched before
the bind began just when no demux run starts, between the write of the server and the clear of the
status bit, while such a message is latched. -/
theorem stale_unseen_iff {s : DemuxState σ} {es : List DemuxEvent} {t : DemuxState σ} {g : Stale}
    (hrun : exec (watchStep slot) (s, Stale.start s slot) (.bindServer slot isr :: es) = some (t, g))
    (hdone : t.isr = .idle) :
    isr ∉ g.dispatched ↔ EveryEvent (watchStep slot) (EntersClear slot) (s, Stale.start s slot)
      (.bindServer slot isr :: es) := by
  obtain ⟨u, hu, hrest⟩ := exec_cons.1 hrun
  obtain ⟨hmove, hg⟩ := watchStep_move hu
  -- the state after the first write of the bind
  obtain ⟨hslot, hisr, htask, hserver, hstatus⟩ : slot < 32 ∧ u.1.isr = .idle ∧
      u.1.task = .bindClr slot ∧ u.1.pcie.msi.servers slot = some isr ∧
      u.1.pcie.intr2 = s.pcie.intr2 := by
    generalize hw : u.1 = w at hmove
    cases hmove with
    | bindServer _ _ hidle _ hlt =>
      exact ⟨hlt, hidle, rfl, Function.update_self _ _ _, rfl⟩
  have hg' : u.2 = Stale.start s slot := hg
  have hexposed : Exposed slot isr u := by
    intro hl
    rw [hg'] at hl
    exact ⟨htask, hserver, by rw [hstatus]; exact hl⟩
  have hspared : Spared slot isr u :=
    ⟨fun _ => ⟨htask, hisr⟩, by rw [hg']; rfl, by rw [hg']; simp [Stale.start]⟩
  constructor
  · intro hnot
    refine ⟨fun he => absurd he (by simp), fun u' hu' => ?_⟩
    obtain rfl := Option.some.inj (hu.symm.trans hu')
    by_contra hbreak
    obtain ⟨es₁, e, es₂, w, rfl, hw, hC⟩ := exists_of_not_everyEvent hrest hbreak
    -- at the event that breaks the condition, the demux finds the old message in its snapshot
    simp only [EntersClear, Classical.not_imp, Bool.not_eq_false] at hC
    obtain ⟨rfl, -, hl⟩ := hC
    have hexp := exec_invariant (P := Exposed slot isr) (fun _ _ _ hst hp => exposed_step hslot hp hst)
      hw hexposed
    obtain ⟨-, hwserver, hwbit⟩ := hexp hl
    obtain ⟨w', hw', hw''⟩ := exec_append.1 hrest
    obtain rfl := Option.some.inj (hw.symm.trans hw')
    obtain ⟨v, hv, hv'⟩ := exec_cons.1 hw''
    obtain ⟨henter, hvg⟩ := watchStep_move hv
    have hdoomed : Doomed slot isr v := by
      generalize hx : v.1 = x at henter
      cases henter with
      | isrEnter =>
        refine .clear w.1.pcie.intr2.status ?_ hwbit ?_ ?_
        · rw [hx]
          exact isrNext_of_bit hwbit
        · rw [hvg]
          exact hl
        · rw [hx]
          exact hwserver
    have hend := exec_invariant (P := Doomed slot isr) (fun _ _ _ hst hp => doomed_step hp hst) hv'
      hdoomed
    -- a run that ends with the demux idle has made the call
    cases hend with
    | clear _ h => exact absurd (hdone.symm.trans h) (by simp)
    | other _ _ h => exact absurd (hdone.symm.trans h) (by simp)
    | call _ h => exact absurd (hdone.symm.trans h) (by simp)
    | dispatched h => exact hnot h
  · intro hC
    exact (exec_of_everyEvent (P := Spared slot isr) (fun _ _ _ hst hc hp => spared_step hp hc hst)
      hrest (hC.2 u hu) hspared).dispatched

/-- Slot 5 is bound; a message of slot 3's previous owner arrived late and is latched. -/
def sampleLate : DemuxState Unit where
  pcie := (brcmMsiSlotBind sampleDemux.pcie 5 (some ⟨0x2000⟩)).setIntr2
    ((brcmMsiSlotBind sampleDemux.pcie 5 (some ⟨0x2000⟩)).intr2.latch 3)

/-- Slot 3 is bound again, and slot 5 fires as soon as the server is in the table: the new server is
called for its predecessor's message. -/
theorem stale_seen_sample :
    exec demuxStep sampleDemux [.bindServer 5 ⟨0x2000⟩, .bindClr, .bindOpen, .arrive 3]
        = some sampleLate ∧
      sampleLate.pcie.intr2.status.getLsbD 3 = true ∧
      ∃ t g, exec (watchStep 3) (sampleLate, Stale.start sampleLate 3)
          [.bindServer 3 ⟨0x1000⟩, .arrive 5, .isrEnter, .isrClear, .isrCall, .isrClear, .isrCall,
            .bindClr, .bindOpen] = some (t, g) ∧
        t.isr = .idle ∧ ¬ (⟨0x1000⟩ : Interrupt) ∉ g.dispatched := by
  have hend : (exec (watchStep 3) (sampleLate, Stale.start sampleLate 3)
      [.bindServer 3 ⟨0x1000⟩, .arrive 5, .isrEnter, .isrClear, .isrCall, .isrClear, .isrCall,
        .bindClr, .bindOpen]).map (fun p => (p.1.isr, p.2.dispatched))
      = some (.idle, [⟨0x1000⟩]) := by decide +kernel
  obtain ⟨⟨t, g⟩, hrun, heq⟩ := Option.map_eq_some_iff.1 hend
  obtain ⟨hidle, hdispatched⟩ := Prod.mk.inj heq
  refine ⟨rfl, by decide, t, g, hrun, hidle, not_not.2 ?_⟩
  rw [hdispatched]
  exact List.mem_singleton.2 rfl

/-- The same with slot 5 firing one write later: the old message is gone by then. -/
theorem stale_unseen_sample :
    let es := [.bindClr, .arrive 5, .isrEnter, .isrClear, .isrCall, .bindOpen]
    ∃ t g, exec (watchStep 3) (sampleLate, Stale.start sampleLate 3)
        (.bindServer 3 ⟨0x1000⟩ :: es) = some (t, g) ∧
      (⟨0x1000⟩ ∉ g.dispatched ↔ EveryEvent (watchStep 3) (EntersClear 3)
        (sampleLate, Stale.start sampleLate 3) (.bindServer 3 ⟨0x1000⟩ :: es)) := by
  intro es
  have hend : (exec (watchStep 3) (sampleLate, Stale.start sampleLate 3)
      (.bindServer 3 ⟨0x1000⟩ :: es)).map (·.1.isr) = some .idle := by decide +kernel
  obtain ⟨⟨t, g⟩, hrun, hidle⟩ := Option.map_eq_some_iff.1 hend
  exact ⟨t, g, hrun, stale_unseen_iff hrun hidle⟩

end BcmPcie
