import BcmPcie.Library.Tasks
import BcmPcie.Pci.ConfigProgram

/-! # Configuration accesses of several tasks

A function behind the root port is reached in two steps: `PCIE_EXT_CFG_INDEX` is written with its
address, then `PCIE_EXT_CFG_DATA` is read or written. The pair is shared by all functions, and any
task may run between two steps of a call. Most calls of the library hold its semaphore around their
accesses; some do not.

* `ConfigCall` — the calls of the library that access configuration space.
* `configStep` — a task goes on by one step.
* `configSafe_run` — runs in which a call without the semaphore never meets another call. -/

namespace BcmPcie

open Runs Tasks

variable {τ ι : Type*}

/-! ## The calls -/

/-- A call of the library on a function behind the root port, as far as configuration space goes. -/
inductive ConfigCall (ι : Type*)
  /-- `ReadConfigByte` and its like, also for the extended space. -/
  | readConfig (fn : ι) (w offset : ℕ)
  /-- `WriteConfigByte` and its like, also for the extended space. -/
  | writeConfig (fn : ι) (w offset : ℕ) (value : BitVec w)
  /-- `pci_set_master`. -/
  | setMaster (fn : ι)
  /-- `AllocIntVectors`, `FreeIntVectors` and the calls that add and remove servers. What they access
  depends on the slot pool too; any program stands for it. -/
  | intVectors (fn : ι) (accesses : ConfigProgram Unit)
  | flr (fn : ι)
  | findCapability (fn : ι) (cap : ℕ)
  | findExtCapability (fn : ι) (cap : ℕ)
  /-- `MaskIntVector`, `UnmaskIntVector` and `CheckSetINTxMask` on INTx. -/
  | intxMask (fn : ι) (enable : Bool)

namespace ConfigCall

/-- The function a call is made for. -/
def fn : ConfigCall ι → ι
  | readConfig fn _ _ => fn
  | writeConfig fn _ _ _ => fn
  | setMaster fn => fn
  | intVectors fn _ => fn
  | flr fn => fn
  | findCapability fn _ => fn
  | findExtCapability fn _ => fn
  | intxMask fn _ => fn

/-- The call is made between `ObtainSemaphore` and `ReleaseSemaphore`. -/
def locked : ConfigCall ι → Bool
  | readConfig _ _ _ => true
  | writeConfig _ _ _ _ => true
  | setMaster _ => true
  | intVectors _ _ => true
  | flr _ => false
  | findCapability _ _ => false
  | findExtCapability _ _ => false
  | intxMask _ _ => false

/-- The accesses of a call. -/
def accesses : ConfigCall ι → ConfigProgram Unit
  | readConfig _ w offset => do
    let _ ← ConfigProgram.pciReadConfig w offset
  | writeConfig _ w offset value => ConfigProgram.pciWriteConfig w offset value
  | setMaster _ => do
    let _ ← ConfigProgram.libSetMaster
  | intVectors _ accesses => accesses
  | flr _ => do
    let _ ← ConfigProgram.pciFlr
  | findCapability _ cap => do
    let _ ← ConfigProgram.pciFindCapability cap
  | findExtCapability _ cap => do
    let _ ← ConfigProgram.pciFindExtCapability cap
  | intxMask _ enable => ConfigProgram.pciIntx enable

end ConfigCall

/-! ## The steps -/

/-- A data access that was made. -/
structure Access (ι : Type*) where
  /-- The call it belongs to, by number. -/
  call : ℕ
  /-- The function the call was made for, and the one the index register selected. -/
  target : ι
  selected : ι
  isWrite : Bool
  width : ℕ
  offset : ℕ

/-- What the tasks share. The calls are numbered as they come to their accesses, and the accesses are
recorded in the order they are made. -/
structure ConfigBus (ι : Type*) where
  /-- The function that `PCIE_EXT_CFG_INDEX` selects. -/
  index : ι
  cfg : ι → RegisterFile 4096
  /-- The semaphore is held. -/
  semaphore : Bool := false
  calls : ℕ := 0
  accesses : List (Access ι) := []

/-- A call on its way: its number, its function and whether it holds the semaphore. -/
structure RunningCall (ι : Type*) where
  number : ℕ
  fn : ι
  locked : Bool

/-- Where a task is. -/
inductive ConfigPoint (ι : Type*)
  | idle
  /-- At `ObtainSemaphore`. -/
  | wait (fn : ι) (rest : ConfigProgram Unit)
  /-- Before the write of the index register for the next access, or before the return. -/
  | address (call : RunningCall ι) (rest : ConfigProgram Unit)
  /-- Before the access itself. -/
  | access (call : RunningCall ι) (rest : ConfigProgram Unit)

/-- A task makes a call, or goes on with the one it is in. -/
inductive ConfigEvent (ι : Type*)
  | call (c : ConfigCall ι)
  | go

namespace ConfigBus

variable (g : ConfigBus ι)

/-- A call comes to its accesses. -/
def enter (semaphore : Bool) : ConfigBus ι :=
  { g with semaphore := semaphore, calls := g.calls + 1 }

/-- The index register is written. -/
def select (fn : ι) : ConfigBus ι := { g with index := fn }

/-- The access is made, at the function that is selected by now. -/
def record (call : RunningCall ι) (isWrite : Bool) (width offset : ℕ) : ConfigBus ι :=
  { g with accesses := g.accesses ++ [⟨call.number, call.fn, g.index, isWrite, width, offset⟩] }

/-- The semaphore is given back by a call that holds it. -/
def leave (call : RunningCall ι) : ConfigBus ι :=
  { g with semaphore := if call.locked then false else g.semaphore }

end ConfigBus

/-- A task makes a call or goes on by one step. -/
def configStep [DecidableEq ι] (g : ConfigBus ι) :
    ConfigPoint ι → ConfigEvent ι → Option (ConfigBus ι × ConfigPoint ι)
  | .idle, .call c =>
    if c.locked then some (g, .wait c.fn c.accesses)
    else some (g.enter g.semaphore, .address ⟨g.calls, c.fn, false⟩ c.accesses)
  | .wait fn rest, .go =>
    if g.semaphore then none else some (g.enter true, .address ⟨g.calls, fn, true⟩ rest)
  | .address call (.done _), .go => some (g.leave call, .idle)
  | .address call rest, .go => some (g.select call.fn, .access call rest)
  | .access call (.read w offset next), .go =>
    some (g.record call false w offset, .address call (next ((g.cfg g.index).read w offset)))
  | .access call (.write w offset value next), .go =>
    some ({ g.record call true w offset with
        cfg := Function.update g.cfg g.index ((g.cfg g.index).write w offset value) },
      .address call next)
  | _, _ => none

/-- One step of an interleaving of the tasks. -/
abbrev configRunStep [DecidableEq ι] [DecidableEq τ] : Config τ (ConfigBus ι) (ConfigPoint ι) →
    τ × ConfigEvent ι → Option (Config τ (ConfigBus ι) (ConfigPoint ι)) :=
  Tasks.step configStep

/-- No task is in a call, and none has been. -/
def configInit (index : ι) (cfg : ι → RegisterFile 4096) : Config τ (ConfigBus ι) (ConfigPoint ι) :=
  ⟨{ index := index, cfg := cfg }, fun _ => .idle⟩

/-! ## What is promised -/

/-- The read and the write are a read-modify-write: of one register, in one call. -/
def Access.Updates (r w : Access ι) : Prop :=
  r.isWrite = false ∧ w.isWrite = true ∧ r.call = w.call ∧ r.width = w.width ∧ r.offset = w.offset

/-- Another call's update of what the write is to. -/
def Access.Overwritten (u w : Access ι) : Prop :=
  u.isWrite = true ∧ u.call ≠ w.call ∧ u.selected = w.selected ∧
    ¬ RegisterFile.Apart u.width u.offset w.width w.offset

/-- **The promise.** Each access is made at the function its call is for, and no read-modify-write
overwrites an update made since its read. -/
structure ConfigSafe (s : Config τ (ConfigBus ι) (ConfigPoint ι)) : Prop where
  selected : ∀ a ∈ s.shared.accesses, a.selected = a.target
  updates : ∀ (pre : List (Access ι)) (r : Access ι) (mid : List (Access ι)) (w : Access ι)
    (post : List (Access ι)), s.shared.accesses = pre ++ r :: mid ++ w :: post → r.Updates w →
      ∀ u ∈ mid, ¬ u.Overwritten w

/-! ## One move -/

/-- The moves of a task. -/
inductive ConfigMove [DecidableEq ι] (g : ConfigBus ι) :
    ConfigPoint ι → ConfigEvent ι → ConfigBus ι → ConfigPoint ι → Prop
  | lock (c : ConfigCall ι) (hlocked : c.locked = true) :
      ConfigMove g .idle (.call c) g (.wait c.fn c.accesses)
  | enter (c : ConfigCall ι) (hlocked : c.locked = false) :
      ConfigMove g .idle (.call c) (g.enter g.semaphore) (.address ⟨g.calls, c.fn, false⟩ c.accesses)
  | obtain (fn : ι) (rest : ConfigProgram Unit) (hfree : g.semaphore = false) :
      ConfigMove g (.wait fn rest) .go (g.enter true) (.address ⟨g.calls, fn, true⟩ rest)
  | leave (call : RunningCall ι) (a : Unit) :
      ConfigMove g (.address call (.done a)) .go (g.leave call) .idle
  | select (call : RunningCall ι) (rest : ConfigProgram Unit) :
      ConfigMove g (.address call rest) .go (g.select call.fn) (.access call rest)
  | access (call : RunningCall ι) (rest next : ConfigProgram Unit) (isWrite : Bool)
      (width offset : ℕ) (cfg : ι → RegisterFile 4096) :
      ConfigMove g (.access call rest) .go { g.record call isWrite width offset with cfg := cfg }
        (.address call next)

/-- A step of the bus is one of its moves. -/
theorem configStep_move [DecidableEq ι] {g g' : ConfigBus ι} {p p' : ConfigPoint ι}
    {e : ConfigEvent ι} (h : configStep g p e = some (g', p')) : ConfigMove g p e g' p' := by
  unfold configStep at h
  split at h
  · rename_i c
    by_cases hlocked : c.locked = true
    · rw [if_pos hlocked] at h
      cases h
      exact .lock c hlocked
    · rw [if_neg hlocked] at h
      cases h
      exact .enter c (by simpa using hlocked)
  · split at h
    · exact absurd h (by simp)
    · rename_i hfree
      cases h
      exact .obtain _ _ (by simpa using hfree)
  · cases h
    exact .leave _ _
  · cases h
    exact .select _ _
  · rename_i call w offset next
    cases h
    exact .access call _ _ false w offset g.cfg
  · rename_i call w offset value next
    cases h
    exact .access call _ _ true w offset _
  · exact absurd h (by simp)

/-! ## The invariant -/

namespace ConfigPoint

/-- The task is at its accesses. -/
def Active : ConfigPoint ι → Prop
  | .address _ _ => True
  | .access _ _ => True
  | _ => False

/-- The task is at its accesses, with the semaphore. -/
def Locked : ConfigPoint ι → Prop
  | .address call _ => call.locked = true
  | .access call _ => call.locked = true
  | _ => False

/-- The task is at its accesses, without the semaphore. -/
def Unlocked : ConfigPoint ι → Prop
  | .address call _ => call.locked = false
  | .access call _ => call.locked = false
  | _ => False

instance decidableActive (p : ConfigPoint ι) : Decidable p.Active := by
  cases p <;> unfold Active <;> infer_instance

instance decidableUnlocked (p : ConfigPoint ι) : Decidable p.Unlocked := by
  cases p <;> unfold Unlocked <;> infer_instance

/-- An access goes on under the lock or without it. -/
theorem Active.locked_or {p : ConfigPoint ι} (h : p.Active) : p.Locked ∨ p.Unlocked := by
  cases p with
  | idle => exact absurd h not_false
  | wait => exact absurd h not_false
  | address call rest => exact (Bool.eq_false_or_eq_true call.locked)
  | access call rest => exact (Bool.eq_false_or_eq_true call.locked)

end ConfigPoint

/-- What is asked of a task that goes on: at `ObtainSemaphore` it finds no call at its accesses that
has not taken the semaphore. -/
def GoCond (s : Config τ (ConfigBus ι) (ConfigPoint ι)) : ConfigPoint ι → Prop
  | .wait _ _ => ∀ u, ¬ (s.point u).Unlocked
  | _ => True

/-- The condition: a call that does not take the semaphore is at its accesses alone. -/
def ConfigCond (s : Config τ (ConfigBus ι) (ConfigPoint ι)) : τ × ConfigEvent ι → Prop
  | (_, .call c) => c.locked = false → ∀ u, ¬ (s.point u).Active
  | (t, .go) => GoCond s (s.point t)

section

variable [Fintype τ] (s : Config τ (ConfigBus ι) (ConfigPoint ι))

instance decidableGoCond (p : ConfigPoint ι) : Decidable (GoCond s p) := by
  cases p <;> unfold GoCond <;> infer_instance

instance decidableConfigCond (e : τ × ConfigEvent ι) : Decidable (ConfigCond s e) := by
  obtain ⟨t, e⟩ := e
  cases e <;> unfold ConfigCond <;> infer_instance

end

/-- The call at its accesses is the latest, and between its two steps the index register selects its
function. -/
def ConfigBus.SeenFrom (g : ConfigBus ι) : ConfigPoint ι → Prop
  | .address call _ => call.number + 1 = g.calls
  | .access call _ => call.number + 1 = g.calls ∧ g.index = call.fn
  | _ => True

/-- A task without an access relies on nothing. -/
theorem ConfigBus.seenFrom_of_not_active {g : ConfigBus ι} {p : ConfigPoint ι} (h : ¬ p.Active) :
    g.SeenFrom p := by
  cases p with
  | idle => exact trivial
  | wait => exact trivial
  | address => exact absurd trivial h
  | access => exact absurd trivial h

/-- The accesses that were made: each at the function of its call, call after call. -/
structure AccessesInOrder (g : ConfigBus ι) : Prop where
  selected : ∀ a ∈ g.accesses, a.selected = a.target
  ordered : g.accesses.Pairwise fun a b => a.call ≤ b.call
  bound : ∀ a ∈ g.accesses, a.call < g.calls

/-- **The invariant.** One task at a time is at its accesses. -/
structure ConfigInv (s : Config τ (ConfigBus ι) (ConfigPoint ι)) : Prop where
  active : ∃ held, Guarded held ConfigPoint.Active s.point
  semaphore : Guarded s.shared.semaphore ConfigPoint.Locked s.point
  seen : ∀ t, s.shared.SeenFrom (s.point t)
  accesses : AccessesInOrder s.shared

/-- At the start the invariant holds. -/
theorem configInv_configInit (index : ι) (cfg : ι → RegisterFile 4096) :
    ConfigInv (configInit index cfg : Config τ (ConfigBus ι) (ConfigPoint ι)) := by
  refine ⟨⟨false, fun _ _ h => absurd h not_false, ?_⟩, ⟨fun _ _ h => absurd h not_false, ?_⟩,
    fun _ => trivial, fun a h => ?_, List.Pairwise.nil, fun a h => ?_⟩
  · exact iff_of_false Bool.false_ne_true fun ⟨_, h⟩ => h
  · exact iff_of_false Bool.false_ne_true fun ⟨_, h⟩ => h
  · exact absurd h List.not_mem_nil
  · exact absurd h List.not_mem_nil

/-- Accesses made call after call overwrite no other call's update. -/
theorem ConfigInv.configSafe {s : Config τ (ConfigBus ι) (ConfigPoint ι)} (h : ConfigInv s) :
    ConfigSafe s := by
  refine ⟨h.accesses.selected, ?_⟩
  rintro pre r mid w post hlog ⟨-, -, hcall, -, -⟩ u hu ⟨-, hother, -, -⟩
  have hordered := h.accesses.ordered
  rw [hlog, List.append_assoc, List.pairwise_append, List.cons_append, List.pairwise_cons,
    List.pairwise_append] at hordered
  obtain ⟨-, ⟨hr, -, -, hw⟩, -⟩ := hordered
  have hru := hr u (List.mem_append_left _ hu)
  have huw := hw u hu w List.mem_cons_self
  -- the number of the call between is that of the call around it
  exact hother (by omega)

variable [DecidableEq τ] {s s' : Config τ (ConfigBus ι) (ConfigPoint ι)} {t : τ}

omit [DecidableEq τ] in
/-- No task is at its accesses when the lock on them is free. -/
theorem ConfigInv.guarded_of_none (hs : ConfigInv s) (hnone : ∀ u, ¬ (s.point u).Active) :
    Guarded false ConfigPoint.Active s.point := by
  obtain ⟨held, hg⟩ := hs.active
  refine ⟨hg.exclusive, iff_of_false Bool.false_ne_true ?_⟩
  rintro ⟨u, hu⟩
  exact hnone u hu

/-- **To the accesses.** A call comes to its accesses while no other is at its own. -/
theorem ConfigInv.enter (hs : ConfigInv s) (hnone : ∀ u, ¬ (s.point u).Active) {semaphore : Bool}
    {call : RunningCall ι} {rest : ConfigProgram Unit} (hnumber : call.number = s.shared.calls)
    (hsem : Guarded semaphore ConfigPoint.Locked (Function.update s.point t (.address call rest))) :
    ConfigInv ⟨s.shared.enter semaphore, Function.update s.point t (.address call rest)⟩ := by
  refine ⟨⟨true, (hs.guarded_of_none hnone).acquire trivial⟩, hsem, ?_, ?_⟩
  · refine forall_update (fun u _ => ConfigBus.seenFrom_of_not_active (hnone u)) ?_
    show call.number + 1 = s.shared.calls + 1
    rw [hnumber]
  · refine ⟨hs.accesses.selected, hs.accesses.ordered, fun a ha => ?_⟩
    exact Nat.lt_succ_of_lt (hs.accesses.bound a ha)

/-- **At the accesses.** A call that stays there leaves the semaphore and the other tasks alone. -/
theorem ConfigInv.within (hs : ConfigInv s) {g : ConfigBus ι} {p : ConfigPoint ι}
    (ht : (s.point t).Active) (hp : p.Active) (hlocked : p.Locked ↔ (s.point t).Locked)
    (hsem : g.semaphore = s.shared.semaphore) (hseen : g.SeenFrom p) (hacc : AccessesInOrder g) :
    ConfigInv ⟨g, Function.update s.point t p⟩ := by
  obtain ⟨held, hg⟩ := hs.active
  refine ⟨⟨held, hg.keep (iff_of_true hp ht)⟩, ?_, ?_, hacc⟩
  · show Guarded g.semaphore _ _
    rw [hsem]
    exact hs.semaphore.keep hlocked
  · refine forall_update (fun u hu => ?_) hseen
    exact ConfigBus.seenFrom_of_not_active (hg.not_of_ne ht hu)

omit [DecidableEq τ] in
/-- An access of the latest call, at the function that is selected. -/
theorem AccessesInOrder.record {g : ConfigBus ι} (h : AccessesInOrder g) {call : RunningCall ι}
    (hnumber : call.number + 1 = g.calls) (hindex : g.index = call.fn) (isWrite : Bool)
    (width offset : ℕ) : AccessesInOrder (g.record call isWrite width offset) := by
  refine ⟨fun a ha => ?_, ?_, fun a ha => ?_⟩
  · obtain hold | hnew := List.mem_append.1 ha
    · exact h.selected a hold
    · obtain rfl := List.mem_singleton.1 hnew
      exact hindex
  · refine List.pairwise_append.2 ⟨h.ordered, List.pairwise_singleton _ _, fun a ha b hb => ?_⟩
    obtain rfl := List.mem_singleton.1 hb
    have hlt := h.bound a ha
    show a.call ≤ call.number
    omega
  · show a.call < g.calls
    obtain hold | hnew := List.mem_append.1 ha
    · exact h.bound a hold
    · obtain rfl := List.mem_singleton.1 hnew
      show call.number < g.calls
      omega

variable [DecidableEq ι]

/-- **One step** that meets the condition keeps the invariant. -/
theorem configInv_step {e : τ × ConfigEvent ι} (hstep : configRunStep s e = some s')
    (hC : ConfigCond s e) (hs : ConfigInv s) : ConfigInv s' := by
  obtain ⟨t, e⟩ := e
  obtain ⟨g, p, hprog, rfl⟩ := step_eq_some.1 hstep
  have hmove := configStep_move hprog
  generalize hpt : s.point t = q at hmove
  cases hmove with
  | lock c hlocked =>
    obtain ⟨held, hg⟩ := hs.active
    have hnot : ¬ (s.point t).Active ∧ ¬ (s.point t).Locked := by
      rw [hpt]
      exact ⟨not_false, not_false⟩
    exact ⟨⟨held, hg.keep (iff_of_false not_false hnot.1)⟩,
      hs.semaphore.keep (iff_of_false not_false hnot.2),
      forall_update (fun u _ => hs.seen u) trivial, hs.accesses⟩
  | enter c hlocked =>
    refine hs.enter (hC hlocked) rfl (hs.semaphore.keep (iff_of_false ?_ ?_))
    · exact Bool.false_ne_true
    · rw [hpt]
      exact not_false
  | obtain fn rest hfree =>
    -- with the semaphore free, a call at its accesses would be one that has not taken it
    have hunlocked : ∀ u, ¬ (s.point u).Unlocked := by
      simpa only [ConfigCond, GoCond, hpt] using hC
    have hg := hs.semaphore
    rw [hfree] at hg
    refine hs.enter (fun u hu => ?_) rfl (hg.acquire rfl)
    rcases hu.locked_or with hl | hl
    · exact hg.not_of_free u hl
    · exact hunlocked u hl
  | leave call a =>
    have ht : (s.point t).Active := by
      rw [hpt]
      exact trivial
    obtain ⟨held, hg⟩ := hs.active
    refine ⟨⟨false, hg.release ht not_false⟩, ?_, ?_,
      ⟨hs.accesses.selected, hs.accesses.ordered, hs.accesses.bound⟩⟩
    · show Guarded (if call.locked then false else s.shared.semaphore) _ _
      by_cases hlocked : call.locked = true
      · rw [if_pos hlocked]
        refine hs.semaphore.release ?_ not_false
        rw [hpt]
        exact hlocked
      · rw [if_neg hlocked]
        refine hs.semaphore.keep (iff_of_false not_false ?_)
        rw [hpt]
        exact hlocked
    · refine forall_update (fun u hu => ?_) trivial
      exact ConfigBus.seenFrom_of_not_active (hg.not_of_ne ht hu)
  | select call rest =>
    have hseen := hs.seen t
    rw [hpt] at hseen
    refine hs.within ?_ trivial ?_ rfl ⟨hseen, rfl⟩ ?_
    · rw [hpt]
      exact trivial
    · rw [hpt]
      exact Iff.rfl
    · exact ⟨hs.accesses.selected, hs.accesses.ordered, hs.accesses.bound⟩
  | access call rest next isWrite width offset cfg =>
    have hseen := hs.seen t
    rw [hpt] at hseen
    have hrecord := hs.accesses.record hseen.1 hseen.2 isWrite width offset
    refine hs.within ?_ trivial ?_ rfl hseen.1 ?_
    · rw [hpt]
      exact trivial
    · rw [hpt]
      exact Iff.rfl
    · exact ⟨hrecord.selected, hrecord.ordered, hrecord.bound⟩

/-! ## Runs -/

/-- **The condition is enough.** In a run in which a call that does not take the semaphore is at its
accesses only while no other call is, no access goes astray and no update is overwritten. -/
theorem configSafe_run (index : ι) (cfg : ι → RegisterFile 4096) (es : List (τ × ConfigEvent ι))
    (hC : EveryEvent configRunStep ConfigCond (configInit index cfg) es) :
    Throughout configRunStep ConfigSafe (configInit index cfg) es := by
  intro es₁ es₂ u hes hu
  have hinv : Throughout configRunStep ConfigInv (configInit index cfg) es :=
    throughout_of_everyEvent (fun _ _ _ hstep hC hs => configInv_step hstep hC hs)
      (configInv_configInit index cfg) hC
  exact (hinv es₁ es₂ u hes hu).configSafe

/-- Two tasks set bus mastering on two functions, each waiting for the semaphore in turn, and one of
them looks for a capability afterwards. -/
theorem configSafe_run_sample :
    let es : List (Bool × ConfigEvent Bool) :=
      [(true, .call (.setMaster true)), (true, .go), (true, .go),
          (false, .call (.setMaster false))] ++ List.replicate 6 (true, .go) ++
        List.replicate 8 (false, .go) ++
        [(true, .call (.findCapability true 5)), (true, .go), (true, .go)]
    Throughout configRunStep ConfigSafe
      (configInit true fun _ => ⟨0, BitVec.allOnes _⟩) es := by
  intro es
  exact configSafe_run _ _ es (by decide +kernel)

/-- One task looks for a capability, which does not take the semaphore; between its write of the index
register and its read another one, with the semaphore, selects its own function. -/
theorem configSafe_fails_sample :
    ¬ ∀ es : List (Bool × ConfigEvent Bool),
      Throughout configRunStep ConfigSafe (configInit true fun _ => ⟨0, BitVec.allOnes _⟩) es := by
  intro hall
  let es : List (Bool × ConfigEvent Bool) :=
    [(true, .call (.findCapability true 5)), (true, .go), (false, .call (.setMaster false)),
      (false, .go), (false, .go), (true, .go)]
  have hrun : ((exec configRunStep (configInit true fun _ => ⟨0, BitVec.allOnes _⟩) es).map
      fun s => s.shared.accesses.map fun a => (a.target, a.selected)) = some [(true, false)] := by
    decide +kernel
  obtain ⟨s, hs, heq⟩ := Option.map_eq_some_iff.1 hrun
  have hsafe := hall es es [] s (List.append_nil _).symm hs
  obtain ⟨a, hlog, hastray⟩ := List.map_eq_singleton_iff.1 heq
  have hselected := hsafe.selected a (by rw [hlog]; exact List.mem_singleton.2 rfl)
  rw [Prod.mk.injEq] at hastray
  exact absurd (hastray.2.symm.trans (hselected.trans hastray.1)) (by decide)

end BcmPcie
