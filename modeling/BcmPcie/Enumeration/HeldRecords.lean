import BcmPcie.Enumeration.Bound

/-! # What the scan holds

The scan allocates a record for every function and for every bus, and frees none of them, whether it
succeeds or fails.

* `relates_enumerate` — records of functions and buses are added to what is held, nothing else.
* `enumerate_keeps_iff` — nothing is added if and only if no function is found on the root bus, or there
  is no memory for the record of the first. -/

namespace BcmPcie

open Computations

variable {σ : Type}

/-- Records of functions and buses have been added to what is held. -/
def Grown (s s' : EnumState σ) : Prop :=
  ∃ records : List Resource, (∀ r ∈ records, r = .bus ∨ r = .device) ∧
    s'.memory.held = records ++ s.memory.held

instance isPreorder_grown : IsPreorder (EnumState σ) Grown where
  refl _ := ⟨[], nofun, rfl⟩
  trans := by
    rintro s s' s'' ⟨records, hall, hheld⟩ ⟨records', hall', hheld'⟩
    refine ⟨records' ++ records, fun r hr => ?_, ?_⟩
    · rcases List.mem_append.1 hr with hr | hr
      · exact hall' r hr
      · exact hall r hr
    · rw [hheld', hheld, List.append_assoc]

/-- Where nothing was allocated nothing has grown. -/
theorem grown_of_held {s s' : EnumState σ} (h : s'.memory.held = s.memory.held) : Grown s s' :=
  ⟨[], nofun, h⟩

/-- A change of the controller allocates nothing. -/
theorem relates_modifyController (f : PciController σ → PciController σ) :
    Relates Grown (modifyController f) := fun _ => grown_of_held rfl

/-- An allocation of a bus or a device adds that. -/
theorem relates_allocMem {r : Resource} (h : r = .bus ∨ r = .device) :
    Relates Grown (allocMem r : EnumM σ Unit) := by
  intro s
  by_cases hmet : s.memory.available = true
  · rw [final_of_ok (by rw [allocMem_eq, if_pos hmet])]
    refine ⟨[r], fun r' hr => ?_, Ledger.held_acquire_of_available hmet r⟩
    rwa [List.mem_singleton.1 hr]
  · rw [final_of_error (by rw [allocMem_eq, if_neg hmet])]
    exact grown_of_held (Ledger.held_acquire_of_not_available (Bool.eq_false_of_not_eq_true hmet) r)

/-- A round of the loop over the addresses adds buses and devices only. -/
theorem relates_bindFunction (functions : List HwFunction) (st : Bool × PciBus) (i : ℕ) :
    Relates Grown (bindFunction functions st i : EnumM σ (Bool × PciBus)) := by
  obtain ⟨foundMulti, bus⟩ := st
  unfold bindFunction
  dsimp only
  refine Relates.ite (Relates.pure _) ?_
  split
  · exact Relates.pure _
  · refine Relates.ite (Relates.pure _) ?_
    split
    · exact Relates.pure _
    · refine Relates.bind ?_ fun _ => Relates.pure _
      exact Relates.bind (relates_allocMem (Or.inr rfl)) fun _ => Relates.pure _

/-- So does the whole loop. -/
theorem relates_pciBindBusDevices (functions : List HwFunction) (bus : PciBus) :
    Relates Grown (pciBindBusDevices functions bus : EnumM σ PciBus) :=
  Relates.bind (Relates.foldlM (relates_bindFunction functions) _ _) fun _ => Relates.pure _

/-- So does the scan of a bus, if the scan behind its bridges does. -/
theorem relates_pciProbeBus {τ : Type} {hw : HwFunction} {functions : List HwFunction}
    {scan : PciBus → EnumM σ (PciBus × τ)} (hscan : ∀ bus, Relates Grown (scan bus)) (bus : PciBus)
    (bridge : PciDevice) : Relates Grown (pciProbeBus hw functions scan bus bridge) := by
  unfold pciProbeBus
  refine Relates.ite (Relates.throw _) ?_
  refine Relates.bind (relates_modifyController _) fun _ => Relates.bind Relates.get fun _ => ?_
  refine Relates.bind (relates_modifyController _) fun _ => ?_
  refine Relates.bind (relates_pciBindBusDevices _ _) fun _ => Relates.bind (hscan _) fun _ => ?_
  refine Relates.bind Relates.get fun _ => Relates.bind (relates_modifyController _) fun _ => ?_
  exact Relates.pure _

/-- So does the configuration of a device. -/
theorem relates_pciautoConfigDevice {hw : HwFunction} {functions : Forest HwFunction}
    {scan : PciBus → EnumM σ (PciBus × Forest ConfiguredFunction)}
    (hscan : ∀ bus, Relates Grown (scan bus)) (bus : PciBus) (dev : PciDevice) :
    Relates Grown (pciautoConfigDevice hw functions scan bus dev) := by
  unfold pciautoConfigDevice
  refine Relates.bind Relates.get fun _ => Relates.bind (relates_modifyController _) fun _ => ?_
  refine Relates.ite ?_ (Relates.pure _)
  refine Relates.bind ?_ fun _ => Relates.bind (relates_pciProbeBus hscan _ _) fun _ => Relates.pure _
  exact Relates.bind (relates_allocMem (Or.inl rfl)) fun _ => Relates.pure _

/-- So does the whole enumeration below a bus. -/
theorem relates_configDevices (functions : Forest HwFunction) (bus : PciBus) :
    Relates Grown (configDevices functions bus : EnumM σ (PciBus × Forest ConfiguredFunction)) := by
  induction functions generalizing bus with
  | nil => exact Relates.pure _
  | node hw children siblings ihChildren ihSiblings =>
    unfold configDevices
    split
    · exact ihSiblings bus
    · refine Relates.bind (relates_pciautoConfigDevice (fun bus => ?_) _ _) fun _ => ?_
      · exact Relates.bind (relates_modifyController _) fun _ => ihChildren bus
      · exact Relates.bind (ihSiblings _) fun _ => Relates.pure _

/-- **The scan** adds records of functions and buses to what is held. -/
theorem relates_enumerate (functions : Forest HwFunction) :
    Relates Grown (enumerate functions : EnumM σ (PciBus × Forest ConfiguredFunction)) := by
  refine Relates.bind (relates_pciBindBusDevices _ _) fun bus => ?_
  exact Relates.bind (relates_modifyController _) fun _ => relates_configDevices _ _

/-! ## When nothing is added -/

/-- A function is found at the first address of the root bus: what is there has a vendor. -/
def RootAnswers (functions : List HwFunction) : Prop :=
  ∃ hw, functions.head? = some hw ∧ hw.answers = true

/-- No other address of the root bus is looked at if nothing is at the first. -/
theorem bindFunction_of_not_rootAnswers {functions : List HwFunction} (h : ¬ RootAnswers functions)
    {bus : PciBus} (hbus : bus.busNumber = 0) (i : ℕ) (s : EnumState σ) :
    bindFunction functions (false, bus) i s = .ok (false, bus) s := by
  unfold bindFunction
  dsimp only
  rw [hbus, ite_self]
  by_cases hfunction : i % 8 = 0
  · rw [if_neg fun hskip => hskip.1 hfunction]
    unfold respond
    by_cases hdevice : 0 < i / 8
    · rw [if_pos ⟨by decide, hdevice⟩]
      rfl
    · rw [if_neg fun hnone => hdevice hnone.2, if_pos rfl]
      cases hhead : functions.head? with
      | none => rfl
      | some hw =>
        dsimp only
        have hvendor : hw.cfg.read 16 pciVendorId = 0xffff#16 ∨ hw.cfg.read 16 pciVendorId = 0 := by
          by_contra hvalid
          refine h ⟨hw, hhead, ?_⟩
          unfold HwFunction.answers
          rw [decide_eq_false hvalid]
          rfl
        rw [if_pos hvendor]
        rfl
  · rw [if_pos ⟨hfunction, rfl⟩]
    rfl

/-- Where the root does not answer no record is made. -/
theorem pciBindBusDevices_of_not_rootAnswers {functions : List HwFunction}
    (h : ¬ RootAnswers functions) (s : EnumState σ) : pciBindBusDevices functions {} s = .ok {} s := by
  have hloop : ∀ l : List ℕ, l.foldlM (bindFunction functions) (false, ({} : PciBus)) s
      = .ok (false, {}) s := by
    intro l
    induction l with
    | nil => rfl
    | cons i l ih =>
      rw [List.foldlM_cons, bind_of_ok (bindFunction_of_not_rootAnswers h rfl i s)]
      exact ih
  unfold pciBindBusDevices
  rw [bind_of_ok (hloop _)]
  rfl

/-- A bus without records is not scanned. -/
theorem configDevices_of_no_devices (functions : Forest HwFunction) {bus : PciBus}
    (h : bus.devices = []) (s : EnumState σ) : configDevices functions bus s = .ok (bus, .nil) s := by
  induction functions with
  | nil => rfl
  | node hw children siblings _ ih =>
    have hnone : ∀ devfn, pciBusFindDevfn bus devfn = none := by
      intro devfn
      unfold pciBusFindDevfn
      rw [h]
      rfl
    unfold configDevices
    rw [hnone]
    exact ih

/-- The first round makes a record for what is at the first address. -/
theorem bindFunction_of_rootAnswers {functions : List HwFunction} {hw : HwFunction}
    (hhead : functions.head? = some hw) (hanswers : hw.answers = true) (s : EnumState σ) :
    ∃ st, bindFunction functions (false, {}) 0 s
      = (allocMem .device >>= fun _ => pure st : EnumM σ (Bool × PciBus)) s := by
  have hvalid : ¬ (hw.cfg.read 16 pciVendorId = 0xffff#16 ∨ hw.cfg.read 16 pciVendorId = 0) := by
    unfold HwFunction.answers at hanswers
    simpa using hanswers
  have hrespond : respond functions 0 0 0 = some hw := hhead
  refine ⟨(hw.multi, { devices := [newDevice hw (pciBdf 0 0 0) (hw.cfg.read 16 pciVendorId)
    (hw.cfg.read 16 pciDeviceId) (hw.cfg.read 32 pciClassRevision >>> 8) hw.headerType] }), ?_⟩
  unfold bindFunction
  dsimp only
  rw [if_neg (by decide), Nat.zero_div, Nat.zero_mod, hrespond]
  dsimp only
  rw [if_neg hvalid]
  show (pciCreateDevice hw {} (pciBdf 0 0 0) (hw.cfg.read 16 pciVendorId) (hw.cfg.read 16 pciDeviceId)
    (hw.cfg.read 32 pciClassRevision >>> 8) hw.headerType >>= fun bus => pure (hw.multi, bus)) s = _
  unfold pciCreateDevice
  rw [bind_assoc]
  rfl

/-- The scan begins with the first round of the first loop; what comes after it adds records as well. -/
theorem enumerate_eq_bind (functions : Forest HwFunction) :
    ∃ rest : Bool × PciBus → EnumM σ (PciBus × Forest ConfiguredFunction),
      (∀ st, Relates Grown (rest st)) ∧
      enumerate functions = bindFunction functions.roots (false, {}) 0 >>= rest := by
  refine ⟨fun st => ((List.range 255).map Nat.succ).foldlM (bindFunction functions.roots) st >>=
    fun st => pciAutoConfigDevices functions st.2, fun st => ?_, ?_⟩
  · refine Relates.bind (Relates.foldlM (relates_bindFunction _) _ _) fun _ => ?_
    exact Relates.bind (relates_modifyController _) fun _ => relates_configDevices _ _
  · have hrange : List.range 256 = 0 :: (List.range 255).map Nat.succ := List.range_succ_eq_map
    unfold enumerate pciBindBusDevices
    rw [hrange, List.foldlM_cons]
    simp only [bind_assoc, pure_bind]

/-- **When the scan adds nothing to what is held**: if nothing answers on the root bus, or there is no
memory for the first record. -/
theorem enumerate_keeps_iff (functions : Forest HwFunction) (s : EnumState σ) :
    (final (enumerate functions) s).memory.held = s.memory.held ↔
      RootAnswers functions.roots → s.memory.available = false := by
  by_cases hroot : RootAnswers functions.roots
  · obtain ⟨hw, hhead, hanswers⟩ := hroot
    obtain ⟨st, hround⟩ := bindFunction_of_rootAnswers hhead hanswers s
    obtain ⟨rest, hrest, hscan⟩ := enumerate_eq_bind (σ := σ) functions
    rw [hscan]
    by_cases hmet : s.memory.available = true
    · have halloc : (allocMem .device : EnumM σ Unit) s
          = .ok () { s with memory := (s.memory.acquire .device).2 } := by rw [allocMem_eq, if_pos hmet]
      rw [bind_of_ok halloc] at hround
      -- the record is held, and what comes after it adds to that
      obtain ⟨records, -, hheld⟩ := hrest _ { s with memory := (s.memory.acquire .device).2 }
      rw [final_bind_of_ok (hround.trans rfl), hheld, Ledger.held_acquire_of_available hmet]
      refine iff_of_false (fun heq => ?_) fun h => ?_
      · have hlength := congrArg List.length heq
        rw [List.length_append, List.length_cons] at hlength
        omega
      · rw [h ⟨hw, hhead, hanswers⟩] at hmet
        cases hmet
    · have halloc : (allocMem .device : EnumM σ Unit) s
          = .error .enomem { s with memory := (s.memory.acquire .device).2 } := by
        rw [allocMem_eq, if_neg hmet]
      rw [bind_eq_error.2 (Or.inl halloc)] at hround
      rw [Bool.not_eq_true] at hmet
      refine iff_of_true ?_ fun _ => hmet
      rw [final_bind_of_error hround]
      exact Ledger.held_acquire_of_not_available hmet _
  · refine iff_of_true ?_ fun h => absurd h hroot
    have hbind := pciBindBusDevices_of_not_rootAnswers hroot s
    unfold enumerate
    rw [final_bind_of_ok hbind]
    unfold pciAutoConfigDevices
    rw [final_bind_of_ok (show modifyController _ s = .ok () _ from rfl),
      final_of_ok (configDevices_of_no_devices functions rfl _)]

end BcmPcie
