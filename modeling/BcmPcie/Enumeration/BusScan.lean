import BcmPcie.Enumeration.Scan

/-! # What the scan of a bus finds

`pci_bind_bus_devices` on any hardware: a record for each function that answers and that is function 0,
or that function 0 of its device announces; the records stand in the order of their addresses. The flag
that carries the announcement belongs to one device, since function 0 of the next one resets it.

* `ThereAt` — a function is there; `IsRecord` — a record says what the registers of its function say.
* `pciBindBusDevices_exact` — the records of a bus are those of the functions that are there. -/

namespace BcmPcie

open Computations

variable {σ : Type}

/-- What answers configuration cycles to address `i` of a bus, if its vendor is valid. -/
def answering (functions : List HwFunction) (busNumber i : ℕ) : Option HwFunction :=
  (respond functions busNumber (i / 8) (i % 8)).filter HwFunction.answers

/-- Function 0 of the device of address `i` is there and announces more functions. -/
def announced (functions : List HwFunction) (busNumber i : ℕ) : Bool :=
  (answering functions busNumber (i / 8 * 8)).any HwFunction.multi

/-- The function that is there at address `i`. -/
def thereAt (functions : List HwFunction) (busNumber i : ℕ) : Option HwFunction :=
  (answering functions busNumber i).filter fun _ => decide (i % 8 = 0) || announced functions busNumber i

/-- The record of what answers at address `i` of a bus. -/
def HwFunction.recordAt (hw : HwFunction) (busNumber i : ℕ) : PciDevice :=
  newDevice hw (pciBdf busNumber (i / 8) (i % 8)) (hw.cfg.read 16 pciVendorId)
    (hw.cfg.read 16 pciDeviceId) (hw.cfg.read 32 pciClassRevision >>> 8) hw.headerType

/-- The records of the functions that are there at the first `n` addresses. -/
def scanned (functions : List HwFunction) (busNumber n : ℕ) : List PciDevice :=
  (List.range n).filterMap fun i => (thereAt functions busNumber i).map (·.recordAt busNumber i)

/-! ## The addresses -/

section Scanned

variable {functions : List HwFunction} {busNumber : ℕ}

/-- The next address adds the record of the function that is there, if one is. -/
theorem scanned_succ (n : ℕ) : scanned functions busNumber (n + 1)
    = scanned functions busNumber n
      ++ ((thereAt functions busNumber n).map (·.recordAt busNumber n)).toList := by
  unfold scanned
  rw [List.range_succ, List.filterMap_append]
  cases h : thereAt functions busNumber n <;> simp [h]

/-- The record made at an address carries it. -/
theorem devfn_recordAt (hw : HwFunction) {i : ℕ} (hi : i < 256) :
    (hw.recordAt busNumber i).devfn = i * 256 := by
  show pciMaskBus (pciBdf busNumber (i / 8) (i % 8)) = _
  unfold pciMaskBus pciBdf
  omega

/-- The records of the addresses below `n` are those of the functions that are there. -/
theorem mem_scanned {n : ℕ} {dev : PciDevice} : dev ∈ scanned functions busNumber n ↔
    ∃ i < n, ∃ hw, thereAt functions busNumber i = some hw ∧ hw.recordAt busNumber i = dev := by
  unfold scanned
  simp only [List.mem_filterMap, List.mem_range, Option.map_eq_some_iff]

/-- The records stand in the order of their addresses. -/
theorem pairwise_scanned {n : ℕ} (hn : n ≤ 256) :
    (scanned functions busNumber n).Pairwise fun d e => d.devfn < e.devfn := by
  induction n with
  | zero => exact List.Pairwise.nil
  | succ n ih =>
    rw [scanned_succ, List.pairwise_append]
    refine ⟨ih (by omega), ?_, fun d hd e he => ?_⟩
    · cases thereAt functions busNumber n <;> simp
    · obtain ⟨i, hi, hw, -, rfl⟩ := mem_scanned.1 hd
      obtain ⟨hw', -, rfl⟩ := Option.map_eq_some_iff.1 (Option.mem_toList.1 he)
      rw [devfn_recordAt hw (by omega), devfn_recordAt hw' (by omega)]
      omega

/-- No record of an earlier address is found at the address of a round. -/
theorem pciBusFindDevfn_scanned (bus : PciBus) {n : ℕ} (hn : n < 256) :
    pciBusFindDevfn { bus with devices := scanned functions busNumber n }
      (pciMaskBus (pciBdf busNumber (n / 8) (n % 8))) = none := by
  unfold pciBusFindDevfn
  rw [List.find?_eq_none]
  intro dev hdev
  obtain ⟨i, hi, hw, -, rfl⟩ := mem_scanned.1 hdev
  rw [decide_eq_true_eq, devfn_recordAt hw (by omega)]
  unfold pciMaskBus pciBdf
  omega

end Scanned

/-! ## The loop -/

section Loop

variable {functions : List HwFunction} {bus : PciBus}

/-- What is known before round `n`: the flag says whether more functions of the device were announced,
unless the round is for a function 0. -/
def FlagAt (functions : List HwFunction) (busNumber n : ℕ) (foundMulti : Bool) : Prop :=
  n % 8 ≠ 0 → foundMulti = announced functions busNumber n

/-- Within a device the announcement of its function 0 stands. -/
theorem announced_succ {busNumber n : ℕ} (h : (n + 1) % 8 ≠ 0) :
    announced functions busNumber (n + 1) = announced functions busNumber n := by
  unfold announced
  rw [show (n + 1) / 8 * 8 = n / 8 * 8 by omega]

/-- At function 0 it is made. -/
theorem announced_of_first {busNumber n : ℕ} (h : n % 8 = 0) :
    announced functions busNumber n = (answering functions busNumber n).any HwFunction.multi := by
  unfold announced
  rw [show n / 8 * 8 = n by omega]

/-- A round that leaves the flag of its device as it was. -/
theorem FlagAt.succ {busNumber n : ℕ} {foundMulti foundMulti' : Bool}
    (h : FlagAt functions busNumber n foundMulti)
    (h' : foundMulti' = if n % 8 = 0 then (answering functions busNumber n).any HwFunction.multi
      else foundMulti) : FlagAt functions busNumber (n + 1) foundMulti' := by
  intro hnext
  rw [announced_succ hnext, h']
  split
  · rename_i h0
    rw [announced_of_first h0]
  · rename_i h0
    exact h h0

/-- What a round needs of memory. -/
def needs (functions : List HwFunction) (busNumber n : ℕ) : ℕ :=
  if (thereAt functions busNumber n).isSome then 1 else 0

/-- A function that responds answers if it has a vendor. -/
theorem answering_of_respond {busNumber n : ℕ} {hw : HwFunction}
    (h : respond functions busNumber (n / 8) (n % 8) = some hw) :
    answering functions busNumber n
      = if hw.cfg.read 16 pciVendorId = 0xffff#16 ∨ hw.cfg.read 16 pciVendorId = 0 then none
        else some hw := by
  unfold answering
  rw [h]
  unfold Option.filter HwFunction.answers
  dsimp only
  by_cases hvendor : hw.cfg.read 16 pciVendorId = 0xffff#16 ∨ hw.cfg.read 16 pciVendorId = 0
  · rw [if_pos hvendor, decide_eq_true hvendor]
    rfl
  · rw [if_neg hvendor, decide_eq_false hvendor]
    rfl

/-- A round that makes no record, since nothing is there. -/
theorem round_of_none {n : ℕ} {foundMulti : Bool} {s : EnumState σ}
    (hthere : thereAt functions bus.busNumber n = none)
    (hflag : FlagAt functions bus.busNumber (n + 1) foundMulti) :
    ∃ foundMulti' s', (pure (foundMulti, { bus with devices := scanned functions bus.busNumber n }) :
        EnumM σ (Bool × PciBus)) s
      = .ok (foundMulti', { bus with devices := scanned functions bus.busNumber (n + 1) }) s' ∧
      FlagAt functions bus.busNumber (n + 1) foundMulti' ∧
      ∀ k, s'.memory.met k = s.memory.met (k + needs functions bus.busNumber n) := by
  refine ⟨foundMulti, s, ?_, hflag, fun k => ?_⟩
  · rw [scanned_succ, hthere, Option.map_none, Option.toList_none, List.append_nil]
    rfl
  · unfold needs
    rw [hthere]
    rfl

/-- **One round**: a record for the function that is there, if there is memory for it. -/
theorem bindFunction_exact {n : ℕ} (hn : n < 256) {foundMulti : Bool}
    (hflag : FlagAt functions bus.busNumber n foundMulti) (s : EnumState σ)
    (hmem : needs functions bus.busNumber n = 1 → s.memory.met 0 = true) :
    ∃ foundMulti' s', bindFunction functions
        (foundMulti, { bus with devices := scanned functions bus.busNumber n }) n s
      = .ok (foundMulti', { bus with devices := scanned functions bus.busNumber (n + 1) }) s' ∧
      FlagAt functions bus.busNumber (n + 1) foundMulti' ∧
      ∀ k, s'.memory.met k = s.memory.met (k + needs functions bus.busNumber n) := by
  unfold bindFunction
  dsimp only
  by_cases hskip : n % 8 ≠ 0 ∧ (if n % 8 = 0 then false else foundMulti) = false
  · -- function 0 has not announced this one
    obtain ⟨hfunction, hnot⟩ := hskip
    rw [if_neg hfunction] at hnot
    have hthere : thereAt functions bus.busNumber n = none := by
      unfold thereAt
      rw [← hflag hfunction, hnot, decide_eq_false hfunction]
      cases answering functions bus.busNumber n <;> rfl
    rw [if_neg hfunction, if_pos ⟨hfunction, hnot⟩]
    exact round_of_none hthere (hflag.succ (if_neg hfunction).symm)
  · rw [if_neg hskip]
    have hasked : n % 8 = 0 ∨ announced functions bus.busNumber n = true := by
      by_cases hfunction : n % 8 = 0
      · exact Or.inl hfunction
      · right
        rw [← hflag hfunction]
        rw [if_neg hfunction] at hskip
        exact Bool.eq_true_of_not_eq_false fun hfalse => hskip ⟨hfunction, hfalse⟩
    -- nothing answers, or the vendor is invalid: no record and no memory
    cases hrespond : respond functions bus.busNumber (n / 8) (n % 8) with
    | none =>
      have hanswering : answering functions bus.busNumber n = none := by
        unfold answering
        rw [hrespond]
        rfl
      refine round_of_none (by unfold thereAt; rw [hanswering]; rfl) (hflag.succ ?_)
      rw [hanswering]
      rfl
    | some hw =>
      dsimp only
      have hanswering := answering_of_respond hrespond
      by_cases hvendor : hw.cfg.read 16 pciVendorId = 0xffff#16 ∨ hw.cfg.read 16 pciVendorId = 0
      · rw [if_pos hvendor] at hanswering ⊢
        refine round_of_none (by unfold thereAt; rw [hanswering]; rfl) (hflag.succ ?_)
        rw [hanswering]
        rfl
      -- a record is made, and takes the next memory that is met
      · rw [if_neg hvendor] at hanswering ⊢
        have hthere : thereAt functions bus.busNumber n = some hw := by
          unfold thereAt
          rw [hanswering, Option.filter_some_pos]
          rcases hasked with h0 | hmulti
          · rw [decide_eq_true h0, Bool.true_or]
          · rw [hmulti, Bool.or_true]
        have hneeds : needs functions bus.busNumber n = 1 := by
          unfold needs
          rw [hthere]
          rfl
        have hmet : s.memory.available = true := by
          rw [Ledger.available_eq_met]
          exact hmem hneeds
        rw [pciBusFindDevfn_scanned bus hn]
        dsimp only
        unfold pciCreateDevice
        rw [bind_assoc, bind_of_ok (by rw [allocMem_eq, if_pos hmet])]
        refine ⟨if n % 8 = 0 then hw.multi else if n % 8 = 0 then false else foundMulti,
          { s with memory := (s.memory.acquire .device).2 }, ?_, hflag.succ ?_, fun k => ?_⟩
        · rw [scanned_succ, hthere]
          rfl
        · rw [hanswering]
          by_cases hfunction : n % 8 = 0
          · rw [if_pos hfunction, if_pos hfunction]
            rfl
          · rw [if_neg hfunction, if_neg hfunction, if_neg hfunction]
        · rw [hneeds]
          exact Ledger.met_acquire _ _ k

/-- The first rounds: the records of the functions that are there, if there is memory for all of
them. -/
theorem bindFunctions_exact (hnew : bus.devices = []) (s : EnumState σ) {n : ℕ} (hn : n ≤ 256)
    (hmem : ∀ k < (scanned functions bus.busNumber n).length, s.memory.met k = true) :
    ∃ foundMulti s', (List.range n).foldlM (bindFunction functions) (false, bus) s
      = .ok (foundMulti, { bus with devices := scanned functions bus.busNumber n }) s' ∧
      FlagAt functions bus.busNumber n foundMulti ∧
      ∀ k, s'.memory.met k = s.memory.met (k + (scanned functions bus.busNumber n).length) := by
  -- on the rounds done; the memory met from here on is shifted by the records made
  induction n with
  | zero =>
    refine ⟨false, s, ?_, fun h => absurd rfl h, fun k => rfl⟩
    have hempty : bus = { bus with devices := scanned functions bus.busNumber 0 } := by
      show bus = { bus with devices := [] }
      rw [← hnew]
    rw [← hempty]
    rfl
  | succ n ih =>
    have hlength : (scanned functions bus.busNumber (n + 1)).length
        = (scanned functions bus.busNumber n).length + needs functions bus.busNumber n := by
      rw [scanned_succ, List.length_append]
      unfold needs
      cases thereAt functions bus.busNumber n <;> rfl
    rw [hlength] at hmem ⊢
    obtain ⟨foundMulti, s₁, hrun, hflag, hmet⟩ :=
      ih (by omega) fun k hk => hmem k (Nat.lt_add_right _ hk)
    obtain ⟨foundMulti', s₂, hround, hflag', hmet'⟩ := bindFunction_exact (by omega : n < 256) hflag s₁
      fun hneeds => by rw [hmet]; exact hmem _ (by omega)
    refine ⟨foundMulti', s₂, ?_, hflag', fun k => ?_⟩
    · rw [List.range_succ, List.foldlM_append, bind_of_ok hrun, List.foldlM_cons, bind_of_ok hround]
      rfl
    · rw [hmet', hmet]
      congr 1
      omega

end Loop

/-! ## The records of a bus -/

/-- `hw` is there at this address of the bus: it answers with a valid vendor, and it is function 0 or
function 0 of its device announces it. -/
structure ThereAt (functions : List HwFunction) (busNumber device function : ℕ) (hw : HwFunction) :
    Prop where
  device_lt : device < 32
  function_lt : function < 8
  responds : respond functions busNumber device function = some hw
  answers : hw.answers = true
  announced : function = 0 ∨ ∃ hw₀, respond functions busNumber device 0 = some hw₀ ∧
    hw₀.answers = true ∧ hw₀.multi = true

/-- The record says what the registers of the function at this address say. -/
structure IsRecord (busNumber device function : ℕ) (hw : HwFunction) (dev : PciDevice) : Prop where
  bdf : dev.bdf = pciBdf busNumber device function
  devfn : dev.devfn = device * 2048 + function * 256
  vendor : dev.vendor = hw.cfg.read 16 pciVendorId
  device : dev.device = hw.cfg.read 16 pciDeviceId
  classCode : dev.classCode = hw.cfg.read 32 pciClassRevision >>> 8
  revision : dev.revision = hw.cfg.read 8 pciRevisionId
  headerType : dev.headerType = (hw.cfg.read 8 pciHeaderType).toNat % 128
  barsNum : dev.barsNum = headerBars ((hw.cfg.read 8 pciHeaderType).toNat % 128)
  registers : dev.cfg = hw.cfg

/-- The records are those of the functions that are there, each once, in the order of their
addresses. -/
structure ScanExact (functions : List HwFunction) (busNumber : ℕ) (devices : List PciDevice) : Prop where
  sorted : devices.Pairwise fun d e => d.devfn < e.devfn
  sound : ∀ dev ∈ devices, ∃ device function hw, ThereAt functions busNumber device function hw ∧
    IsRecord busNumber device function hw dev
  complete : ∀ device function hw, ThereAt functions busNumber device function hw →
    ∃ dev ∈ devices, IsRecord busNumber device function hw dev

section Exact

variable {functions : List HwFunction} {busNumber : ℕ}

/-- Who answers at an address responds there and has a vendor. -/
theorem answering_eq_some_iff {i : ℕ} {hw : HwFunction} :
    answering functions busNumber i = some hw ↔
      respond functions busNumber (i / 8) (i % 8) = some hw ∧ hw.answers = true := by
  unfold answering
  exact Option.filter_eq_some_iff

/-- More functions are announced by a function 0 that answers and is multi-function. -/
theorem announced_eq_true_iff {i : ℕ} : announced functions busNumber i = true ↔
    ∃ hw₀, respond functions busNumber (i / 8) 0 = some hw₀ ∧ hw₀.answers = true ∧
      hw₀.multi = true := by
  have hdiv : i / 8 * 8 / 8 = i / 8 := by omega
  have hmod : i / 8 * 8 % 8 = 0 := by omega
  unfold announced
  simp only [Option.any_eq_true, answering_eq_some_iff, hdiv, hmod, and_assoc]

/-- What the rounds go by is what the hardware has. -/
theorem thereAt_eq_some_iff {i : ℕ} (hi : i < 256) {hw : HwFunction} :
    thereAt functions busNumber i = some hw ↔ ThereAt functions busNumber (i / 8) (i % 8) hw := by
  unfold thereAt
  rw [Option.filter_eq_some_iff, answering_eq_some_iff, Bool.or_eq_true, decide_eq_true_eq,
    announced_eq_true_iff]
  constructor
  · rintro ⟨⟨hresponds, hanswers⟩, hannounced⟩
    exact ⟨by omega, Nat.mod_lt _ (by decide), hresponds, hanswers, hannounced⟩
  · intro h
    exact ⟨⟨h.responds, h.answers⟩, h.announced⟩

/-- The record made at an address describes the function that answers there. -/
theorem isRecord_recordAt (busNumber : ℕ) (hw : HwFunction) {i : ℕ} (hi : i < 256) :
    IsRecord busNumber (i / 8) (i % 8) hw (hw.recordAt busNumber i) := by
  refine ⟨rfl, ?_, rfl, rfl, rfl, rfl, rfl, rfl, rfl⟩
  rw [devfn_recordAt hw hi]
  omega

/-- The records of all the addresses are exactly what a scan must find. -/
theorem scanExact_scanned : ScanExact functions busNumber (scanned functions busNumber 256) := by
  refine ⟨pairwise_scanned le_rfl, fun dev hdev => ?_, fun device function hw h => ?_⟩
  · obtain ⟨i, hi, hw, hthere, rfl⟩ := mem_scanned.1 hdev
    exact ⟨i / 8, i % 8, hw, (thereAt_eq_some_iff hi).1 hthere, isRecord_recordAt busNumber hw hi⟩
  · have hdevice := h.device_lt
    have hfunction := h.function_lt
    have hdiv : (device * 8 + function) / 8 = device := by omega
    have hmod : (device * 8 + function) % 8 = function := by omega
    have hlt : device * 8 + function < 256 := by omega
    refine ⟨hw.recordAt busNumber (device * 8 + function), mem_scanned.2 ⟨_, hlt, hw, ?_, rfl⟩, ?_⟩
    · rw [thereAt_eq_some_iff hlt, hdiv, hmod]
      exact h
    · have hrecord := isRecord_recordAt busNumber hw hlt
      rwa [hdiv, hmod] at hrecord

/-- On the root bus all records are of its single device. -/
theorem ScanExact.root_slot {devices : List PciDevice} (h : ScanExact functions 0 devices) :
    ∀ dev ∈ devices, pciDev dev.devfn = 0 := by
  intro dev hdev
  obtain ⟨device, function, hw, hthere, hrecord⟩ := h.sound dev hdev
  have hfunction := hthere.function_lt
  have hresponds := hthere.responds
  have hdevice : device = 0 := by
    by_contra hne
    unfold respond at hresponds
    rw [if_pos ⟨by decide, Nat.pos_of_ne_zero hne⟩] at hresponds
    cases hresponds
  rw [hrecord.devfn, hdevice]
  unfold pciDev
  omega

end Exact

/-- **The scan of a bus** finds the functions that are there and no others, if there is memory for
their records. -/
theorem pciBindBusDevices_exact (functions : List HwFunction) {bus : PciBus} (hnew : bus.devices = [])
    (s : EnumState σ)
    (hmem : ∀ k < (scanned functions bus.busNumber 256).length, s.memory.met k = true) :
    ∃ devices s', pciBindBusDevices functions bus s = .ok { bus with devices := devices } s' ∧
      ScanExact functions bus.busNumber devices := by
  obtain ⟨foundMulti, s', hrun, -⟩ := bindFunctions_exact hnew s le_rfl hmem
  refine ⟨scanned functions bus.busNumber 256, s', ?_, scanExact_scanned⟩
  unfold pciBindBusDevices
  rw [bind_of_ok hrun]
  rfl

/-- Two devices on a bus, the second one of them without a function 0 that would announce it. -/
def straySiblings : List HwFunction := [sampleEndpoint 0, { sampleEndpoint 1 with function := 1 }]

/-- One of them is found. -/
theorem straySiblings_exact : ∃ devices s',
    pciBindBusDevices straySiblings { busNumber := 2 } sampleEnum
      = .ok { busNumber := 2, devices := devices } s' ∧ ScanExact straySiblings 2 devices :=
  pciBindBusDevices_exact straySiblings rfl sampleEnum fun _ _ => rfl

example : (scanned straySiblings 2 256).map (·.devfn) = [0] := by decide +kernel

end BcmPcie
