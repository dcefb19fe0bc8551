import BcmPcie.Enumeration.Probe
import BcmPcie.Library.Computations

/-! # The functions a bus is found to have

`pci_bind_bus_devices` goes through the 256 addresses of a bus one by one. On hardware whose functions
stand in the order of their addresses (`OnBus`) it finds the functions that answer: function 0 of a
device, and the others if function 0 says that there are any (`found`).

* `pciBindBusDevices_ok` — the records of a bus are those of the functions found, in their order.
* `pciBusFindDevfn_record` — and a function's record is found by its address. -/

namespace BcmPcie

open Computations

variable {σ : Type}

namespace HwFunction

variable (hw : HwFunction)

/-- Where a function stands among the addresses of its bus. -/
def address : ℕ := hw.device * 8 + hw.function

/-- The function has a vendor. -/
def answers : Bool := !decide (hw.cfg.read 16 pciVendorId = 0xffff#16 ∨ hw.cfg.read 16 pciVendorId = 0)

/-- The function's header says that its device has more functions. -/
def multi : Bool := decide (128 ≤ (hw.cfg.read 8 pciHeaderType).toNat)

/-- The layout of its header. -/
def headerType : ℕ := (hw.cfg.read 8 pciHeaderType).toNat % 128

/-- The function is a PCI-to-PCI bridge. -/
def isBridge : Bool := decide (hw.cfg.read 16 pciClassDevice = pciClassBridgePci)

/-- Its record on bus `busNumber`. -/
def record (busNumber : ℕ) : PciDevice :=
  newDevice hw (pciBdf busNumber hw.device hw.function) (hw.cfg.read 16 pciVendorId)
    (hw.cfg.read 16 pciDeviceId) (hw.cfg.read 32 pciClassRevision >>> 8) hw.headerType

end HwFunction

/-- The function is found among the functions of its bus. -/
def found (functions : List HwFunction) (hw : HwFunction) : Bool :=
  hw.answers && (decide (hw.function = 0) ||
    functions.any fun f => decide (f.device = hw.device ∧ f.function = 0) && f.answers && f.multi)

/-- These can be the functions of bus `busNumber`: they stand in the order of their addresses, the
buses 0 and 1 have a single device, and bus 0 only the root complex. -/
structure OnBus (busNumber : ℕ) (functions : List HwFunction) : Prop where
  sorted : functions.Pairwise fun f g => f.address < g.address
  device_lt : ∀ f ∈ functions, f.device < 32
  function_lt : ∀ f ∈ functions, f.function < 8
  link : busNumber < 2 → ∀ f ∈ functions, f.device = 0
  root : busNumber = 0 → ∀ f ∈ functions, f.function = 0 ∧ f.multi = false

instance (busNumber : ℕ) (functions : List HwFunction) : Decidable (OnBus busNumber functions) :=
  decidable_of_iff ((functions.Pairwise fun f g => f.address < g.address) ∧
      (∀ f ∈ functions, f.device < 32) ∧ (∀ f ∈ functions, f.function < 8) ∧
      (busNumber < 2 → ∀ f ∈ functions, f.device = 0) ∧
      (busNumber = 0 → ∀ f ∈ functions, f.function = 0 ∧ f.multi = false))
    ⟨fun ⟨hsorted, hdevice, hfunction, hlink, hroot⟩ => ⟨hsorted, hdevice, hfunction, hlink, hroot⟩,
      fun h => ⟨h.sorted, h.device_lt, h.function_lt, h.link, h.root⟩⟩

/-! ## Functions in the order of their addresses -/

section Sorted

variable {functions : List HwFunction}

/-- The functions below the next address are those below this one and those at it. -/
theorem filter_lt_succ (h : functions.Pairwise fun f g => f.address < g.address)
    (p : HwFunction → Bool) (i : ℕ) :
    functions.filter (fun f => p f && decide (f.address < i + 1))
      = functions.filter (fun f => p f && decide (f.address < i))
        ++ functions.filter (fun f => p f && decide (f.address = i)) := by
  induction functions with
  | nil => rfl
  | cons f fs ih =>
    obtain ⟨hlt, hrest⟩ := List.pairwise_cons.1 h
    rw [List.filter_cons, List.filter_cons, List.filter_cons, ih hrest]
    by_cases hf : f.address < i
    · have hf' : f.address < i + 1 := by omega
      have hne : f.address ≠ i := by omega
      cases p f <;> simp [hf, hf', hne]
    · -- everything behind `f` stands at `i + 1` or above
      have hnone : fs.filter (fun g => p g && decide (g.address < i)) = [] := by
        rw [List.filter_eq_nil_iff]
        intro g hg
        have := hlt g hg
        simp
        omega
      rw [hnone]
      by_cases heq : f.address = i
      · cases p f <;> simp [heq]
      · have hge : ¬ f.address < i + 1 := by omega
        cases p f <;> simp [hf, heq, hge]

/-- A function is known by its address. -/
theorem eq_of_address_eq (h : functions.Pairwise fun f g => f.address < g.address) {f g : HwFunction}
    (hf : f ∈ functions) (hg : g ∈ functions) (heq : f.address = g.address) : f = g := by
  induction functions with
  | nil => cases hf
  | cons f₀ fs ih =>
    obtain ⟨hlt, hrest⟩ := List.pairwise_cons.1 h
    rcases List.mem_cons.1 hf with rfl | hf' <;> rcases List.mem_cons.1 hg with rfl | hg'
    · rfl
    · exact absurd heq (Nat.ne_of_lt (hlt g hg'))
    · exact absurd heq.symm (Nat.ne_of_lt (hlt f hf'))
    · exact ih hrest hf' hg'

/-- The functions at an address are none or one. -/
theorem filter_address_eq (h : functions.Pairwise fun f g => f.address < g.address)
    (p : HwFunction → Bool) {f : HwFunction} (hf : f ∈ functions) :
    functions.filter (fun g => p g && decide (g.address = f.address)) = if p f then [f] else [] := by
  induction functions with
  | nil => cases hf
  | cons f₀ fs ih =>
    obtain ⟨hlt, hrest⟩ := List.pairwise_cons.1 h
    rcases List.mem_cons.1 hf with rfl | hf
    · have hnone : fs.filter (fun g => p g && decide (g.address = f.address)) = [] := by
        rw [List.filter_eq_nil_iff]
        intro g hg
        have := hlt g hg
        simp
        omega
      rw [List.filter_cons, hnone]
      cases p f <;> simp
    · have hne : f₀.address ≠ f.address := Nat.ne_of_lt (hlt f hf)
      rw [List.filter_cons, ih hrest hf]
      simp [hne]

end Sorted

/-! ## The loop over the addresses -/

section Loop

variable {functions : List HwFunction} {busNumber : ℕ}

/-- Functions have the same address if their device and function numbers are the same. -/
theorem HwFunction.address_eq_iff {f g : HwFunction} (hf : f.function < 8) (hg : g.function < 8) :
    f.address = g.address ↔ f.device = g.device ∧ f.function = g.function := by
  unfold HwFunction.address
  omega

/-- The records of a bus have the addresses of their functions. -/
theorem devfn_record {f g : HwFunction} (hf : f.device < 32 ∧ f.function < 8)
    (hg : g.device < 32 ∧ g.function < 8) :
    (f.record busNumber).devfn = pciMaskBus (pciBdf busNumber g.device g.function) ↔
      f.address = g.address := by
  have hdevfn : (f.record busNumber).devfn = pciMaskBus (pciBdf busNumber f.device f.function) := rfl
  rw [hdevfn, HwFunction.address_eq_iff hf.2 hg.2]
  unfold pciMaskBus pciBdf
  omega

/-- The only function that answers to an address of the bus is the one that stands there. -/
theorem OnBus.respond_eq (h : OnBus busNumber functions) {i : ℕ} (hi : busNumber = 0 → i % 8 = 0) :
    (respond functions busNumber (i / 8) (i % 8) = none ∧ ∀ f ∈ functions, f.address ≠ i) ∨
      ∃ f ∈ functions, f.address = i ∧ respond functions busNumber (i / 8) (i % 8) = some f := by
  have haddress {f : HwFunction} (hf : f ∈ functions) :
      f.address = i ↔ f.device = i / 8 ∧ f.function = i % 8 := by
    have := h.function_lt f hf
    unfold HwFunction.address
    omega
  -- a link has device 0 only; the root bus answers at its first address; elsewhere all are asked
  unfold respond
  split
  · rename_i hlink
    left
    refine ⟨rfl, fun f hf heq => ?_⟩
    have hdevice := h.link hlink.1 f hf
    have := ((haddress hf).1 heq).1
    omega
  · rename_i hlink
    split
    · -- bus 0 has the root complex, at its first address
      rename_i h0
      subst h0
      have hdev : i / 8 = 0 := by omega
      have haddr {f : HwFunction} (hf : f ∈ functions) : f.address = i :=
        (haddress hf).2 ⟨(h.link (by decide) f hf).trans hdev.symm,
          (h.root rfl f hf).1.trans (hi rfl).symm⟩
      cases hfs : functions with
      | nil => exact Or.inl ⟨rfl, fun f hf => by cases hf⟩
      | cons f fs =>
        right
        have hf : f ∈ functions := hfs ▸ List.mem_cons_self
        exact ⟨f, List.mem_cons_self, haddr hf, rfl⟩
    · cases hfind : functions.find? fun f => f.device = i / 8 ∧ f.function = i % 8 with
      | none =>
        left
        refine ⟨rfl, fun f hf heq => ?_⟩
        have hno := List.find?_eq_none.1 hfind f hf
        simp [(haddress hf).1 heq] at hno
      | some f =>
        right
        have hf := List.mem_of_find?_eq_some hfind
        have hsome := List.find?_some hfind
        exact ⟨f, hf, (haddress hf).2 (by simpa using hsome), rfl⟩

/-- An allocation succeeds if there is memory, and is asked for either way. -/
theorem allocMem_eq (r : Resource) (s : EnumState σ) :
    allocMem r s = if s.memory.available then
        .ok () { s with memory := (s.memory.acquire r).2 }
      else .error .enomem { s with memory := (s.memory.acquire r).2 } := by
  unfold allocMem Ledger.acquire
  cases hmet : s.memory.available with
  | true =>
    show (if s.memory.available then pure () else throw Errno.enomem : EnumM σ Unit) _ = _
    rw [hmet]
    rfl
  | false =>
    show (if s.memory.available then pure () else throw Errno.enomem : EnumM σ Unit) _ = _
    rw [hmet]
    rfl

/-- An allocation that succeeded has its block. -/
theorem allocMem_ok {r : Resource} {s s' : EnumState σ} {u : Unit} (h : allocMem r s = .ok u s') :
    s.memory.available = true ∧ s' = { s with memory := (s.memory.acquire r).2 } := by
  rw [allocMem_eq] at h
  split at h
  · rename_i hmet
    injection h with _ hs
    exact ⟨hmet, hs.symm⟩
  · cases h

/-- A device that is created stands behind those of its bus. -/
theorem pciCreateDevice_ok {hw : HwFunction} {bus bus' : PciBus} {bdf headerType : ℕ}
    {vendor device : BitVec 16} {classCode : BitVec 32} {s s' : EnumState σ}
    (h : pciCreateDevice hw bus bdf vendor device classCode headerType s = .ok bus' s') :
    bus' = { bus with
      devices := bus.devices ++ [newDevice hw bdf vendor device classCode headerType] } ∧
      s'.pcie = s.pcie := by
  obtain ⟨u, s₁, halloc, h⟩ := bind_eq_ok.1 h
  obtain ⟨rfl, rfl⟩ := pure_eq_ok.1 h
  exact ⟨rfl, by rw [(allocMem_ok halloc).2]⟩

/-- The records of the functions found among the addresses below `i`. -/
def foundBelow (functions : List HwFunction) (busNumber i : ℕ) : List PciDevice :=
  (functions.filter fun f => found functions f && decide (f.address < i)).map (·.record busNumber)

/-- What is known of the bus before round `i` of the loop: its records so far, and whether the device
of the round has been seen to have more functions. -/
structure BoundUpTo (functions : List HwFunction) (bus : PciBus) (i : ℕ) (st : Bool × PciBus) :
    Prop where
  bus : st.2 = { bus with devices := foundBelow functions bus.busNumber i }
  multi : i % 8 ≠ 0 → st.1 = functions.any fun f =>
    decide (f.address = i / 8 * 8) && f.answers && f.multi

/-- The record of a function at an address is the next, if it is found. -/
theorem OnBus.foundBelow_succ (h : OnBus busNumber functions) {f : HwFunction} (hf : f ∈ functions) :
    foundBelow functions busNumber (f.address + 1)
      = foundBelow functions busNumber f.address
        ++ if found functions f then [f.record busNumber] else [] := by
  unfold foundBelow
  rw [filter_lt_succ h.sorted, filter_address_eq h.sorted _ hf, List.map_append]
  split <;> rfl

/-- If none is found there the records stay. -/
theorem OnBus.foundBelow_succ_of_none {i : ℕ} (h : OnBus busNumber functions)
    (hnone : ∀ f ∈ functions, f.address = i → found functions f = false) :
    foundBelow functions busNumber (i + 1) = foundBelow functions busNumber i := by
  have hempty : functions.filter (fun f => found functions f && decide (f.address = i)) = [] := by
    rw [List.filter_eq_nil_iff]
    intro f hf
    by_cases heq : f.address = i
    · simp [hnone f hf heq]
    · simp [heq]
  unfold foundBelow
  rw [filter_lt_succ h.sorted, hempty, List.append_nil]

/-- A function other than function 0 is found if it answers and function 0 announces it. -/
theorem OnBus.found_eq (h : OnBus busNumber functions) {f : HwFunction} (hf : f ∈ functions) :
    found functions f = (f.answers && (decide (f.function = 0) ||
      functions.any fun g => decide (g.address = f.address / 8 * 8) && g.answers && g.multi)) := by
  have hlt := h.function_lt f hf
  have hany : (functions.any fun g => decide (g.device = f.device ∧ g.function = 0) && g.answers
        && g.multi)
      = functions.any fun g => decide (g.address = f.address / 8 * 8) && g.answers && g.multi := by
    rw [Bool.eq_iff_iff, List.any_eq_true, List.any_eq_true]
    apply exists_congr
    intro g
    apply and_congr_right
    intro hg
    have hglt := h.function_lt g hg
    have haddress : (g.device = f.device ∧ g.function = 0) ↔ g.address = f.address / 8 * 8 := by
      unfold HwFunction.address
      omega
    rw [decide_eq_decide.2 haddress]
  unfold found
  rw [hany]

/-- Whether an answering function stands at an address and announces more functions is a question
about the function that stands there. -/
theorem OnBus.any_address (h : OnBus busNumber functions) {f : HwFunction} (hf : f ∈ functions) :
    (functions.any fun g => decide (g.address = f.address) && g.answers && g.multi)
      = (f.answers && f.multi) := by
  rw [Bool.eq_iff_iff, List.any_eq_true]
  constructor
  · rintro ⟨g, hg, hprop⟩
    simp only [Bool.and_eq_true, decide_eq_true_eq] at hprop
    rw [← eq_of_address_eq h.sorted hg hf hprop.1.1]
    simp [hprop]
  · intro hprop
    exact ⟨f, hf, by simpa using hprop⟩

/-- No function at an address announces more functions, if none stands there. -/
theorem any_address_of_none {i : ℕ} (hnone : ∀ f ∈ functions, f.address ≠ i) :
    (functions.any fun g => decide (g.address = i) && g.answers && g.multi) = false := by
  rw [List.any_eq_false]
  intro f hf
  simp [hnone f hf]

/-- The records so far are those of other functions than the one whose round it is. -/
theorem OnBus.find_foundBelow {bus : PciBus} (h : OnBus bus.busNumber functions) {f : HwFunction}
    (hf : f ∈ functions) :
    pciBusFindDevfn { bus with devices := foundBelow functions bus.busNumber f.address }
      (pciMaskBus (pciBdf bus.busNumber f.device f.function)) = none := by
  unfold pciBusFindDevfn foundBelow
  rw [List.find?_eq_none]
  intro dev hdev
  obtain ⟨g, hg, rfl⟩ := List.mem_map.1 hdev
  obtain ⟨hgmem, hgfound⟩ := List.mem_filter.1 hg
  have hlt : g.address < f.address := of_decide_eq_true ((Bool.and_eq_true _ _).mp hgfound).2
  rw [decide_eq_true_eq, devfn_record ⟨h.device_lt g hgmem, h.function_lt g hgmem⟩
    ⟨h.device_lt f hf, h.function_lt f hf⟩]
  exact Nat.ne_of_lt hlt

namespace BoundUpTo

variable {bus : PciBus} {i : ℕ} {st : Bool × PciBus}

/-- What the loop knows of a device past its function 0, the next round knows too; at function 0 it
learns it. -/
theorem next_multi (hinv : BoundUpTo functions bus i st) {multi : Bool}
    (hold : i % 8 ≠ 0 → multi = st.1)
    (hnew : i % 8 = 0 → multi = functions.any fun f =>
      decide (f.address = i) && f.answers && f.multi) :
    (i + 1) % 8 ≠ 0 → multi = functions.any fun f =>
      decide (f.address = (i + 1) / 8 * 8) && f.answers && f.multi := by
  intro h8
  by_cases hi0 : i % 8 = 0
  · rw [show (i + 1) / 8 * 8 = i by omega]
    exact hnew hi0
  · rw [show (i + 1) / 8 * 8 = i / 8 * 8 by omega, hold hi0]
    exact hinv.multi hi0

/-- On bus 0 no device is seen to have more functions. -/
theorem root_multi (hinv : BoundUpTo functions bus i st) (h : OnBus bus.busNumber functions)
    (h0 : bus.busNumber = 0) (h8 : i % 8 ≠ 0) : st.1 = false := by
  rw [hinv.multi h8, List.any_eq_false]
  intro f hf
  simp [(h.root h0 f hf).2]

/-- Whether the function of the round is found, from what the loop knows before it. -/
theorem found_eq (hinv : BoundUpTo functions bus i st) (h : OnBus bus.busNumber functions)
    {f : HwFunction} (hf : f ∈ functions) (haddr : f.address = i) :
    found functions f = (f.answers && (decide (i % 8 = 0) || st.1)) := by
  have hfunction : f.function = i % 8 := by
    have := h.function_lt f hf
    unfold HwFunction.address at haddr
    omega
  rw [h.found_eq hf, haddr, hfunction]
  by_cases hi0 : i % 8 = 0
  · simp [hi0]
  · rw [hinv.multi hi0]

/-- A round that creates no record, as no function is found at its address. -/
theorem pass (hinv : BoundUpTo functions bus i st) (h : OnBus bus.busNumber functions) {multi : Bool}
    (hold : i % 8 ≠ 0 → multi = st.1)
    (hnew : i % 8 = 0 → multi = functions.any fun f =>
      decide (f.address = i) && f.answers && f.multi)
    (hnone : ∀ f ∈ functions, f.address = i → found functions f = false) :
    BoundUpTo functions bus (i + 1) (multi, st.2) := by
  refine ⟨?_, hinv.next_multi hold hnew⟩
  rw [h.foundBelow_succ_of_none hnone]
  exact hinv.bus

/-- A round that creates the record of the function found at its address. -/
theorem create (hinv : BoundUpTo functions bus i st) (h : OnBus bus.busNumber functions)
    {f : HwFunction} (hf : f ∈ functions) (haddr : f.address = i) (hfound : found functions f = true)
    {multi : Bool} (hold : i % 8 ≠ 0 → multi = st.1)
    (hnew : i % 8 = 0 → multi = functions.any fun f =>
      decide (f.address = i) && f.answers && f.multi) :
    BoundUpTo functions bus (i + 1)
      (multi, { st.2 with devices := st.2.devices ++ [f.record bus.busNumber] }) := by
  refine ⟨?_, hinv.next_multi hold hnew⟩
  have hrecords := h.foundBelow_succ hf
  rw [haddr, if_pos hfound] at hrecords
  rw [hrecords, hinv.bus]

end BoundUpTo

/-- **One round of the loop**: nothing at an address that is skipped, where nobody answers or where
the function has no vendor, and a record where a function is found. -/
theorem boundUpTo_step {bus : PciBus} (h : OnBus bus.busNumber functions) {i : ℕ}
    {st st' : Bool × PciBus} {s s' : EnumState σ}
    (hinv : BoundUpTo functions bus i st) (hok : bindFunction functions st i s = .ok st' s') :
    BoundUpTo functions bus (i + 1) st' ∧ s'.pcie = s.pcie := by
  have hnumber : st.2.busNumber = bus.busNumber := by rw [hinv.bus]
  unfold bindFunction at hok
  dsimp only at hok
  set multi := if i % 8 = 0 then false else st.1 with hmulti
  have hold : i % 8 ≠ 0 → multi = st.1 := fun h8 => if_neg h8
  rw [hnumber] at hok
  by_cases hskip : i % 8 ≠ 0 ∧ multi = false
  · rw [if_pos hskip] at hok
    obtain ⟨rfl, rfl⟩ := pure_eq_ok.1 hok
    refine ⟨hinv.pass h hold (fun h0 => absurd h0 hskip.1) fun f hf haddr => ?_, rfl⟩
    rw [hinv.found_eq h hf haddr, ← hold hskip.1, hskip.2, decide_eq_false hskip.1]
    simp
  · rw [if_neg hskip] at hok
    have hi0 : bus.busNumber = 0 → i % 8 = 0 := by
      intro h0
      by_contra h8
      exact hskip ⟨h8, (hold h8).trans (hinv.root_multi h h0 h8)⟩
    obtain ⟨hrespond, hnone⟩ | ⟨f, hf, haddr, hrespond⟩ := h.respond_eq hi0
    · rw [hrespond] at hok
      obtain ⟨rfl, rfl⟩ := pure_eq_ok.1 hok
      refine ⟨hinv.pass h hold (fun h0 => ?_) fun f hf haddr => absurd haddr (hnone f hf), rfl⟩
      rw [hmulti, if_pos h0, any_address_of_none hnone]
    · rw [hrespond] at hok
      dsimp only at hok
      have hany := h.any_address hf
      rw [haddr] at hany
      by_cases hvendor : f.cfg.read 16 pciVendorId = 0xffff#16 ∨ f.cfg.read 16 pciVendorId = 0
      · have hanswers : f.answers = false := by
          unfold HwFunction.answers
          rw [decide_eq_true hvendor]
          rfl
        rw [if_pos hvendor] at hok
        obtain ⟨rfl, rfl⟩ := pure_eq_ok.1 hok
        refine ⟨hinv.pass h hold (fun h0 => ?_) fun g hg hgaddr => ?_, rfl⟩
        · rw [hany, hanswers, hmulti, if_pos h0]
          rfl
        · rw [eq_of_address_eq h.sorted hg hf (hgaddr.trans haddr.symm), hinv.found_eq h hf haddr,
            hanswers]
          rfl
      · have hanswers : f.answers = true := by
          unfold HwFunction.answers
          rw [decide_eq_false hvendor]
          rfl
        have hfound : found functions f = true := by
          rw [hinv.found_eq h hf haddr, hanswers]
          by_cases h0 : i % 8 = 0
          · simp [h0]
          · -- the round was not skipped, so the device is known to have more functions
            have hmore : multi = true := by
              by_contra hne
              exact hskip ⟨h0, by simpa using hne⟩
            simp [← hold h0, hmore]
        have hdevice : i / 8 = f.device ∧ i % 8 = f.function := by
          have := h.function_lt f hf
          unfold HwFunction.address at haddr
          omega
        have hfind : pciBusFindDevfn st.2 (pciMaskBus (pciBdf bus.busNumber (i / 8) (i % 8)))
            = none := by
          rw [hinv.bus, hdevice.1, hdevice.2, ← haddr]
          exact h.find_foundBelow hf
        rw [if_neg hvendor, hfind] at hok
        dsimp only at hok
        obtain ⟨bus₂, s₁, hcreate, hend⟩ := bind_eq_ok.1 hok
        obtain ⟨rfl, rfl⟩ := pure_eq_ok.1 hend
        obtain ⟨rfl, hpcie⟩ := pciCreateDevice_ok hcreate
        rw [hdevice.1, hdevice.2]
        refine ⟨hinv.create h hf haddr hfound (fun h8 => ?_) fun h0 => ?_, hpcie⟩
        · rw [← hdevice.2, if_neg h8]
          exact hold h8
        · rw [← hdevice.2, if_pos h0, hany, hanswers]
          rfl

/-- **The records of a bus** are those of the functions found, in the order of their addresses. -/
theorem pciBindBusDevices_ok {bus bus' : PciBus} (h : OnBus bus.busNumber functions)
    (hnew : bus.devices = []) {s s' : EnumState σ}
    (hok : pciBindBusDevices functions bus s = .ok bus' s') :
    bus' = { bus with devices := (functions.filter (found functions)).map (·.record bus.busNumber) } ∧
      s'.pcie = s.pcie := by
  unfold pciBindBusDevices at hok
  obtain ⟨st, s₁, hloop, hend⟩ := bind_eq_ok.1 hok
  obtain ⟨rfl, rfl⟩ := pure_eq_ok.1 hend
  have hstart : BoundUpTo functions bus 0 (false, bus) := by
    refine ⟨?_, fun h => absurd rfl h⟩
    have hempty : foundBelow functions bus.busNumber 0 = [] := by
      unfold foundBelow
      simp
    rw [hempty, ← hnew]
  -- the invariant: the records of the functions found below the address the loop is at
  have hinv := foldlM_range_invariant
    (P := fun i st t => BoundUpTo functions bus i st ∧ t.pcie = s.pcie)
    (fun i _ st t st' t' hP hround => by
      obtain ⟨hbound, hpcie⟩ := boundUpTo_step h hP.1 hround
      exact ⟨hbound, hpcie.trans hP.2⟩) ⟨hstart, rfl⟩ hloop
  have hall : foundBelow functions bus.busNumber 256
      = (functions.filter (found functions)).map (·.record bus.busNumber) := by
    unfold foundBelow
    congr 1
    apply List.filter_congr
    intro f hf
    have hd := h.device_lt f hf
    have hfn := h.function_lt f hf
    have hlt : f.address < 256 := by
      unfold HwFunction.address
      omega
    simp [hlt]
  exact ⟨hinv.1.bus.trans (by rw [hall]), hinv.2⟩

/-- The record of a function is found by its address, if the function was found. -/
theorem pciBusFindDevfn_record {bus : PciBus} (h : OnBus busNumber functions)
    (hbus : bus.devices = (functions.filter (found functions)).map (·.record busNumber))
    {f : HwFunction} (hf : f ∈ functions) :
    pciBusFindDevfn bus (pciMaskBus (pciBdf busNumber f.device f.function))
      = if found functions f then some (f.record busNumber) else none := by
  have hbounds {g : HwFunction} (hg : g ∈ functions) : g.device < 32 ∧ g.function < 8 :=
    ⟨h.device_lt g hg, h.function_lt g hg⟩
  unfold pciBusFindDevfn
  rw [hbus]
  cases hfind : ((functions.filter (found functions)).map (·.record busNumber)).find? fun dev =>
      dev.devfn = pciMaskBus (pciBdf busNumber f.device f.function) with
  | none =>
    rw [if_neg]
    intro hfound
    have hmem : f.record busNumber
        ∈ (functions.filter (found functions)).map (·.record busNumber) :=
      List.mem_map_of_mem (List.mem_filter.2 ⟨hf, hfound⟩)
    have hno := List.find?_eq_none.1 hfind _ hmem
    rw [decide_eq_true_eq] at hno
    exact hno rfl
  | some dev =>
    obtain ⟨g, hg, rfl⟩ := List.mem_map.1 (List.mem_of_find?_eq_some hfind)
    obtain ⟨hgmem, hgfound⟩ := List.mem_filter.1 hg
    have hdevfn := List.find?_some hfind
    rw [decide_eq_true_eq, devfn_record (hbounds hgmem) (hbounds hf)] at hdevfn
    obtain rfl := eq_of_address_eq h.sorted hgmem hf hdevfn
    rw [if_pos hgfound]

end Loop

end BcmPcie
