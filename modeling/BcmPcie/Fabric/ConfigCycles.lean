import BcmPcie.Boards.DevList
import BcmPcie.Enumeration.BusNumbers
import BcmPcie.Enumeration.MachineWindows
import BcmPcie.Library.Fabrics

/-! # Configuration cycles

A configuration cycle names a bus, and a device and a function on it. On that bus the function that
stands there answers; on any other a bridge takes the cycle over if the number lies between those in its
secondary and its subordinate bus registers.

* `configTargets` — the functions that answer a cycle, by the registers of the bridges.
* `PlacedOn` — the registers hold the numbers of the buses; `configTargets_of_placed` — then every
  function is found at its address.
* `found_of_enumerate` — at the end of enumeration every function is. -/

namespace BcmPcie

variable {σ : Type}

/-- A bridge takes over the cycles for a bus. -/
def forwardsBus (bus : ℕ) (f : ConfiguredFunction) : Bool :=
  decide f.IsBridge && decide (f.secondaryBus ≤ bus ∧ bus ≤ f.subordinateBus)

/-- The functions on bus `n` and behind it that answer the cycles to a device and function of `bus`.
Where it is the bus itself, nobody takes them over. -/
def configTargets (bus devfn : ℕ) : ℕ → Forest ConfiguredFunction → List ConfiguredFunction
  | _, .nil => []
  | n, .node f below rest =>
    (if n = bus then if f.dev.devfn = devfn then [f] else []
      else if forwardsBus bus f then configTargets bus devfn f.secondaryBus below else []) ++
        configTargets bus devfn n rest

/-- A bridge forwards the buses from its secondary to its subordinate number. -/
theorem forwardsBus_iff {bus : ℕ} {f : ConfiguredFunction} : forwardsBus bus f = true ↔
    f.IsBridge ∧ f.secondaryBus ≤ bus ∧ bus ≤ f.subordinateBus := by
  unfold forwardsBus
  rw [Bool.and_eq_true, decide_eq_true_eq, decide_eq_true_eq]

/-- On the bus itself its own functions answer. -/
theorem configTargets_self (n devfn : ℕ) (t : Forest ConfiguredFunction) :
    configTargets n devfn n t = t.roots.filter fun f => f.dev.devfn = devfn := by
  induction t with
  | nil => rfl
  | node f below rest _ ih =>
    rw [configTargets, if_pos rfl, ih, Forest.roots_node, List.filter_cons]
    by_cases hf : f.dev.devfn = devfn
    · rw [if_pos hf, if_pos (decide_eq_true hf), List.singleton_append]
    · rw [if_neg hf, if_neg (by rwa [decide_eq_true_eq]), List.nil_append]

/-- No bridge of the bus takes the cycle over. -/
theorem configTargets_of_not_forwards {bus devfn n : ℕ} (hn : n ≠ bus) {t : Forest ConfiguredFunction}
    (h : ∀ f ∈ t.roots, forwardsBus bus f = false) : configTargets bus devfn n t = [] := by
  induction t with
  | nil => rfl
  | node f below rest _ ih =>
    rw [configTargets, if_neg hn, h f List.mem_cons_self, if_neg Bool.false_ne_true, List.nil_append]
    exact ih fun g hg => h g (List.mem_cons_of_mem _ hg)

/-! ## Buses with their numbers -/

/-- On bus `b` and behind it, functions have the addresses of the buses they stand on, and the registers
of bridges hold the numbers of the buses behind them. -/
def PlacedOn : ℕ → Forest ConfiguredFunction → Prop
  | _, .nil => True
  | b, .node f below rest =>
    (pciBus f.dev.bdf = b ∧
      match f.secondary with
      | none => ¬ f.IsBridge ∧ below = .nil
      | some bus => f.IsBridge ∧ f.secondaryBus = bus.number ∧ f.subordinateBus = bus.lastSub ∧
          PlacedOn bus.number below) ∧
      PlacedOn b rest

section Placed

variable {b m m' bus devfn : ℕ} {t : Forest ConfiguredFunction}

/-- A function with its bus, which is not a bridge and has nothing behind it, or forwards to the buses
from the next number on. -/
theorem PlacedOn.node_cases {g : ConfiguredFunction} {below rest : Forest ConfiguredFunction}
    (h : PlacedOn b (.node g below rest))
    (hnum : (Forest.node g below rest).Numbered ConfiguredFunction.numbers m m') :
    (¬ g.IsBridge ∧ below = .nil ∧ rest.Numbered ConfiguredFunction.numbers m m') ∨
      ∃ last, (g.IsBridge ∧ g.secondaryBus = m + 1 ∧ g.subordinateBus = last) ∧
        (m + 1 ≤ last ∧ last ≤ m') ∧ PlacedOn (m + 1) below ∧
        below.Numbered ConfiguredFunction.numbers (m + 1) last ∧
        rest.Numbered ConfiguredFunction.numbers last m' := by
  obtain ⟨⟨-, hsecondary⟩, -⟩ := h
  cases hs : g.secondary with
  | none =>
    rw [hs] at hsecondary
    have hnone : g.numbers = none := by rw [ConfiguredFunction.numbers, hs, Option.map_none]
    obtain ⟨hnil, hrest⟩ := hnum.of_none hnone
    exact Or.inl ⟨hsecondary.1, hnil, hrest⟩
  | some numbers =>
    rw [hs] at hsecondary
    obtain ⟨hbridge, hnumber, hlast, hbelow⟩ := hsecondary
    have hsome : g.numbers = some (numbers.number, numbers.lastSub) := by
      rw [ConfiguredFunction.numbers, hs, Option.map_some]
    obtain ⟨hfirst, hnumb, hnumr⟩ := hnum.of_some hsome
    rw [hfirst] at hnumber hbelow
    exact Or.inr ⟨numbers.lastSub, ⟨hbridge, hnumber, hlast⟩, ⟨hnumb.le, hnumr.le⟩, hbelow, hnumb, hnumr⟩

/-- The functions of the buses of a forest. -/
theorem PlacedOn.bus_mem (h : PlacedOn b t) (hnum : t.Numbered ConfiguredFunction.numbers m m') :
    ∀ f ∈ t.toList, pciBus f.dev.bdf = b ∨ m < pciBus f.dev.bdf ∧ pciBus f.dev.bdf ≤ m' := by
  induction t generalizing b m m' with
  | nil =>
    intro f hf
    cases hf
  | node g below rest ihb ihr =>
    intro f hf
    rcases List.mem_cons.1 hf with rfl | hf
    · exact Or.inl h.1.1
    · rcases h.node_cases hnum with ⟨-, rfl, hnumr⟩ | ⟨last, -, hle, hbelow, hnumb, hnumr⟩
      · exact ihr h.2 hnumr f hf
      · rcases List.mem_append.1 hf with hf | hf
        · have := ihb hbelow hnumb f hf
          omega
        · have := ihr h.2 hnumr f hf
          omega

/-- The bridges of a bus take over the numbers between the first and the last that were given out. -/
theorem PlacedOn.between (h : PlacedOn b t) (hnum : t.Numbered ConfiguredFunction.numbers m m')
    {f : ConfiguredFunction} (hf : f ∈ t.roots) (hforwards : forwardsBus bus f = true) :
    m < bus ∧ bus ≤ m' := by
  induction t generalizing m m' with
  | nil => cases hf
  | node g below rest _ ihr =>
    have hregisters := forwardsBus_iff.1 hforwards
    rcases h.node_cases hnum with ⟨hleaf, -, hnumr⟩ | ⟨last, hbridge, hle, -, -, hnumr⟩
    · rcases List.mem_cons.1 hf with rfl | hf
      · exact absurd hregisters.1 hleaf
      · exact ihr h.2 hnumr hf
    · rcases List.mem_cons.1 hf with rfl | hf
      · omega
      · have := ihr h.2 hnumr hf
        omega

/-- A cycle for another bus than those of the forest finds nobody. -/
theorem PlacedOn.configTargets_eq_nil (h : PlacedOn b t)
    (hnum : t.Numbered ConfiguredFunction.numbers m m') (hb : b ≠ bus) (hbus : bus ≤ m ∨ m' < bus) :
    configTargets bus devfn b t = [] := by
  refine configTargets_of_not_forwards hb fun f hf => ?_
  rw [← Bool.not_eq_true]
  intro hforwards
  have := h.between hnum hf hforwards
  omega

/-- Who answers a cycle has its address. -/
theorem PlacedOn.address_of_mem (h : PlacedOn b t)
    (hnum : t.Numbered ConfiguredFunction.numbers m m') {f : ConfiguredFunction}
    (hf : f ∈ configTargets bus devfn b t) :
    f ∈ t.toList ∧ pciBus f.dev.bdf = bus ∧ f.dev.devfn = devfn := by
  induction t generalizing b m m' with
  | nil => cases hf
  | node g below rest ihb ihr =>
    have hcases := h.node_cases hnum
    rw [configTargets] at hf
    rcases List.mem_append.1 hf with hf | hf
    · by_cases hb : b = bus
      · rw [if_pos hb] at hf
        by_cases hdevfn : g.dev.devfn = devfn
        · rw [if_pos hdevfn] at hf
          obtain rfl := List.mem_singleton.1 hf
          exact ⟨List.mem_cons_self, h.1.1.trans hb, hdevfn⟩
        · rw [if_neg hdevfn] at hf
          cases hf
      · rw [if_neg hb] at hf
        split at hf
        · rename_i hforwards
          rcases hcases with ⟨hleaf, -⟩ | ⟨last, ⟨-, hnumber, -⟩, -, hbelow, hnumb, -⟩
          · exact absurd (forwardsBus_iff.1 hforwards).1 hleaf
          · rw [hnumber] at hf
            obtain ⟨hmem, haddress⟩ := ihb hbelow hnumb hf
            exact ⟨List.mem_cons_of_mem _ (List.mem_append_left _ hmem), haddress⟩
        · cases hf
    · obtain ⟨m₁, m₁', hnumr⟩ : ∃ m₁ m₁', rest.Numbered ConfiguredFunction.numbers m₁ m₁' := by
        rcases hcases with ⟨-, -, hnumr⟩ | ⟨last, -, -, -, -, hnumr⟩ <;> exact ⟨_, _, hnumr⟩
      obtain ⟨hmem, haddress⟩ := ihr h.2 hnumr hf
      exact ⟨List.mem_cons_of_mem _ (List.mem_append_right _ hmem), haddress⟩

/-- The functions of the bus itself stand on it. -/
theorem PlacedOn.mem_roots (h : PlacedOn b t) (hnum : t.Numbered ConfiguredFunction.numbers m m')
    (hb : b ≤ m) {f : ConfiguredFunction} (hf : f ∈ t.toList) (hbus : pciBus f.dev.bdf = b) :
    f ∈ t.roots := by
  induction t generalizing m m' with
  | nil => cases hf
  | node g below rest _ ihr =>
    rcases List.mem_cons.1 hf with rfl | hf
    · exact List.mem_cons_self
    · rcases h.node_cases hnum with ⟨-, rfl, hnumr⟩ | ⟨last, -, hle, hbelow, hnumb, hnumr⟩
      · exact List.mem_cons_of_mem _ (ihr h.2 hnumr hb hf)
      · rcases List.mem_append.1 hf with hf | hf
        · have := hbelow.bus_mem hnumb f hf
          omega
        · exact List.mem_cons_of_mem _ (ihr h.2 hnumr (by omega) hf)

/-- Of the functions of a bus one answers at its address. -/
theorem DistinctSlots.filter_eq {functions : List ConfiguredFunction} (h : DistinctSlots functions)
    {f : ConfiguredFunction} (hf : f ∈ functions) :
    (functions.filter fun g => g.dev.devfn = f.dev.devfn) = [f] := by
  refine Forest.filter_eq_singleton (h.imp fun {g g'} hne hsame => ?_) hf (decide_eq_true rfl)
  rw [decide_eq_true_eq, decide_eq_true_eq] at hsame
  have heq : g.dev.devfn = g'.dev.devfn := hsame.1.trans hsame.2.symm
  rw [heq] at hne
  exact hne.elim (fun hne => hne rfl) fun hne => hne rfl

/-- **A function is found at its address**, and alone. -/
theorem PlacedOn.configTargets_eq (h : PlacedOn b t)
    (hnum : t.Numbered ConfiguredFunction.numbers m m') (hb : b ≤ m)
    (hroots : DistinctSlots t.roots) (hslots : t.All fun _ below => DistinctSlots below.roots) :
    ∀ f ∈ t.toList, configTargets (pciBus f.dev.bdf) f.dev.devfn b t = [f] := by
  induction t generalizing b m m' with
  | nil =>
    intro f hf
    cases hf
  | node g below rest ihb ihr =>
    intro f hf
    -- on this bus the functions are asked, and on another one the bridges
    by_cases hself : pciBus f.dev.bdf = b
    · rw [hself, configTargets_self]
      exact hroots.filter_eq (h.mem_roots hnum hb hf hself)
    · have hne : b ≠ pciBus f.dev.bdf := fun heq => hself heq.symm
      have hfg : f ≠ g := fun heq => hself (heq ▸ h.1.1)
      have hbehind := (List.mem_cons.1 hf).resolve_left hfg
      have hrootsRest : DistinctSlots rest.roots := (List.pairwise_cons.1 hroots).2
      obtain ⟨hslotsBelow, hslotsBelow', hslotsRest⟩ := hslots
      rw [configTargets, if_neg hne]
      rcases h.node_cases hnum with ⟨hleaf, rfl, hnumr⟩ | ⟨last, hbridge, hle, hbelow, hnumb, hnumr⟩
      · have hnot : ¬ forwardsBus (pciBus f.dev.bdf) g = true := fun hforwards =>
          hleaf (forwardsBus_iff.1 hforwards).1
        rw [if_neg hnot, List.nil_append]
        exact ihr h.2 hnumr hb hrootsRest hslotsRest f hbehind
      · rcases List.mem_append.1 hbehind with hbehind | hbehind
        · have hmem := hbelow.bus_mem hnumb f hbehind
          have hforwards : forwardsBus (pciBus f.dev.bdf) g = true :=
            forwardsBus_iff.2 ⟨hbridge.1, by omega, by omega⟩
          rw [if_pos hforwards, hbridge.2.1, ihb hbelow hnumb le_rfl hslotsBelow hslotsBelow' f hbehind,
            h.2.configTargets_eq_nil hnumr hne (by omega), List.append_nil]
        · have hmem := h.2.bus_mem hnumr f hbehind
          have hnot : ¬ forwardsBus (pciBus f.dev.bdf) g = true := by
            intro hforwards
            have := (forwardsBus_iff.1 hforwards).2
            omega
          rw [if_neg hnot, List.nil_append]
          exact ihr h.2 hnumr (by omega) hrootsRest hslotsRest f hbehind

end Placed

/-! ## Behind a scan -/

/-- A scan leaves its buses so. -/
theorem Scan.placedOn {b last last' : ℕ} {bridges : List PciDevice} {pcie pcie' : PciController σ}
    {functions : Forest HwFunction} {configured : Forest ConfiguredFunction}
    (h : Scan b bridges pcie last functions configured pcie' last') (hb : b ≤ 255)
    (hmax : pcie'.busNumberLast ≤ 255)
    (haddress : ∀ hw ∈ functions.toList, hw.device < 32 ∧ hw.function < 8)
    (hnumbers : ∀ f ∈ configured.toList, ∀ bus, f.secondary = some bus →
      f.secondaryBus = bus.number ∧ f.subordinateBus = bus.lastSub) : PlacedOn b configured := by
  induction h with
  | nil => trivial
  | @leaf b bridges pcie last hw siblings rest pcie₁ dev pcie' last' hclass hsetup hrest ih =>
    obtain ⟨hdev, hfun⟩ := haddress hw List.mem_cons_self
    refine ⟨⟨?_, not_isBridge_leaf hsetup hclass, rfl⟩, ih hb hmax
      (fun hw hhw => haddress hw (List.mem_cons_of_mem _ hhw))
      fun f hf => hnumbers f (List.mem_cons_of_mem _ hf)⟩
    show pciBus dev.bdf = b
    rw [(setup_record hsetup).2.1, pciBus_pciBdf hb hdev hfun]
  | @bridge b bridges pcie last hw children siblings below rest pcie₁ dev pcie₂ lastSub pcie' last'
      hclass hsetup hbelow hrest ihb ihr =>
    obtain ⟨hdev, hfun⟩ := haddress hw List.mem_cons_self
    have hle := hbelow.busNumberLast_le
    rw [busNumberLast_configInit, busNumberLast_alignWindows] at hle
    have hle' := hrest.busNumberLast_le
    rw [busNumberLast_alignWindows] at hle'
    obtain ⟨hnumber, hlast⟩ := hnumbers _ List.mem_cons_self _ rfl
    refine ⟨⟨?_, isBridge_scanned hsetup hclass _ _ _ _ _ _, hnumber, hlast, ?_⟩, ?_⟩
    · have hscanned := (scannedBridge_rewritten pcie₁.nextBus pcie₂ pcie₁.nextBus.busNumberLast lastSub
        hw.link { dev with activated := true }).bdf
      show pciBus (scannedBridge _ _ _ _ _ _).bdf = b
      rw [hscanned]
      show pciBus dev.bdf = b
      rw [(setup_record hsetup).2.1, pciBus_pciBdf hb hdev hfun]
    · exact ihb (by omega) (by omega)
        (fun hw hhw => haddress hw (List.mem_cons_of_mem _ (List.mem_append_left _ hhw)))
        fun f hf => hnumbers f (List.mem_cons_of_mem _ (List.mem_append_left _ hf))
    · exact ihr hb hmax
        (fun hw hhw => haddress hw (List.mem_cons_of_mem _ (List.mem_append_right _ hhw)))
        fun f hf => hnumbers f (List.mem_cons_of_mem _ (List.mem_append_right _ hf))

section Machine

variable {functions : Forest HwFunction} {bus : PciBus} {configured : Forest ConfiguredFunction}
  {s s' : EnumState σ}

/-- What a bridge needs so that its bus is found: bus number registers, and a controller whose buses are
numbered from 0 on and are not too many. -/
structure Numberable (functions : Forest HwFunction) (pcie : PciController σ) : Prop where
  topology : Topology functions
  registers : ∀ hw ∈ functions.toList, hw.isBridge = true → BusNumberRegisters hw.cfg
  count : functions.toList.countP HwFunction.isBridge ≤ 255
  base : pcie.busNumberBase = 0
  last : pcie.busNumberLast = 0

/-- The functions that a scan goes through are so as well. -/
theorem Numberable.visible_scan (hn : Numberable functions s.pcie) :
    (pciautoConfigInit s.pcie).busNumberLast = 0 ∧ (pciautoConfigInit s.pcie).busNumberBase = 0 ∧
      (visible functions).toList.countP HwFunction.isBridge ≤ 255 ∧
      (∀ hw ∈ (visible functions).toList, hw.device < 32 ∧ hw.function < 8) ∧
      ∀ hw ∈ (visible functions).toList, hw.isBridge = true → BusNumberRegisters hw.cfg := by
  have hsub : (visible functions).toList.Sublist functions.toList := toList_visibleAmong _ _
  exact ⟨by rw [busNumberLast_configInit, hn.last], (busNumberBase_configInit _).trans hn.base,
    hsub.countP_le.trans hn.count, fun hw hhw => hn.topology.address hw (hsub.subset hhw),
    fun hw hhw => hn.registers hw (hsub.subset hhw)⟩

/-- What an enumeration leaves: the buses have their numbers, and what stands on them its addresses. -/
theorem Numberable.placed (hn : Numberable functions s.pcie)
    (h : enumerate functions s = .ok (bus, configured) s') :
    PlacedOn 0 configured ∧
      configured.Numbered ConfiguredFunction.numbers 0 s'.pcie.busNumberLast := by
  have hscan := scan_of_enumerate hn.topology h
  obtain ⟨hlast, hbase, hcount, haddress, hregisters⟩ := hn.visible_scan
  have hmax : s'.pcie.busNumberLast ≤ 255 := by
    rw [hscan.busNumberLast_eq, hlast, Nat.zero_add]
    exact hcount
  obtain ⟨hnumbered, -⟩ := hscan.numbered le_rfl hlast.ge
  rw [hlast] at hnumbered
  obtain ⟨-, hnumbers⟩ := hscan.routed le_rfl hlast.ge hbase hmax haddress hregisters
  exact ⟨hscan.placedOn (Nat.zero_le _) hmax haddress hnumbers, hnumbered⟩

end Machine

/-- The sample machine has the buses 0, 1 and 2. -/
theorem sampleMachine_numberable : Numberable sampleMachine sampleEnum.pcie where
  topology := sampleMachine_topology
  registers := by
    unfold BusNumberRegisters RegisterFile.Writable
    decide +kernel
  count := by decide +kernel
  base := rfl
  last := rfl

/-- Every function of the sample machine is found. -/
theorem sampleMachine_found : AllFound sampleMachine := by
  decide +kernel

end BcmPcie
