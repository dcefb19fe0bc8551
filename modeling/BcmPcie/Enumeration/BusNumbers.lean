import Mathlib.Order.Bounds.Basic
import Mathlib.Order.Interval.Set.Basic
import Mathlib.Data.Set.Lattice
import Mathlib.Order.CompletePartialOrder
import BcmPcie.Enumeration.Scan

/-! # Bus numbers

The numbers a scan gives to the buses behind bridges, and what the bus number registers of the bridges
hold at its end. A bus gets the next number of the controller when its bridge is reached, so the
numbers go depth first; the subordinate number of a bridge is only known when everything behind it has
been scanned, and comes back through the maxima that `pci_auto_config_devices` takes on the way out.

* `Scan.numbered` — the numbers of a scan are a depth-first numbering.
* `Scan.routed` — the registers of every bridge hold its numbers.
* `enumerate_busNumbers` — both, for the scan of the root bus. -/

namespace BcmPcie

variable {σ : Type}

namespace ConfiguredFunction

variable (f : ConfiguredFunction)

/-- The number of the bus behind a function, and the highest number behind it. -/
def numbers : Option (ℕ × ℕ) := f.secondary.map fun bus => (bus.number, bus.lastSub)

/-- The bus number registers of a bridge. -/
def primaryBus : ℕ := (pciReadConfig8 f.dev pciPrimaryBus).toNat
def secondaryBus : ℕ := (pciReadConfig8 f.dev pciSecondaryBus).toNat
def subordinateBus : ℕ := (pciReadConfig8 f.dev pciSubordinateBus).toNat

/-- The buses a bridge forwards configuration accesses to. -/
def forwarded : Set ℕ := Set.Icc f.secondaryBus f.subordinateBus

end ConfiguredFunction

/-- The numbers of the buses behind the bridges of a forest, in the order the scan reaches them. -/
def busNumbers (t : Forest ConfiguredFunction) : List ℕ := t.firsts ConfiguredFunction.numbers

/-- The registers of every bridge on bus `b` and behind it route configuration accesses: its primary
bus is the one it sits on, its secondary bus the one behind it, and its subordinate bus the greatest
number in its subtree. Behind other functions there is nothing. -/
def RoutedFrom : ℕ → Forest ConfiguredFunction → Prop
  | _, .nil => True
  | b, .node f below rest =>
    (match f.secondary with
    | none => ¬ f.IsBridge ∧ below = .nil
    | some bus => f.IsBridge ∧ f.primaryBus = b ∧ f.secondaryBus = bus.number ∧
        IsGreatest {n | n ∈ bus.number :: busNumbers below} f.subordinateBus ∧
        RoutedFrom bus.number below) ∧
      RoutedFrom b rest

/-- The bridges of one bus forward to different buses. -/
def BridgesApart (functions : List ConfiguredFunction) : Prop :=
  functions.Pairwise fun f g => f.IsBridge → g.IsBridge → Disjoint f.forwarded g.forwarded

/-! ## The numbers -/

/-- Aligning the regions gives out no bus number. -/
theorem busNumberLast_alignWindows (pcie : PciController σ) :
    pcie.alignWindows.busNumberLast = pcie.busNumberLast :=
  (onlyRegions_alignWindows pcie).busNumberLast

/-- **A scan numbers depth first.** The highest number behind a bus is the last one given out, if
there has been any. -/
theorem Scan.numbered {b last last' : ℕ} {bridges : List PciDevice} {pcie pcie' : PciController σ}
    {functions : Forest HwFunction} {configured : Forest ConfiguredFunction}
    (h : Scan b bridges pcie last functions configured pcie' last') (hb : b ≤ last)
    (hlast : last ≤ pcie.busNumberLast) :
    configured.Numbered ConfiguredFunction.numbers pcie.busNumberLast pcie'.busNumberLast ∧
      last' = if pcie'.busNumberLast = pcie.busNumberLast then last else pcie'.busNumberLast := by
  induction h with
  | nil => exact ⟨rfl, (if_pos rfl).symm⟩
  | leaf _ hsetup _ ih =>
    rw [busNumberLast_setup hsetup] at ih
    rw [Nat.max_eq_left hb] at ih
    obtain ⟨hrest, hlast'⟩ := ih hb hlast
    exact ⟨⟨rfl, hrest⟩, hlast'⟩
  | @bridge b bridges pcie last hw children siblings below rest pcie₁ dev pcie₂ lastSub pcie' last'
      _ hsetup hbelow hrest ihb ihr =>
    -- the bus behind the bridge is the last number so far, and is scanned with it as the highest
    have hn : pcie₁.nextBus.busNumberLast = pcie.busNumberLast + 1 := by
      rw [← busNumberLast_setup hsetup]
      rfl
    rw [busNumberLast_configInit, busNumberLast_alignWindows, hn] at ihb
    obtain ⟨hnumbered, hsub⟩ := ihb le_rfl le_rfl
    have hle : pcie.busNumberLast + 1 ≤ pcie₂.busNumberLast := hnumbered.le
    have hsub' : lastSub = pcie₂.busNumberLast := by
      rw [hsub]
      split <;> omega
    rw [busNumberLast_alignWindows, hsub', Nat.max_eq_right (by omega)] at ihr
    obtain ⟨hnumbered', hlast'⟩ := ihr (by omega) le_rfl
    have hle' := hnumbered'.le
    refine ⟨⟨hn, ?_, ?_⟩, ?_⟩
    · rw [hsub']
      exact hnumbered
    · rw [hsub']
      exact hnumbered'
    · rw [hlast', if_neg (show ¬ pcie'.busNumberLast = pcie.busNumberLast by omega)]
      split <;> omega

/-- A scan gives out as many numbers as it meets bridges. -/
theorem Scan.busNumberLast_eq {b last last' : ℕ} {bridges : List PciDevice}
    {pcie pcie' : PciController σ} {functions : Forest HwFunction}
    {configured : Forest ConfiguredFunction}
    (h : Scan b bridges pcie last functions configured pcie' last') :
    pcie'.busNumberLast = pcie.busNumberLast + functions.toList.countP HwFunction.isBridge := by
  induction h with
  | nil => rfl
  | leaf hclass hsetup _ ih =>
    rw [ih, busNumberLast_setup hsetup, Forest.toList_node, List.countP_cons, hclass]
    simp
  | bridge hclass hsetup _ _ ihb ihr =>
    rw [ihr, busNumberLast_alignWindows, ihb, busNumberLast_configInit, busNumberLast_alignWindows,
      Forest.toList_node, List.countP_cons, hclass, List.countP_append]
    have hn := busNumberLast_setup hsetup
    dsimp only [PciController.nextBus]
    rw [hn]
    simp only [if_true]
    omega

/-! ## The registers -/

/-- Setting up a function leaves the first bus number. -/
theorem busNumberBase_setup {pcie pcie₁ : PciController σ} {bridges : List PciDevice}
    {hw : HwFunction} {b : ℕ} {dev : PciDevice}
    (h : pciautoSetupDevice pcie bridges (hw.record b) pcie.ptr = (pcie₁, dev)) :
    pcie₁.busNumberBase = pcie.busNumberBase := by
  have hframe : OnlyRegions pcie (pciautoSetupDevice pcie bridges (hw.record b) pcie.ptr).1 :=
    (pciautoSetupDevice_frame pcie bridges (record_barsNum hw b) pcie.ptr).1
  rw [h] at hframe
  exact hframe.busNumberBase

/-- `pciauto_config_init` leaves the first bus number. -/
theorem busNumberBase_configInit (pcie : PciController σ) :
    (pciautoConfigInit pcie).busNumberBase = pcie.busNumberBase := by
  rw [pciautoConfigInit_eq]
  unfold PciController.updateRegion
  repeat' split
  all_goals rfl

/-- Aligning the regions leaves the first bus number. -/
theorem busNumberBase_alignWindows (pcie : PciController σ) :
    pcie.alignWindows.busNumberBase = pcie.busNumberBase :=
  (onlyRegions_alignWindows pcie).busNumberBase

/-- The base of the bus numbers stays what it is. -/
theorem Scan.busNumberBase_eq {b last last' : ℕ} {bridges : List PciDevice}
    {pcie pcie' : PciController σ} {functions : Forest HwFunction}
    {configured : Forest ConfiguredFunction}
    (h : Scan b bridges pcie last functions configured pcie' last') :
    pcie'.busNumberBase = pcie.busNumberBase := by
  induction h with
  | nil => rfl
  | leaf _ hsetup _ ih => rw [ih, busNumberBase_setup hsetup]
  | bridge _ hsetup _ _ ihb ihr =>
    rw [ihr, busNumberBase_alignWindows, ihb, busNumberBase_configInit, busNumberBase_alignWindows,
      ← busNumberBase_setup hsetup]
    rfl

/-- The bus number is read back from an address. -/
theorem pciBus_pciBdf {b device function : ℕ} (hb : b ≤ 255) (hdevice : device < 32)
    (hfunction : function < 8) : pciBus (pciBdf b device function) = b := by
  unfold pciBus pciBdf
  omega

/-- A bus number fits its register. -/
theorem toNat_ofNat_bus {n : ℕ} (hn : n ≤ 255) : (BitVec.ofNat 8 n).toNat = n :=
  BitVec.toNat_ofNat .. |>.trans (Nat.mod_eq_of_lt (by omega))

/-- **The registers hold the numbers.** -/
theorem Scan.routed {b last last' : ℕ} {bridges : List PciDevice} {pcie pcie' : PciController σ}
    {functions : Forest HwFunction} {configured : Forest ConfiguredFunction}
    (h : Scan b bridges pcie last functions configured pcie' last') (hb : b ≤ last)
    (hlast : last ≤ pcie.busNumberLast) (hbase : pcie.busNumberBase = 0)
    (hmax : pcie'.busNumberLast ≤ 255)
    (haddress : ∀ hw ∈ functions.toList, hw.device < 32 ∧ hw.function < 8)
    (hregisters : ∀ hw ∈ functions.toList, hw.isBridge = true → BusNumberRegisters hw.cfg) :
    RoutedFrom b configured ∧ ∀ f ∈ configured.toList, ∀ bus, f.secondary = some bus →
      f.secondaryBus = bus.number ∧ f.subordinateBus = bus.lastSub := by
  induction h with
  | nil => exact ⟨trivial, fun f hf => by cases hf⟩
  | @leaf b bridges pcie last hw siblings rest pcie₁ dev pcie' last' hclass hsetup hrest ih =>
    have hnot := not_isBridge_leaf hsetup hclass
    obtain ⟨hrouted, hall⟩ := ih (hb.trans (le_max_left _ _))
      (by rw [busNumberLast_setup hsetup, Nat.max_eq_left hb]; exact hlast)
      ((busNumberBase_setup hsetup).trans hbase) hmax
      (fun hw hhw => haddress hw (List.mem_cons_of_mem _ hhw))
      (fun hw hhw => hregisters hw (List.mem_cons_of_mem _ hhw))
    refine ⟨⟨⟨hnot, rfl⟩, hrouted⟩, fun f hf => ?_⟩
    rcases List.mem_cons.1 hf with rfl | hf
    · intro bus hbus
      cases hbus
    · exact hall f hf
  | @bridge b bridges pcie last hw children siblings below rest pcie₁ dev pcie₂ lastSub pcie' last'
      hclass hsetup hbelow hrest ihb ihr =>
    obtain ⟨-, hbdf, hdevice⟩ := setup_record hsetup
    have hlast₁ := busNumberLast_setup hsetup
    have hbase₁ : pcie₁.nextBus.busNumberBase = 0 := (busNumberBase_setup hsetup).trans hbase
    set n := pcie₁.nextBus.busNumberLast with hnDef
    have hn : n = pcie.busNumberLast + 1 := by
      rw [← hlast₁]
      rfl
    have hstart : (pciautoConfigInit pcie₁.nextBus.alignWindows).busNumberLast = n := by
      rw [busNumberLast_configInit, busNumberLast_alignWindows]
    have hstartBase : (pciautoConfigInit pcie₁.nextBus.alignWindows).busNumberBase = 0 := by
      rw [busNumberBase_configInit, busNumberBase_alignWindows, hbase₁]
    obtain ⟨hnumbered, hsub⟩ := hbelow.numbered le_rfl hstart.ge
    rw [hstart] at hnumbered hsub
    have hle : n ≤ pcie₂.busNumberLast := hnumbered.le
    have hsub' : lastSub = pcie₂.busNumberLast := by
      rw [hsub]
      split <;> omega
    have hle' : pcie₂.busNumberLast ≤ pcie'.busNumberLast := by
      have := hrest.busNumberLast_le
      rwa [busNumberLast_alignWindows] at this
    have hbase₂ : pcie₂.busNumberBase = 0 := hbelow.busNumberBase_eq.trans hstartBase
    obtain ⟨hroutedBelow, hallBelow⟩ := ihb le_rfl hstart.ge hstartBase (hle'.trans hmax)
      (fun hw hhw => haddress hw (List.mem_cons_of_mem _ (List.mem_append_left _ hhw)))
      (fun hw hhw => hregisters hw (List.mem_cons_of_mem _ (List.mem_append_left _ hhw)))
    obtain ⟨hroutedRest, hallRest⟩ := ihr (by omega)
      (by rw [busNumberLast_alignWindows]; omega)
      ((busNumberBase_alignWindows _).trans hbase₂) hmax
      (fun hw hhw => haddress hw (List.mem_cons_of_mem _ (List.mem_append_right _ hhw)))
      (fun hw hhw => hregisters hw (List.mem_cons_of_mem _ (List.mem_append_right _ hhw)))
    -- the bridge's own registers
    set dev' : PciDevice := { dev with activated := true } with hdev'
    set f : ConfiguredFunction :=
      ⟨scannedBridge pcie₁.nextBus pcie₂ n lastSub hw.link dev', some ⟨n, lastSub⟩⟩ with hf
    have hconf : BusNumberRegisters dev'.cfg :=
      (hregisters hw List.mem_cons_self hclass).of_sameDevice hdevice
    obtain ⟨hprimary, hsecondary, hsubordinate⟩ :=
      @scanned_busNumbers _ pcie₁.nextBus pcie₂ n lastSub hw.link dev' hconf
    obtain ⟨hdev, hfun⟩ := haddress hw List.mem_cons_self
    have hprimary' : f.primaryBus = b := by
      have hbus : pciBus dev'.bdf = b := by
        show pciBus dev.bdf = b
        rw [hbdf, pciBus_pciBdf (by omega) hdev hfun]
      show (pciReadConfig8 f.dev pciPrimaryBus).toNat = b
      rw [hprimary, hbus, hbase₁, Nat.sub_zero, toNat_ofNat_bus (by omega)]
    have hsecondary' : f.secondaryBus = n := by
      show (pciReadConfig8 f.dev pciSecondaryBus).toNat = n
      rw [hsecondary, hbase₁, Nat.sub_zero, toNat_ofNat_bus (by omega)]
    have hsubordinate' : f.subordinateBus = lastSub := by
      show (pciReadConfig8 f.dev pciSubordinateBus).toNat = lastSub
      rw [hsubordinate, hbase₂, Nat.sub_zero, toNat_ofNat_bus (by omega)]
    have hbridge : f.IsBridge := isBridge_scanned hsetup hclass _ _ _ _ _ _
    have hgreatest : IsGreatest {m | m ∈ n :: busNumbers below} f.subordinateBus := by
      rw [hsubordinate', hsub']
      exact ⟨hnumbered.last_mem, fun m hm => hnumbered.le_last hm⟩
    refine ⟨⟨⟨hbridge, hprimary', hsecondary', hgreatest, hroutedBelow⟩, hroutedRest⟩, fun g hg => ?_⟩
    rcases List.mem_cons.1 hg with rfl | hg
    · intro bus hbus
      obtain rfl := Option.some.inj hbus
      exact ⟨hsecondary', hsubordinate'⟩
    · rcases List.mem_append.1 hg with hg | hg
      · exact hallBelow g hg
      · exact hallRest g hg

/-! ## The scan of the root bus -/

/-- What holds of the functions of every bus holds of all functions. -/
theorem forall_roots {P : HwFunction → Prop} {t : Forest HwFunction} (hroots : ∀ f ∈ t.roots, P f)
    (hbelow : t.All fun _ children => ∀ f ∈ children.roots, P f) : ∀ f ∈ t.toList, P f := by
  induction t with
  | nil =>
    intro f hf
    cases hf
  | node a children siblings ihc ihs =>
    intro f hf
    rcases List.mem_cons.1 hf with rfl | hf
    · exact hroots f List.mem_cons_self
    · rcases List.mem_append.1 hf with hf | hf
      · exact ihc hbelow.1 hbelow.2.1 f hf
      · exact ihs (fun g hg => hroots g (List.mem_cons_of_mem _ hg)) hbelow.2.2 f hf

/-- Every function has a device and a function number of a bus. -/
theorem Topology.address {functions : Forest HwFunction} (h : Topology functions) :
    ∀ hw ∈ functions.toList, hw.device < 32 ∧ hw.function < 8 :=
  forall_roots (fun f hf => ⟨h.root.device_lt f hf, h.root.function_lt f hf⟩)
    (h.below.imp fun _ _ hbus f hf => ⟨hbus.device_lt f hf, hbus.function_lt f hf⟩)

/-- **Bus numbering.** A scan of the root bus that succeeds leaves the tree of the functions that are
found, with a bus behind every bridge. The buses have the numbers `0, 1, …, n` in the order the scan
reaches them, the registers of every bridge hold the numbers of the bus it sits on, of the bus behind it
and of the last bus behind it, what a bridge forwards contains what the bridges behind it forward, and
the bridges of one bus forward to different buses. -/
theorem enumerate_busNumbers {functions : Forest HwFunction} {bus : PciBus}
    {configured : Forest ConfiguredFunction} {s s' : EnumState σ} (htopology : Topology functions)
    (hregisters : ∀ hw ∈ functions.toList, hw.isBridge = true → BusNumberRegisters hw.cfg)
    (hcount : functions.toList.countP HwFunction.isBridge ≤ 255)
    (hbase : s.pcie.busNumberBase = 0) (hlast : s.pcie.busNumberLast = 0)
    (h : enumerate functions s = .ok (bus, configured) s') :
    (visible functions).Matches Configures configured ∧
      0 :: busNumbers configured = List.range ((busNumbers configured).length + 1) ∧
      IsGreatest {n | n ∈ 0 :: busNumbers configured} bus.busNumberLastSub ∧
      RoutedFrom 0 configured ∧
      (configured.All fun f below => ∀ g ∈ below.toList, f.IsBridge → g.IsBridge →
        g.forwarded ⊆ f.forwarded) ∧
      BridgesApart configured.roots ∧ configured.All fun _ below => BridgesApart below.roots := by
  have hscan := scan_of_enumerate htopology h
  have hstart : (pciautoConfigInit s.pcie).busNumberLast = 0 := by
    rw [busNumberLast_configInit, hlast]
  have hsub : (visible functions).toList.Sublist functions.toList := toList_visibleAmong _ _
  have hmax : s'.pcie.busNumberLast ≤ 255 := by
    rw [hscan.busNumberLast_eq, hstart, Nat.zero_add]
    exact (hsub.countP_le).trans hcount
  obtain ⟨hnumbered, hsubordinate⟩ := hscan.numbered le_rfl hstart.ge
  obtain ⟨hrouted, hall⟩ := hscan.routed le_rfl hstart.ge ((busNumberBase_configInit _).trans hbase)
    hmax (fun hw hhw => htopology.address hw (hsub.subset hhw))
    (fun hw hhw => hregisters hw (hsub.subset hhw))
  rw [hstart] at hnumbered hsubordinate
  have hlastSub : bus.busNumberLastSub = s'.pcie.busNumberLast := by
    rw [hsubordinate]
    split <;> omega
  -- the registers of a bridge, by its numbers
  have hnumbers {f : ConfiguredFunction} (hf : f ∈ configured.toList) (hbridge : f.IsBridge) :
      ∃ first last, f.numbers = some (first, last) ∧ f.forwarded = Set.Icc first last := by
    obtain ⟨bus, hbus⟩ := Option.isSome_iff_exists.1 ((hscan.isBridge_iff f hf).1 hbridge)
    obtain ⟨hsecondary, hsubordinate⟩ := hall f hf bus hbus
    refine ⟨bus.number, bus.lastSub, ?_, ?_⟩
    · rw [ConfiguredFunction.numbers, hbus, Option.map_some]
    · rw [ConfiguredFunction.forwarded, hsecondary, hsubordinate]
  have hapart {t : Forest ConfiguredFunction} {m m' : ℕ}
      (ht : t.Numbered ConfiguredFunction.numbers m m') (hmem : ∀ f ∈ t.toList, f ∈ configured.toList) :
      BridgesApart t.roots := by
    refine ht.apart.imp_of_mem fun {f g} hf hg hlt hbridge hbridge' => ?_
    obtain ⟨first, last, hnum, hforward⟩ :=
      hnumbers (hmem f (Forest.mem_toList_of_mem_roots hf)) hbridge
    obtain ⟨first', last', hnum', hforward'⟩ :=
      hnumbers (hmem g (Forest.mem_toList_of_mem_roots hg)) hbridge'
    have hbetween := hlt _ _ _ _ hnum hnum'
    rw [hforward, hforward', Set.disjoint_left]
    rintro n ⟨-, hn⟩ ⟨hn', -⟩
    omega
  have hbelow := hnumbered.nested.and (Forest.all_subset configured)
  refine ⟨hscan.configures, ?_, ?_, hrouted, ?_, hapart hnumbered fun _ hf => hf, ?_⟩
  · unfold busNumbers
    rw [hnumbered.firsts, List.length_range', Nat.sub_zero, List.range_eq_range', List.range'_succ]
  · rw [hlastSub]
    exact ⟨hnumbered.last_mem, fun n hn => hnumbered.le_last hn⟩
  · refine hbelow.imp fun f below hf g hg hbridge hbridge' => ?_
    obtain ⟨⟨-, hnested⟩, hfmem, hmem⟩ := hf
    obtain ⟨first, last, hnum, hforward⟩ := hnumbers hfmem hbridge
    obtain ⟨first', last', hnum', hforward'⟩ := hnumbers (hmem g hg) hbridge'
    have hbounds := (hnested first last hnum).bounds g hg first' last' hnum'
    rw [hforward, hforward']
    exact Set.Icc_subset_Icc (by omega) hbounds.2.2
  · refine hbelow.imp fun f below hf => ?_
    obtain ⟨⟨hnone, hnested⟩, -, hmem⟩ := hf
    rcases hnum : f.numbers with _ | ⟨first, last⟩
    · rw [hnone hnum]
      exact List.Pairwise.nil
    · exact hapart (hnested first last hnum) hmem

/-- The sample machine has the buses 0, 1 and 2. -/
theorem enumerate_busNumbers_sample : ∃ bus configured s',
    enumerate sampleMachine sampleEnum = .ok (bus, configured) s' ∧
      (visible sampleMachine).Matches Configures configured ∧
      0 :: busNumbers configured = List.range ((busNumbers configured).length + 1) ∧
      IsGreatest {n | n ∈ 0 :: busNumbers configured} bus.busNumberLastSub ∧
      RoutedFrom 0 configured ∧
      (configured.All fun f below => ∀ g ∈ below.toList, f.IsBridge → g.IsBridge →
        g.forwarded ⊆ f.forwarded) ∧
      BridgesApart configured.roots ∧ configured.All fun _ below => BridgesApart below.roots := by
  obtain ⟨bus, configured, s', hok⟩ := sampleMachine_ok
  have hregisters : ∀ hw ∈ sampleMachine.toList, hw.isBridge = true →
      BusNumberRegisters hw.cfg := by
    unfold BusNumberRegisters RegisterFile.Writable
    decide +kernel
  exact ⟨bus, configured, s', hok, enumerate_busNumbers sampleMachine_topology hregisters
    (by decide +kernel) rfl rfl hok⟩

end BcmPcie
