import BcmPcie.Enumeration.Scan
import BcmPcie.Library.LinkedLists
import BcmPcie.Lifecycle.HwInit

/-! # The list of boards

`pcie_build_dev_list` of `pcie_main.c`, with the links it sets: a record for each function of each bus,
from the lowest bus number on, and each record linked to the one before it.

* `Board` — a record of the list; `boardsOf` — the records of some buses in their order.
* `pcieBuildDevListAt` — the function; `built_pcieBuildDevListAt` — the list it leaves.
* `DevListExact` — a record for each function of a tree, in the order of the buses. -/

namespace BcmPcie

open LinkedLists Computations

/-! ## Records -/

/-- `struct pci_dev`, with what the calls on boards read behind it. -/
structure Board extends PciDev where
  /-- `bus_number` of the bus of `reserved`. -/
  busNumber : ℕ
  romAddress : BitVec 32 := 0
  romSize : BitVec 32 := 0
  legacyIo : BitVec 32 := 0
  /-- The task that has claimed the board, `NULL` if none has. -/
  owner : BitVec 32 := 0

/-- The record of a function on the bus with this number. -/
def Board.of (busNumber : ℕ) (idev : PciDevice) : Board := { pcieMakePdev idev with busNumber := busNumber }

/-- The records of the functions of a bus. -/
def PciBus.boards (bus : PciBus) : List Board := bus.devices.map (Board.of bus.busNumber)

/-- The buses that a search by number finds, from number 0 to the highest. -/
def busesByNumber (buses : List PciBus) : List PciBus :=
  (List.range (pciGetBusMax buses + 1).toNat).filterMap (pciGetBus buses)

/-- The records of all buses. -/
def boardsOf (buses : List PciBus) : List Board := (busesByNumber buses).flatMap PciBus.boards

/-! ## The function -/

/-- What `pcie_build_dev_list` works on. -/
structure DevListState (Addr : Type) where
  heap : Heap Addr Board
  devListHead : Option Addr := none
  /-- The local `prev`. -/
  prev : Option Addr := none
  /-- The calls of `AllocMem` so far. -/
  requests : ℕ := 0

/-- A step of the startup code. -/
abbrev DevListM (Addr : Type) : Type → Type := EStateM Errno (DevListState Addr)

variable {Addr : Type}

section Code

variable [DecidableEq Addr]

/-- `pcie_make_pdev`; `alloc` gives the address of each block, or none. -/
def pcieMakePdevAt (alloc : ℕ → Option Addr) (busNumber : ℕ) (idev : PciDevice) :
    DevListM Addr Addr := do
  let s ← get
  set { s with requests := s.requests + 1 }
  match alloc s.requests with
  | none => throw .enomem
  | some a =>
    modify fun s =>
      { s with heap := Function.update s.heap a (some ⟨Board.of busNumber idev, none, none⟩) }
    pure a

/-- The record at `pdev` becomes the last of the list. -/
def linkPdev (pdev : Addr) (s : DevListState Addr) : DevListState Addr :=
  let s :=
    match s.prev with
    | none => { s with devListHead := some pdev, heap := setPred s.heap pdev none }
    | some prev => { s with heap := setPred (setNext s.heap prev (some pdev)) pdev (some prev) }
  { s with heap := setNext s.heap pdev none, prev := some pdev }

/-- The body of the inner loop. -/
def addPdevAt (alloc : ℕ → Option Addr) (busNumber : ℕ) (idev : PciDevice) : DevListM Addr Unit := do
  let pdev ← pcieMakePdevAt alloc busNumber idev
  modify (linkPdev pdev)

/-- `pcie_build_dev_list`. -/
def pcieBuildDevListAt (alloc : ℕ → Option Addr) (buses : List PciBus) : DevListM Addr Unit :=
  (List.range (pciGetBusMax buses + 1).toNat).forM fun busIndex =>
    match pciGetBus buses busIndex with
    | none => pure ()
    | some bus => bus.devices.forM (addPdevAt alloc bus.busNumber)

end Code

/-! ## What it leaves -/

/-- No two calls of `AllocMem` give the same block, as long as none is freed. -/
def FreshBlocks (alloc : ℕ → Option Addr) : Prop :=
  ∀ j k a, alloc j = some a → alloc k = some a → j = k

/-- The list so far. -/
structure Built (alloc : ℕ → Option Addr) (s : DevListState Addr) (nodes : List (Addr × Board)) :
    Prop where
  linked : Linked s.heap nodes
  head : s.devListHead = address nodes 0
  prev : s.prev = before nodes nodes.length
  taken : ∀ x ∈ nodes, ∃ k < s.requests, alloc k = some x.1

/-- With memory for them, the computation adds these records to the end of a list. -/
def Adds (alloc : ℕ → Option Addr) (x : DevListM Addr Unit) (boards : List Board) : Prop :=
  ∀ s nodes, Built alloc s nodes →
    (∀ k < boards.length, (alloc (s.requests + k)).isSome) →
    ∃ s' new, x s = .ok () s' ∧ Built alloc s' (nodes ++ new) ∧ new.map Prod.snd = boards ∧
      s'.requests = s.requests + boards.length

section Built

variable {alloc : ℕ → Option Addr}

/-- Doing nothing adds no board. -/
theorem adds_pure : Adds alloc (pure ()) [] := by
  intro s nodes hbuilt _
  refine ⟨s, [], rfl, ?_, rfl, rfl⟩
  rw [List.append_nil]
  exact hbuilt

/-- Two steps one after the other add the boards of both. -/
theorem Adds.bind {x : DevListM Addr Unit} {y : Unit → DevListM Addr Unit} {bs bs' : List Board}
    (hx : Adds alloc x bs) (hy : Adds alloc (y ()) bs') : Adds alloc (x >>= y) (bs ++ bs') := by
  intro s nodes hbuilt hmem
  rw [List.length_append] at hmem
  obtain ⟨s₁, new, h₁, hbuilt₁, rfl, hreq₁⟩ := hx s nodes hbuilt fun k hk => hmem k (by omega)
  obtain ⟨s₂, new', h₂, hbuilt₂, rfl, hreq₂⟩ := hy s₁ _ hbuilt₁ fun k hk => by
    rw [hreq₁, Nat.add_assoc]
    exact hmem _ (by omega)
  refine ⟨s₂, new ++ new', (bind_of_ok h₁).trans h₂, ?_, List.map_append, ?_⟩
  · rw [← List.append_assoc]
    exact hbuilt₂
  · rw [hreq₂, hreq₁, List.length_append, Nat.add_assoc]

variable [DecidableEq Addr]

/-- The block that is linked, in memory and with its links. -/
theorem addPdevAt_of_some {s : DevListState Addr} {a : Addr} (h : alloc s.requests = some a)
    (hprev : s.prev ≠ some a) (busNumber : ℕ) (idev : PciDevice) :
    addPdevAt alloc busNumber idev s = .ok ()
      { heap := append s.heap s.prev a (Board.of busNumber idev)
        devListHead := s.prev.elim (some a) fun _ => s.devListHead
        prev := some a
        requests := s.requests + 1 } := by
  have hmake : pcieMakePdevAt alloc busNumber idev s = .ok a
      { s with
        requests := s.requests + 1
        heap := Function.update s.heap a (some ⟨Board.of busNumber idev, none, none⟩) } := by
    show (match alloc s.requests with
      | none => throw .enomem
      | some a => do
        modify fun s =>
          { s with heap := Function.update s.heap a (some ⟨Board.of busNumber idev, none, none⟩) }
        pure a : DevListM Addr Addr) { s with requests := s.requests + 1 } = _
    rw [h]
    rfl
  unfold addPdevAt
  rw [bind_of_ok hmake]
  show EStateM.Result.ok () (linkPdev a _) = _
  unfold linkPdev
  -- the first record is the head of the list, a later one is linked behind `prev`
  cases hs : s.prev with
  | none =>
    dsimp only
    rw [first_eq_append]
    rfl
  | some prev =>
    have hne : prev ≠ a := by
      rintro rfl
      exact hprev hs
    dsimp only
    rw [splice_eq_append _ hne]
    rfl

/-- A record that is linked behind the last one. -/
theorem adds_addPdevAt (hfresh : FreshBlocks alloc) (busNumber : ℕ) (idev : PciDevice) :
    Adds alloc (addPdevAt alloc busNumber idev) [Board.of busNumber idev] := by
  intro s nodes hbuilt hmem
  obtain ⟨a, hblock⟩ := Option.isSome_iff_exists.1 (hmem 0 (Nat.succ_pos _))
  -- a block that is handed out now is none of those before
  have hnew : a ∉ nodes.map Prod.fst := by
    rintro hmem
    obtain ⟨x, hx, rfl⟩ := List.mem_map.1 hmem
    obtain ⟨k, hk, hblock'⟩ := hbuilt.taken x hx
    exact absurd (hfresh _ _ _ hblock' hblock) (Nat.ne_of_lt hk)
  have hprev : s.prev ≠ some a := by
    rw [hbuilt.prev]
    exact fun h => hnew (mem_of_before h)
  refine ⟨_, [(a, Board.of busNumber idev)], addPdevAt_of_some hblock hprev busNumber idev,
    ⟨?_, ?_, ?_, ?_⟩, rfl, rfl⟩
  · rw [hbuilt.prev]
    exact hbuilt.linked.append hnew _
  · show s.prev.elim (some a) (fun _ => s.devListHead) = _
    rw [hbuilt.prev, hbuilt.head]
    cases nodes with
    | nil => rfl
    | cons x nodes =>
      obtain ⟨l, hl⟩ : ∃ l, address (x :: nodes) nodes.length = some l :=
        address_of_lt (Nat.lt_succ_self nodes.length)
      show (address (x :: nodes) nodes.length).elim _ _ = _
      rw [hl, address_concat_of_lt _ (Nat.succ_pos _)]
      rfl
  · rw [List.length_append, List.length_singleton]
    exact (address_concat_length nodes a _).symm
  · intro x hx
    rcases List.mem_append.1 hx with hx | hx
    · obtain ⟨k, hk, hblock'⟩ := hbuilt.taken x hx
      exact ⟨k, Nat.lt_succ_of_lt hk, hblock'⟩
    · rw [List.mem_singleton.1 hx]
      exact ⟨s.requests, Nat.lt_succ_self _, hblock⟩

/-- The loop over the devices of a bus adds a board for each, in their order. -/
theorem adds_forM_addPdevAt (hfresh : FreshBlocks alloc) (busNumber : ℕ) (devices : List PciDevice) :
    Adds alloc (devices.forM (addPdevAt alloc busNumber)) (devices.map (Board.of busNumber)) := by
  induction devices with
  | nil => exact adds_pure
  | cons idev devices ih =>
    show Adds alloc (addPdevAt alloc busNumber idev >>= fun _ => devices.forM _) _
    exact (adds_addPdevAt hfresh busNumber idev).bind ih

/-- The outer loop, over any numbers. -/
theorem adds_forM_bus (hfresh : FreshBlocks alloc) (buses : List PciBus) (numbers : List ℕ) :
    Adds alloc
      (numbers.forM fun busIndex =>
        match pciGetBus buses busIndex with
        | none => pure ()
        | some bus => bus.devices.forM (addPdevAt alloc bus.busNumber))
      ((numbers.filterMap (pciGetBus buses)).flatMap PciBus.boards) := by
  induction numbers with
  | nil => exact adds_pure
  | cons n numbers ih =>
    show Adds alloc ((match pciGetBus buses n with
        | none => pure ()
        | some bus => bus.devices.forM (addPdevAt alloc bus.busNumber)) >>= fun _ => numbers.forM _) _
    cases hbus : pciGetBus buses n with
    | none =>
      rw [List.filterMap_cons_none hbus]
      exact adds_pure.bind ih
    | some bus =>
      rw [List.filterMap_cons_some hbus, List.flatMap_cons]
      exact (adds_forM_addPdevAt hfresh bus.busNumber bus.devices).bind ih

/-- **The list that is built** has the records of all buses. -/
theorem built_pcieBuildDevListAt (hfresh : FreshBlocks alloc) {buses : List PciBus}
    (hmem : ∀ k < (boardsOf buses).length, (alloc k).isSome) (heap : Heap Addr Board) :
    ∃ s' nodes, pcieBuildDevListAt alloc buses { heap := heap } = .ok () s' ∧ Built alloc s' nodes ∧
      nodes.map Prod.snd = boardsOf buses := by
  have hempty : Built alloc { heap := heap } [] :=
    ⟨⟨List.nodup_nil, fun _ _ _ hi => by cases hi⟩, rfl, rfl, fun _ hx => absurd hx List.not_mem_nil⟩
  obtain ⟨s', nodes, hrun, hbuilt, hnodes, -⟩ := adds_forM_bus hfresh buses
    (List.range (pciGetBusMax buses + 1).toNat) _ [] hempty fun k hk => by
      rw [Nat.zero_add]
      exact hmem k hk
  exact ⟨s', nodes, hrun, hbuilt, hnodes⟩

end Built

/-! ## The buses by their numbers -/

section Buses

variable {buses : List PciBus}

/-- The loop of `pci_get_bus_max` ends with a number that no bus exceeds. -/
theorem foldl_busMax (buses : List PciBus) (ret : ℤ) (hret : -1 ≤ ret) :
    let max := buses.foldl
      (fun ret bus => if ret < 0 ∨ ret < bus.busNumber then (bus.busNumber : ℤ) else ret) ret
    ret ≤ max ∧ ∀ bus ∈ buses, (bus.busNumber : ℤ) ≤ max := by
  induction buses generalizing ret with
  | nil => exact ⟨le_rfl, fun bus hbus => absurd hbus List.not_mem_nil⟩
  | cons bus buses ih =>
    obtain ⟨hle, hall⟩ := ih (if ret < 0 ∨ ret < bus.busNumber then (bus.busNumber : ℤ) else ret)
      (by split <;> omega)
    have hfirst : ret ≤ (if ret < 0 ∨ ret < bus.busNumber then (bus.busNumber : ℤ) else ret) ∧
        (bus.busNumber : ℤ) ≤ (if ret < 0 ∨ ret < bus.busNumber then (bus.busNumber : ℤ) else ret) := by
      split <;> omega
    refine ⟨hfirst.1.trans hle, fun bus' hbus' => ?_⟩
    rcases List.mem_cons.1 hbus' with rfl | hbus'
    · exact hfirst.2.trans hle
    · exact hall bus' hbus'

/-- No bus number exceeds what `pci_get_bus_max` returns. -/
theorem le_pciGetBusMax {bus : PciBus} (h : bus ∈ buses) :
    (bus.busNumber : ℤ) ≤ pciGetBusMax buses := (foldl_busMax buses (-1) le_rfl).2 bus h

/-- The bus found is one of the buses, of the number asked for. -/
theorem pciGetBus_some {n : ℕ} {bus : PciBus} (h : pciGetBus buses n = some bus) :
    bus ∈ buses ∧ bus.busNumber = n := by
  have hnumber := List.find?_some h
  exact ⟨List.mem_of_find?_eq_some h, of_decide_eq_true hnumber⟩

/-- The buses stand in the order of their numbers. -/
theorem pairwise_busesByNumber (buses : List PciBus) :
    (busesByNumber buses).Pairwise fun bus bus' => bus.busNumber < bus'.busNumber := by
  unfold busesByNumber
  rw [List.pairwise_filterMap]
  refine List.pairwise_lt_range.imp fun hlt bus hbus bus' hbus' => ?_
  rw [(pciGetBus_some hbus).2, (pciGetBus_some hbus').2]
  exact hlt

variable (hdistinct : (buses.map PciBus.busNumber).Nodup)

include hdistinct

/-- A bus is found under its number. -/
theorem pciGetBus_self {bus : PciBus} (h : bus ∈ buses) : pciGetBus buses bus.busNumber = some bus := by
  cases hfound : pciGetBus buses bus.busNumber with
  | none => exact absurd (decide_eq_true rfl) (List.find?_eq_none.1 hfound bus h)
  | some bus' =>
    obtain ⟨hmem, hnumber⟩ := pciGetBus_some hfound
    rw [List.inj_on_of_nodup_map hdistinct hmem h hnumber]

/-- **Every bus is found once**, whatever numbers are missing. -/
theorem perm_busesByNumber : (busesByNumber buses).Perm buses := by
  refine (List.perm_ext_iff_of_nodup ?_ (List.Nodup.of_map _ hdistinct)).2 fun bus => ?_
  · exact (pairwise_busesByNumber buses).imp fun hlt heq => by
      rw [heq] at hlt
      exact lt_irrefl _ hlt
  · unfold busesByNumber
    rw [List.mem_filterMap]
    constructor
    · rintro ⟨n, -, hbus⟩
      exact (pciGetBus_some hbus).1
    · intro hbus
      have hmax := le_pciGetBusMax hbus
      exact ⟨bus.busNumber, List.mem_range.2 (by omega), pciGetBus_self hdistinct hbus⟩

end Buses

/-! ## The records of a tree -/

/-- The loop over the BARs changes nothing but what it is for. -/
theorem pdevBars_eq (idev : PciDevice) (rounds i : ℕ) (pdev : PciDev) :
    ∃ address size, pdevBars idev rounds i pdev
      = { pdev with baseAddress := address, baseSize := size } := by
  induction rounds generalizing i pdev with
  | zero => exact ⟨_, _, rfl⟩
  | succ rounds ih =>
    rw [pdevBars]
    split
    · exact ⟨_, _, rfl⟩
    · split
      · exact ih _ _
      · obtain ⟨address, size, heq⟩ := ih (i + if (idev.bars i).is64 then 2 else 1)
          { pdev with
            baseSize := Function.update pdev.baseSize i (idev.bars i).barResponse
            baseAddress := Function.update pdev.baseAddress i ((idev.bars i).virtAddr.getD 0) }
        exact ⟨address, size, heq⟩

/-- A record says what its function is. -/
structure Describes (board : Board) (idev : PciDevice) : Prop where
  reserved : board.reserved = idev
  vendor : board.vendor = idev.vendor
  device : board.device = idev.device
  devclass : board.devclass = idev.classCode
  devfn : board.devfn.toNat = pciDev idev.devfn * 8 + pciFunc idev.devfn

/-- The board made of a device describes it. -/
theorem describes_of (busNumber : ℕ) (idev : PciDevice) : Describes (Board.of busNumber idev) idev := by
  have hfunc : pciFunc idev.devfn < 8 := Nat.mod_lt _ (by decide)
  have hdev : pciDev idev.devfn < 32 := Nat.mod_lt _ (by decide)
  have hdevfn : (BitVec.ofNat 8 (pciDev idev.devfn <<< 3 ||| pciFunc idev.devfn)).toNat
      = pciDev idev.devfn * 8 + pciFunc idev.devfn := by
    rw [← Nat.shiftLeft_add_eq_or_of_lt hfunc, Nat.shiftLeft_eq, BitVec.toNat_ofNat,
      Nat.mod_eq_of_lt (by omega)]
  unfold Board.of pcieMakePdev
  obtain ⟨address, size, heq⟩ := pdevBars_eq idev idev.barsNum 0
    { devfn := BitVec.ofNat 8 (pciDev idev.devfn <<< 3 ||| pciFunc idev.devfn)
      vendor := idev.vendor
      device := idev.device
      devclass := idev.classCode
      irq := idev.intx.pinRouted.setWidth 32
      reserved := idev }
  rw [heq]
  exact ⟨rfl, rfl, rfl, rfl, hdevfn⟩

/-- The functions on a bus stand at different addresses. -/
def DistinctSlots (functions : List ConfiguredFunction) : Prop :=
  functions.Pairwise fun f g =>
    pciDev f.dev.devfn ≠ pciDev g.dev.devfn ∨ pciFunc f.dev.devfn ≠ pciFunc g.dev.devfn

/-- What an enumeration makes sure of: on every bus the functions stand at different addresses, and
only behind a bridge there are more. -/
structure Enumerated (functions : Forest ConfiguredFunction) : Prop where
  root : DistinctSlots functions.roots
  below : functions.All fun f below =>
    DistinctSlots below.roots ∧ (f.secondary = none → below = .nil)

/-- The buses of a tree have the functions of the tree, each once. -/
theorem perm_busesBehind (bridges : List PciDevice) {functions : Forest ConfiguredFunction}
    (h : functions.All fun f below => f.secondary = none → below = .nil) :
    (functions.roots.map ConfiguredFunction.dev
        ++ (busesBehind bridges functions).flatMap PciBus.devices).Perm
      (functions.toList.map ConfiguredFunction.dev) := by
  induction functions generalizing bridges with
  | nil => exact List.Perm.refl _
  | node f below rest ihc ihs =>
    obtain ⟨hleaf, hbelow, hrest⟩ := h
    rw [Forest.roots_node, Forest.toList_node, List.map_cons, List.map_cons, List.map_append,
      List.cons_append]
    refine List.Perm.cons f.dev ?_
    cases hsecondary : f.secondary with
    | none =>
      rw [busesBehind, hsecondary, hleaf hsecondary]
      exact ihs bridges hrest
    | some bus =>
      rw [busesBehind, hsecondary]
      dsimp only
      rw [List.flatMap_cons, List.flatMap_append, ← List.append_assoc (below.roots.map _)]
      exact (List.perm_append_comm_assoc _ _ _).trans
        ((ihc (f.dev :: bridges) hbelow).append (ihs bridges hrest))

/-- The list has a record for each function of the tree, says what it is, and goes from the lowest bus
number on, over the functions of a bus in the order in which they were found. -/
structure DevListExact (root : PciBus) (functions : Forest ConfiguredFunction)
    (boards : List Board) : Prop where
  all : (boards.map fun board => board.reserved).Perm (functions.toList.map ConfiguredFunction.dev)
  describes : ∀ board ∈ boards, Describes board board.reserved
  byBus : boards.Pairwise fun board board' => board.busNumber ≤ board'.busNumber
  onBus : ∀ bus ∈ ctrlBuses root functions,
    (boards.filter fun board => board.busNumber = bus.busNumber).map (fun board => board.reserved)
      = bus.devices

/-- The board made of a device refers to it. -/
theorem reserved_of (busNumber : ℕ) (idev : PciDevice) : (Board.of busNumber idev).reserved = idev :=
  (describes_of busNumber idev).reserved

/-- The boards of a bus refer to its devices, in their order. -/
theorem map_reserved_boards (bus : PciBus) :
    bus.boards.map (fun board => board.reserved) = bus.devices := by
  unfold PciBus.boards
  rw [List.map_map]
  exact (List.map_congr_left fun idev _ => reserved_of bus.busNumber idev).trans (List.map_id _)

/-- The boards of a bus carry its number. -/
theorem busNumber_of_mem_boards {bus : PciBus} {board : Board} (h : board ∈ bus.boards) :
    board.busNumber = bus.busNumber := by
  obtain ⟨idev, -, rfl⟩ := List.mem_map.1 h
  rfl

/-- Of the records of some buses, those with the number of one of them are its own. -/
theorem filter_boards {buses : List PciBus}
    (hdistinct : buses.Pairwise fun bus bus' => bus.busNumber < bus'.busNumber) {bus : PciBus}
    (h : bus ∈ buses) :
    (buses.flatMap PciBus.boards).filter (fun board => board.busNumber = bus.busNumber)
      = bus.boards := by
  induction buses with
  | nil => exact absurd h List.not_mem_nil
  | cons first buses ih =>
    rw [List.pairwise_cons] at hdistinct
    rw [List.flatMap_cons, List.filter_append]
    rcases List.mem_cons.1 h with rfl | hmem
    · rw [List.filter_eq_self.2, List.filter_eq_nil_iff.2, List.append_nil]
      · intro board hboard hnumber
        obtain ⟨bus', hbus', hboard⟩ := List.mem_flatMap.1 hboard
        rw [decide_eq_true_eq, busNumber_of_mem_boards hboard] at hnumber
        exact absurd (hdistinct.1 bus' hbus') (by omega)
      · exact fun board hboard => decide_eq_true (busNumber_of_mem_boards hboard)
    · rw [ih hdistinct.2 hmem, List.filter_eq_nil_iff.2, List.nil_append]
      intro board hboard hnumber
      rw [decide_eq_true_eq, busNumber_of_mem_boards hboard] at hnumber
      exact absurd (hdistinct.1 bus hmem) (by omega)

/-- The boards of the buses found are exactly one for each function. -/
theorem devListExact_boardsOf {root : PciBus} {functions : Forest ConfiguredFunction}
    (henum : Enumerated functions)
    (hdistinct : ((ctrlBuses root functions).map PciBus.busNumber).Nodup) :
    DevListExact root functions (boardsOf (ctrlBuses root functions)) := by
  have hperm := perm_busesByNumber hdistinct
  have hsorted := pairwise_busesByNumber (ctrlBuses root functions)
  refine ⟨?_, fun board hboard => ?_, ?_, fun bus hbus => ?_⟩
  · have hleaves := henum.below.imp fun _ _ h => h.2
    unfold boardsOf
    rw [List.map_flatMap, List.flatMap_congr fun bus _ => map_reserved_boards bus]
    refine (hperm.flatMap_right _).trans ?_
    unfold ctrlBuses
    rw [List.flatMap_cons]
    exact perm_busesBehind [] hleaves
  · obtain ⟨bus, -, hboard⟩ := List.mem_flatMap.1 hboard
    obtain ⟨idev, -, rfl⟩ := List.mem_map.1 hboard
    rw [reserved_of]
    exact describes_of bus.busNumber idev
  · unfold boardsOf
    rw [List.pairwise_flatMap]
    refine ⟨fun bus _ => List.pairwise_of_forall_mem_list fun board hboard board' hboard' => ?_,
      hsorted.imp fun hlt board hboard board' hboard' => ?_⟩
    · rw [busNumber_of_mem_boards hboard, busNumber_of_mem_boards hboard']
    · rw [busNumber_of_mem_boards hboard, busNumber_of_mem_boards hboard']
      exact hlt.le
  · unfold boardsOf
    rw [filter_boards hsorted (hperm.mem_iff.2 hbus), map_reserved_boards]

/-! ## Positions -/

/-- Two functions at different addresses of a bus. -/
def ApartOnBus (d e : PciDevice) : Prop :=
  pciDev d.devfn ≠ pciDev e.devfn ∨ pciFunc d.devfn ≠ pciFunc e.devfn

/-- The devices of functions in different slots are apart on their bus. -/
theorem apartOnBus_map {functions : List ConfiguredFunction} (h : DistinctSlots functions) :
    (functions.map ConfiguredFunction.dev).Pairwise ApartOnBus := List.pairwise_map.2 h

/-- On every bus behind a bridge the devices are apart. -/
theorem apartOnBus_busesBehind (bridges : List PciDevice) {functions : Forest ConfiguredFunction}
    (h : functions.All fun _ below => DistinctSlots below.roots) :
    ∀ bus ∈ busesBehind bridges functions, bus.devices.Pairwise ApartOnBus := by
  induction functions generalizing bridges with
  | nil => exact fun bus hbus => absurd hbus List.not_mem_nil
  | node f below rest ihc ihs =>
    obtain ⟨hslots, hbelow, hrest⟩ := h
    intro bus hbus
    rw [busesBehind] at hbus
    cases hsecondary : f.secondary with
    | none =>
      rw [hsecondary] at hbus
      exact ihs bridges hrest bus hbus
    | some numbers =>
      rw [hsecondary] at hbus
      rcases List.mem_cons.1 hbus with rfl | hbus
      · exact apartOnBus_map hslots
      · rcases List.mem_append.1 hbus with hbus | hbus
        · exact ihc (f.dev :: bridges) hbelow bus hbus
        · exact ihs bridges hrest bus hbus

/-- The records of two functions of a bus have a different `devfn`. -/
theorem devfn_ne {d e : PciDevice} (h : ApartOnBus d e) (n : ℕ) :
    (Board.of n d).devfn ≠ (Board.of n e).devfn := by
  intro heq
  have hd := (describes_of n d).devfn
  have he := (describes_of n e).devfn
  have hdfunc : pciFunc d.devfn < 8 := Nat.mod_lt _ (by decide)
  have hefunc : pciFunc e.devfn < 8 := Nat.mod_lt _ (by decide)
  rw [heq, he] at hd
  rcases h with hdev | hfunc
  · exact hdev (by omega)
  · exact hfunc (by omega)

/-- No two records of the list are at one position. -/
theorem pairwise_position {root : PciBus} {functions : Forest ConfiguredFunction}
    (henum : Enumerated functions) :
    (boardsOf (ctrlBuses root functions)).Pairwise fun board board' =>
      board.busNumber ≠ board'.busNumber ∨ board.devfn ≠ board'.devfn := by
  have hsorted := pairwise_busesByNumber (ctrlBuses root functions)
  unfold boardsOf
  rw [List.pairwise_flatMap]
  refine ⟨fun bus hbus => ?_, hsorted.imp fun hlt board hboard board' hboard' => Or.inl ?_⟩
  · obtain ⟨n, -, hbus⟩ := List.mem_filterMap.1 hbus
    have hapart : bus.devices.Pairwise ApartOnBus := by
      rcases List.mem_cons.1 (pciGetBus_some hbus).1 with rfl | hbus
      · exact apartOnBus_map henum.root
      · exact apartOnBus_busesBehind [] (henum.below.imp fun _ _ h => h.1) bus hbus
    exact List.pairwise_map.2 (hapart.imp fun h => Or.inr (devfn_ne h bus.busNumber))
  · rw [busNumber_of_mem_boards hboard, busNumber_of_mem_boards hboard']
    exact hlt.ne

/-! ## The records without their links -/

section WithoutLinks

variable {σ : Type}

/-- The phase adds these records, if it succeeds. -/
def AddsRecords (x : HwM σ Unit) (records : List PciDev) : Prop :=
  ∀ s s', x s = .ok () s' → s'.devList = s.devList ++ records

/-- Doing nothing adds no record. -/
theorem addsRecords_pure : AddsRecords (σ := σ) (pure ()) [] := by
  intro s s' h
  obtain ⟨-, rfl⟩ := pure_eq_ok.1 h
  exact (List.append_nil _).symm

/-- Two steps one after the other add the records of both. -/
theorem AddsRecords.bind {x : HwM σ Unit} {y : Unit → HwM σ Unit} {l l' : List PciDev}
    (hx : AddsRecords x l) (hy : AddsRecords (y ()) l') : AddsRecords (x >>= y) (l ++ l') := by
  intro s s' h
  obtain ⟨_, s₁, h₁, h₂⟩ := bind_eq_ok.1 h
  rw [hy s₁ s' h₂, hx s s₁ h₁, List.append_assoc]

/-- `add_pdev` adds the record of its device. -/
theorem addsRecords_addPdev (idev : PciDevice) :
    AddsRecords (σ := σ) (addPdev idev) [pcieMakePdev idev] := by
  intro s s' h
  unfold addPdev at h
  obtain ⟨_, s₁, h₁, h₂⟩ := bind_eq_ok.1 h
  obtain ⟨rc, -, rfl⟩ := zoom_eq_ok.1 h₁
  rw [modify_eq_ok.1 h₂]

/-- The loop over the devices of a bus adds their records in order. -/
theorem addsRecords_forM_addPdev (devices : List PciDevice) :
    AddsRecords (σ := σ) (devices.forM addPdev) (devices.map pcieMakePdev) := by
  induction devices with
  | nil => exact addsRecords_pure
  | cons idev devices ih =>
    show AddsRecords (addPdev idev >>= fun _ => devices.forM _) _
    exact (addsRecords_addPdev idev).bind ih

/-- The function without links leaves the same records in the same order. -/
theorem pcieBuildDevList_devList {buses : List PciBus} {s s' : HwState σ}
    (h : pcieBuildDevList buses s = .ok () s') :
    s'.devList = s.devList ++ (boardsOf buses).map Board.toPciDev := by
  have hloop (numbers : List ℕ) : AddsRecords (σ := σ)
      (numbers.forM fun busIndex =>
        match pciGetBus buses busIndex with
        | none => pure ()
        | some bus => bus.devices.forM addPdev)
      (((numbers.filterMap (pciGetBus buses)).flatMap PciBus.boards).map Board.toPciDev) := by
    induction numbers with
    | nil => exact addsRecords_pure
    | cons n numbers ih =>
      show AddsRecords ((match pciGetBus buses n with
          | none => pure ()
          | some bus => bus.devices.forM addPdev) >>= fun _ => numbers.forM _) _
      cases hbus : pciGetBus buses n with
      | none =>
        rw [List.filterMap_cons_none hbus]
        exact addsRecords_pure.bind ih
      | some bus =>
        rw [List.filterMap_cons_some hbus, List.flatMap_cons, List.map_append]
        have hboards : bus.boards.map Board.toPciDev = bus.devices.map pcieMakePdev := by
          unfold PciBus.boards
          rw [List.map_map]
          rfl
        rw [hboards]
        exact (addsRecords_forM_addPdev bus.devices).bind ih
  exact hloop _ s s' h

end WithoutLinks

/-! ## Trees of a scan -/

section Scan

variable {σ : Type}

/-- Writes to the registers leave the slot of a device. -/
theorem Rewritten.devfn {ranges : List (ℕ × ℕ)} {dev dev' : PciDevice}
    (h : Rewritten ranges dev dev') : dev'.devfn = dev.devfn := by
  rw [h.record]

/-- Setting a function up leaves its slot. -/
theorem devfn_setup {pcie pcie₁ : PciController σ} {bridges : List PciDevice} {hw : HwFunction} {b : ℕ}
    {dev : PciDevice}
    (h : pciautoSetupDevice pcie bridges (hw.record b) pcie.ptr = (pcie₁, dev)) :
    dev.devfn = (hw.record b).devfn := by
  have hframe := (pciautoSetupDevice_frame pcie bridges (record_barsNum hw b) pcie.ptr).2
  rw [h] at hframe
  have hrecord := congrArg PciDevice.devfn hframe.record
  exact hrecord

/-- The records of a bus keep their addresses, in their order. -/
theorem Scan.map_devfn {b last last' : ℕ} {bridges : List PciDevice} {pcie pcie' : PciController σ}
    {functions : Forest HwFunction} {configured : Forest ConfiguredFunction}
    (h : Scan b bridges pcie last functions configured pcie' last') :
    configured.roots.map (fun f => f.dev.devfn) = functions.roots.map fun hw => (hw.record b).devfn := by
  induction h with
  | nil => rfl
  | leaf _ hsetup _ ih =>
    rw [Forest.roots_node, Forest.roots_node, List.map_cons, List.map_cons, ih]
    exact congrArg (· :: _) (devfn_setup hsetup)
  | @bridge b bridges pcie last hw children siblings below rest pcie₁ dev pcie₂ lastSub pcie' last'
      _ hsetup _ _ _ ih =>
    have hscanned := (scannedBridge_rewritten pcie₁.nextBus pcie₂ pcie₁.nextBus.busNumberLast lastSub
      hw.link { dev with activated := true }).devfn
    have hsetup' := devfn_setup hsetup
    rw [Forest.roots_node, Forest.roots_node, List.map_cons, List.map_cons, ih]
    exact congrArg (· :: _) (hscanned.trans hsetup')

/-- Only behind a bridge there are more functions. -/
theorem Scan.leaves {b last last' : ℕ} {bridges : List PciDevice} {pcie pcie' : PciController σ}
    {functions : Forest HwFunction} {configured : Forest ConfiguredFunction}
    (h : Scan b bridges pcie last functions configured pcie' last') :
    configured.All fun f below => f.secondary = none → below = .nil := by
  induction h with
  | nil => trivial
  | leaf _ _ _ ih => exact ⟨fun _ => rfl, trivial, ih⟩
  | bridge _ _ _ _ ihb ihr => exact ⟨fun h => (by cases h), ihb, ihr⟩

/-- Functions in the order of their addresses stand at different ones, and so do their records. -/
theorem distinctSlots_of_map {b : ℕ} {functions : List HwFunction} (hon : OnBus 2 functions)
    {configured : List ConfiguredFunction}
    (h : configured.map (fun f => f.dev.devfn) = functions.map fun hw => (hw.record b).devfn) :
    DistinctSlots configured := by
  have hslots : (functions.map fun hw => (hw.record b).devfn).Pairwise
      fun d e => pciDev d ≠ pciDev e ∨ pciFunc d ≠ pciFunc e := by
    refine List.pairwise_map.2 (hon.sorted.imp_of_mem fun {f g} hf hg hlt => ?_)
    have hfdev := hon.device_lt f hf
    have hgdev := hon.device_lt g hg
    have hffun := hon.function_lt f hf
    have hgfun := hon.function_lt g hg
    have hdevfn (hw : HwFunction) : (hw.record b).devfn
        = (b * 65536 + (hw.device * 2048 + hw.function * 256)) % 65536 := rfl
    unfold HwFunction.address at hlt
    unfold pciDev pciFunc
    rw [hdevfn, hdevfn]
    omega
  rw [← h] at hslots
  exact List.pairwise_map.1 hslots

/-- Some of the functions of a bus can be the functions of a bus. -/
theorem OnBus.sublist {n : ℕ} {l l' : List HwFunction} (h : OnBus n l) (hsub : l'.Sublist l) :
    OnBus n l' :=
  ⟨h.sorted.sublist hsub, fun f hf => h.device_lt f (hsub.subset hf),
    fun f hf => h.function_lt f (hsub.subset hf), fun hlt f hf => h.link hlt f (hsub.subset hf),
    fun h0 f hf => h.root h0 f (hsub.subset hf)⟩

/-- The functions found on a bus are among those that stand there. -/
theorem roots_visibleAmong (level : List HwFunction) (functions : Forest HwFunction) :
    (visibleAmong level functions).roots.Sublist functions.roots := by
  induction functions generalizing level with
  | nil => exact List.Sublist.refl _
  | node hw children siblings _ ihs =>
    rw [visibleAmong, Forest.roots_node]
    split
    · rw [Forest.roots_node]
      exact (ihs level).cons_cons hw
    · exact (ihs level).cons hw

/-- On every bus the functions found can be those of a bus. -/
theorem onBus_visibleAmong (level : List HwFunction) {functions : Forest HwFunction}
    (h : functions.All fun _ children => OnBus 2 children.roots) :
    (visibleAmong level functions).All fun _ children => OnBus 2 children.roots := by
  induction functions generalizing level with
  | nil => trivial
  | node hw children siblings ihc ihs =>
    obtain ⟨hchildren, hbelow, hrest⟩ := h
    rw [visibleAmong]
    split
    · refine ⟨?_, ?_, ihs level hrest⟩
      · split
        · exact hchildren.sublist (roots_visibleAmong _ _)
        · exact hchildren.sublist (List.nil_sublist _)
      · split
        · exact ihc _ hbelow
        · trivial
    · exact ihs level hrest

/-- The functions that a scan leaves are in different slots of their buses. -/
theorem Scan.slots {b last last' : ℕ} {bridges : List PciDevice} {pcie pcie' : PciController σ}
    {functions : Forest HwFunction} {configured : Forest ConfiguredFunction}
    (h : Scan b bridges pcie last functions configured pcie' last')
    (hon : functions.All fun _ children => OnBus 2 children.roots) :
    configured.All fun _ below => DistinctSlots below.roots := by
  induction h with
  | nil => trivial
  | leaf _ _ _ ih => exact ⟨List.Pairwise.nil, trivial, ih hon.2.2⟩
  | bridge _ _ hbelow _ ihb ihr =>
    exact ⟨distinctSlots_of_map hon.1 hbelow.map_devfn, ihb hon.2.1, ihr hon.2.2⟩

/-- **What the scan of the root bus leaves** is such a tree. -/
theorem enumerated_of_enumerate {functions : Forest HwFunction} {root : PciBus}
    {configured : Forest ConfiguredFunction} {s s' : EnumState σ} (htopology : Topology functions)
    (h : enumerate functions s = .ok (root, configured) s') : Enumerated configured := by
  have hscan := scan_of_enumerate htopology h
  have hroots : OnBus 2 functions.roots :=
    ⟨htopology.root.sorted, htopology.root.device_lt, htopology.root.function_lt,
      fun hlt => absurd hlt (by decide), fun h0 => absurd h0 (by decide)⟩
  have hvisible := hscan.slots (onBus_visibleAmong _ htopology.below)
  exact ⟨distinctSlots_of_map (hroots.sublist (roots_visibleAmong _ _)) hscan.map_devfn,
    hvisible.and hscan.leaves⟩

end Scan

end BcmPcie
