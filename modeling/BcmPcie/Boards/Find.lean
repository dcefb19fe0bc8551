import BcmPcie.Boards.DevList
import BcmPcie.Library.TagLists

/-! # Searching for boards

The search calls of `pcie_find.c`. Each of them walks the list of boards from behind the previous
result, or from its head, to the first board that passes a test; `LibFindBoardA` takes the test from a
tag list, and goes over that list anew for each board.

* `libFindDevice`, `libFindClass`, `libFindSlot`, `libFindBoardA` — the calls.
* `pcieBuildDevListAt_searched` — the list that is built, and what the calls find in it. -/

namespace BcmPcie

open LinkedLists TagLists Computations

/-! ## Tags -/

def prmVendor : BitVec 32 := 0x6eda0000
def prmDevice : BitVec 32 := 0x6eda0001
def prmRevision : BitVec 32 := 0x6eda0002
def prmClass : BitVec 32 := 0x6eda0003
def prmSubClass : BitVec 32 := 0x6eda0004
def prmSlotNumber : BitVec 32 := 0x6eda0006
def prmFunctionNumber : BitVec 32 := 0x6eda0007
def prmBusNumber : BitVec 32 := 0x6eda0008
def prmSubsysVendor : BitVec 32 := 0x6eda000a
def prmSubsysId : BitVec 32 := 0x6eda000b
def prmInterface : BitVec 32 := 0x6eda000c
def prmMemRangeLower : BitVec 32 := 0x6eda1000
def prmMemRangeUpper : BitVec 32 := 0x6eda1001

/-! ## Tests -/

/-- The test of `LibFindDevice`: `0xFFFF` stands for any number. -/
def isDevice (vendor device : BitVec 16) (board : Board) : Bool :=
  decide ((vendor = 0xffff ∨ board.vendor = vendor) ∧ (device = 0xffff ∨ board.device = device))

/-- The test of `LibFindClass`. -/
def isClass (devclass : BitVec 32) (board : Board) : Bool := decide (board.devclass = devclass)

/-- The test of `LibFindSlot`: of the given `devfn` the low 8 bits are compared. -/
def isSlot (bus : BitVec 8) (devfn : BitVec 32) (board : Board) : Bool :=
  decide (board.busNumber = bus.toNat ∧ board.devfn = devfn.setWidth 8)

/-- The `switch` of `LibFindBoardA`: the board meets the item. Items that are not for a search it meets
all. -/
def meets (board : Board) (tag : TagItem) : Bool :=
  if tag.tiTag = prmVendor then board.vendor = tag.tiData.setWidth 16
  else if tag.tiTag = prmDevice then board.device = tag.tiData.setWidth 16
  else if tag.tiTag = prmClass then board.devclass >>> 16 &&& 0xff = tag.tiData &&& 0xff
  else if tag.tiTag = prmSubClass then board.devclass >>> 8 &&& 0xff = tag.tiData &&& 0xff
  else if tag.tiTag = prmInterface then board.devclass &&& 0xff = tag.tiData &&& 0xff
  else if tag.tiTag = prmRevision then board.reserved.revision = tag.tiData.setWidth 8
  else if tag.tiTag = prmBusNumber then BitVec.ofNat 32 board.busNumber = tag.tiData
  else if tag.tiTag = prmSlotNumber then (board.devfn >>> 3).setWidth 32 = tag.tiData
  else if tag.tiTag = prmFunctionNumber then (board.devfn &&& 7).setWidth 32 = tag.tiData
  else if tag.tiTag = prmSubsysVendor then board.reserved.subsysVendor = tag.tiData.setWidth 16
  else if tag.tiTag = prmSubsysId then board.reserved.subsysId = tag.tiData.setWidth 16
  else if tag.tiTag = prmMemRangeLower ∨ tag.tiTag = prmMemRangeUpper then false
  else true

/-- The local `match` behind the body of the loop over the tags. -/
def matchStep (board : Board) (isMatch : Bool) (tag : TagItem) : Bool := isMatch && meets board tag

/-- The loop of `LibFindBoardA` over the tags, for one board: whether it matches. -/
def matchTags (mem : Memory) (tags : BitVec 32) (fuel : ℕ) (board : Board) : Option Bool :=
  forTags mem (matchStep board) Bool.not fuel tags true

/-! ## Calls -/

/-- What the searches read of the library base. -/
structure BoardBase (Addr : Type) where
  heap : Heap Addr Board
  devListHead : Option Addr
  ctrlReady : Bool

variable {Addr : Type}

/-- `cur = prev ? prev->next : base->devListHead`, and the loop from there on. -/
def BoardBase.search (base : BoardBase Addr) (test : Board → Option Bool) (fuel : ℕ)
    (prev : Option Addr) : Option (Option Addr) :=
  (start base.heap base.devListHead prev).bind (find base.heap test fuel)

/-- `LibFindDevice`. -/
def libFindDevice (base : BoardBase Addr) (fuel : ℕ) (vendor device : BitVec 16)
    (prev : Option Addr) : Option (Option Addr) :=
  base.search (fun board => some (isDevice vendor device board)) fuel prev

/-- `LibFindClass`. -/
def libFindClass (base : BoardBase Addr) (fuel : ℕ) (devclass : BitVec 32) (prev : Option Addr) :
    Option (Option Addr) :=
  base.search (fun board => some (isClass devclass board)) fuel prev

/-- `LibFindSlot`. -/
def libFindSlot (base : BoardBase Addr) (fuel : ℕ) (bus : BitVec 8) (devfn : BitVec 32) :
    Option (Option Addr) :=
  find base.heap (fun board => some (isSlot bus devfn board)) fuel base.devListHead

/-- `LibFindBoardA`; `fuel` is for the loop over the boards, `tagFuel` for that over the tags. -/
def libFindBoardA (base : BoardBase Addr) (mem : Memory) (fuel tagFuel : ℕ) (tags : BitVec 32)
    (prev : Option Addr) : Option (Option Addr) :=
  if base.ctrlReady = false then some none
  else base.search (matchTags mem tags tagFuel) fuel prev

/-! ## The tags of a row -/

/-- An item to ignore does not decide a match. -/
theorem matchStep_ignore {board : Board} {isMatch : Bool} {tag : TagItem}
    (h : tag.tiTag = tagIgnore) : matchStep board isMatch tag = isMatch := by
  have hmeets : meets board tag = true := by
    unfold meets
    rw [h]
    rfl
  unfold matchStep
  rw [hmeets, Bool.and_true]

/-- Of the items that the loop looks at, the board meets all if it meets all there are. -/
theorem foldl_upTo_match (board : Board) (items : List TagItem) :
    (upTo (matchStep board) Bool.not true items).foldl (matchStep board) true
      = items.all (meets board) := by
  induction items with
  | nil => rfl
  | cons tag items ih =>
    rw [upTo, List.all_cons]
    cases h : meets board tag with
    | true =>
      have hstep : matchStep board true tag = true := h
      rw [hstep, if_neg (by decide), List.foldl_cons, hstep, ih, Bool.true_and]
    | false =>
      have hstep : matchStep board true tag = false := h
      rw [hstep, if_pos (by decide), List.foldl_cons, hstep, Bool.false_and]
      rfl

/-- Where the tags stand in a row, a board matches if it meets all of them. -/
theorem matchTags_row {mem : Memory} {tags : BitVec 32} {items : List TagItem}
    (h : Row mem tags items) {fuel : ℕ} (hfuel : items.length < fuel) (board : Board) :
    matchTags mem tags fuel board = some (items.all (meets board)) := by
  unfold matchTags
  rw [forTags_eq_map, h.visited_eq true hfuel, Option.map_some, foldl_upTo_match]

/-! ## What the calls find -/

/-- What the calls find in a list: each of the searches, repeated from `NULL` on, ends and finds every
board that passes its test, once and in the order of the list; the one by position finds the board that
is there. -/
structure Searched (base : BoardBase Addr) (nodes : List (Addr × Board)) : Prop where
  device : ∀ vendor device fuel calls, nodes.length < fuel → nodes.length < calls →
    results (libFindDevice base fuel vendor device) calls none
      = some ((nodes.filter fun x => isDevice vendor device x.2).map Prod.fst)
  devclass : ∀ devclass fuel calls, nodes.length < fuel → nodes.length < calls →
    results (libFindClass base fuel devclass) calls none
      = some ((nodes.filter fun x => isClass devclass x.2).map Prod.fst)
  board : ∀ mem tags items fuel tagFuel calls, Row mem tags items → items.length < tagFuel →
    nodes.length < fuel → nodes.length < calls →
    results (libFindBoardA base mem fuel tagFuel tags) calls none
      = some ((nodes.filter fun x => items.all (meets x.2)).map Prod.fst)
  slot : ∀ bus devfn fuel, nodes.length < fuel →
    ∃ found, libFindSlot base fuel bus devfn = some found ∧
      ∀ a, found = some a ↔ ∃ board, (a, board) ∈ nodes ∧ board.busNumber = bus.toNat ∧
        board.devfn = devfn.setWidth 8

section Searched

variable {base : BoardBase Addr} {nodes : List (Addr × Board)}

/-- Calling the search until it returns NULL gives the boards that pass, in their order. -/
theorem BoardBase.results_search (hlinked : Linked base.heap nodes)
    (hhead : base.devListHead = address nodes 0) {test : Board → Option Bool} {passes : Board → Bool}
    (htest : ∀ board, test board = some (passes board)) {fuel calls : ℕ} (hfuel : nodes.length < fuel)
    (hcalls : nodes.length < calls) : results (base.search test fuel) calls none
      = some ((nodes.filter fun x => passes x.2).map Prod.fst) := by
  have hsearch : base.search test fuel
      = fun prev => (start base.heap (address nodes 0) prev).bind (find base.heap test fuel) := by
    funext prev
    unfold BoardBase.search
    rw [hhead]
  rw [hsearch]
  exact hlinked.results_eq (fun x _ => htest x.2) hfuel hcalls

/-- The search by position finds the board that is there. -/
theorem libFindSlot_eq (hlinked : Linked base.heap nodes)
    (hhead : base.devListHead = address nodes 0)
    (hapart : (nodes.map Prod.snd).Pairwise fun board board' =>
      board.busNumber ≠ board'.busNumber ∨ board.devfn ≠ board'.devfn)
    (bus : BitVec 8) (devfn : BitVec 32) {fuel : ℕ} (hfuel : nodes.length < fuel) :
    ∃ found, libFindSlot base fuel bus devfn = some found ∧
      ∀ a, found = some a ↔ ∃ board, (a, board) ∈ nodes ∧ board.busNumber = bus.toNat ∧
        board.devfn = devfn.setWidth 8 := by
  refine ⟨(nodes.find? fun x => isSlot bus devfn x.2).map Prod.fst, ?_, fun a => ?_⟩
  · unfold libFindSlot
    rw [hhead, hlinked.find_eq (fun x _ => rfl) (Nat.zero_le _) (by omega), List.drop_zero]
  · have hboard (x : Addr × Board) : isSlot bus devfn x.2 = true ↔
        x.2.busNumber = bus.toNat ∧ x.2.devfn = devfn.setWidth 8 := decide_eq_true_iff
    constructor
    · intro h
      obtain ⟨x, hx, rfl⟩ := Option.map_eq_some_iff.1 h
      have hslot := List.find?_some hx
      exact ⟨x.2, List.mem_of_find?_eq_some hx, (hboard x).1 hslot⟩
    · rintro ⟨board, hmem, hslot⟩
      cases hfound : nodes.find? fun x => isSlot bus devfn x.2 with
      | none => exact absurd ((hboard (a, board)).2 hslot) (List.find?_eq_none.1 hfound _ hmem)
      | some x =>
        have hpasses := List.find?_some hfound
        have hslot' := (hboard x).1 hpasses
        -- two boards at one position are one
        have heq : x = (a, board) := by
          by_contra hne
          have : Std.Symm fun x y : Addr × Board =>
              x.2.busNumber ≠ y.2.busNumber ∨ x.2.devfn ≠ y.2.devfn :=
            ⟨fun _ _ h => h.imp Ne.symm Ne.symm⟩
          have h := (List.pairwise_map.1 hapart).forall (List.mem_of_find?_eq_some hfound) hmem hne
          rcases h with h | h
          · exact h (hslot'.1.trans hslot.1.symm)
          · exact h (hslot'.2.trans hslot.2.symm)
        rw [heq, Option.map_some]

/-- On a list as built at startup each search finds what it should. -/
theorem searched (hlinked : Linked base.heap nodes) (hhead : base.devListHead = address nodes 0)
    (hready : base.ctrlReady = true)
    (hapart : (nodes.map Prod.snd).Pairwise fun board board' =>
      board.busNumber ≠ board'.busNumber ∨ board.devfn ≠ board'.devfn) : Searched base nodes where
  device vendor device _ _ hfuel hcalls :=
    base.results_search hlinked hhead (fun _ => rfl) hfuel hcalls
  devclass devclass _ _ hfuel hcalls :=
    base.results_search hlinked hhead (fun _ => rfl) hfuel hcalls
  board mem tags items fuel tagFuel calls hrow htags hfuel hcalls := by
    have hcall : libFindBoardA base mem fuel tagFuel tags
        = base.search (matchTags mem tags tagFuel) fuel := by
      funext prev
      unfold libFindBoardA
      rw [hready, if_neg (by decide)]
    rw [hcall]
    exact base.results_search hlinked hhead (matchTags_row hrow htags) hfuel hcalls
  slot bus devfn _ hfuel := libFindSlot_eq hlinked hhead hapart bus devfn hfuel

end Searched

/-- **The list of boards** of an enumerated tree, if there is memory for its records: it is linked both
ways and ends, has a record for each function in the order of the buses, and the calls find in it what
they are to find. -/
theorem pcieBuildDevListAt_searched [DecidableEq Addr] {alloc : ℕ → Option Addr}
    (hfresh : FreshBlocks alloc) {root : PciBus} {functions : Forest ConfiguredFunction}
    (henum : Enumerated functions)
    (hdistinct : ((ctrlBuses root functions).map PciBus.busNumber).Nodup)
    (hmem : ∀ k < functions.toList.length, (alloc k).isSome) (heap : Heap Addr Board) :
    ∃ s' nodes, pcieBuildDevListAt alloc (ctrlBuses root functions) { heap := heap } = .ok () s' ∧
      Linked s'.heap nodes ∧ s'.devListHead = address nodes 0 ∧
      DevListExact root functions (nodes.map Prod.snd) ∧
      Searched ⟨s'.heap, s'.devListHead, true⟩ nodes := by
  have hexact := devListExact_boardsOf henum hdistinct
  have hlength : (boardsOf (ctrlBuses root functions)).length = functions.toList.length := by
    have h := hexact.all.length_eq
    rwa [List.length_map, List.length_map] at h
  have hmem' : ∀ k < (boardsOf (ctrlBuses root functions)).length, (alloc k).isSome := by
    rwa [hlength]
  obtain ⟨s', nodes, hrun, hbuilt, hnodes⟩ := built_pcieBuildDevListAt hfresh hmem' heap
  refine ⟨s', nodes, hrun, hbuilt.linked, hbuilt.head, by rwa [hnodes], ?_⟩
  refine searched hbuilt.linked hbuilt.head rfl ?_
  rw [hnodes]
  exact pairwise_position henum

/-! ## Trees -/

/-- A function with nothing in its registers. -/
def bareFunction (vendor device : BitVec 16) (classCode : BitVec 32) : PciDevice where
  cfg := ⟨0, 0⟩
  tableMem _ := 0
  vendor := vendor
  device := device
  classCode := classCode

/-- A root port, and behind it, on bus 5, a controller. -/
def gapTree : Forest ConfiguredFunction :=
  .node ⟨bareFunction 0x14e4 0x2711 0x060400, some ⟨5, 5⟩⟩
    (.node ⟨bareFunction 0x1106 0x3483 0x0c0330, none⟩ .nil .nil) .nil

/-- The tree with a gap is one that an enumeration can leave. -/
theorem gapTree_enumerated : Enumerated gapTree :=
  ⟨List.pairwise_singleton _ _, ⟨List.pairwise_singleton _ _, fun h => by cases h⟩,
    ⟨⟨List.Pairwise.nil, fun _ => rfl⟩, trivial, trivial⟩, trivial⟩

/-- Every allocation gets a block of its own. -/
theorem freshBlocks_some : FreshBlocks (some : ℕ → Option ℕ) := by
  intro j k a hj hk
  rw [Option.some.inj hj, Option.some.inj hk]

/-- Its two records, and what the calls find. -/
theorem gapTree_searched :
    ∃ s' nodes, pcieBuildDevListAt some (ctrlBuses {} gapTree) { heap := fun _ => none } = .ok () s' ∧
      Linked s'.heap nodes ∧ s'.devListHead = address nodes 0 ∧
      DevListExact {} gapTree (nodes.map Prod.snd) ∧
      Searched (⟨s'.heap, s'.devListHead, true⟩ : BoardBase ℕ) nodes :=
  pcieBuildDevListAt_searched freshBlocks_some gapTree_enumerated (by decide) (fun _ _ => rfl) _

/-- The search by position drops the bits of `devfn` above the low 8, and finds a board where none can
be. -/
theorem not_libFindSlot_devfn :
    ¬ ∀ (root : PciBus) (functions : Forest ConfiguredFunction) (alloc : ℕ → Option ℕ)
      (s' : DevListState ℕ) (nodes : List (ℕ × Board)), Enumerated functions →
      ((ctrlBuses root functions).map PciBus.busNumber).Nodup → FreshBlocks alloc →
      pcieBuildDevListAt alloc (ctrlBuses root functions) { heap := fun _ => none } = .ok () s' →
      Linked s'.heap nodes → s'.devListHead = address nodes 0 →
      ∀ bus devfn found, libFindSlot ⟨s'.heap, s'.devListHead, true⟩ (nodes.length + 1) bus devfn
          = some found →
        ∀ a, found = some a → ∃ board, (a, board) ∈ nodes ∧ board.busNumber = bus.toNat ∧
          board.devfn.toNat = devfn.toNat := by
  intro h
  obtain ⟨s', nodes, hrun, hbuilt, hnodes⟩ := @built_pcieBuildDevListAt ℕ some _ freshBlocks_some
    (ctrlBuses {} gapTree) (fun _ _ => rfl) fun _ => none
  have hapart := @pairwise_position {} gapTree gapTree_enumerated
  rw [← hnodes] at hapart
  obtain ⟨found, hfound, hat⟩ := @libFindSlot_eq ℕ ⟨s'.heap, s'.devListHead, true⟩ nodes
    hbuilt.linked hbuilt.head hapart 5 0x100 _ (Nat.lt_succ_self _)
  -- the controller is at device 0, function 0 of bus 5
  obtain ⟨x, hx, hboard⟩ : ∃ x ∈ nodes, x.2.busNumber = 5 ∧ x.2.devfn = 0 := by
    have hmem : ∃ board ∈ nodes.map Prod.snd, board.busNumber = 5 ∧ board.devfn = 0 := by
      rw [hnodes]
      decide
    obtain ⟨board, hmem, hboard⟩ := hmem
    obtain ⟨x, hx, rfl⟩ := List.mem_map.1 hmem
    exact ⟨x, hx, hboard⟩
  obtain ⟨board, -, -, hdevfn⟩ := h {} gapTree some s' nodes gapTree_enumerated (by decide)
    freshBlocks_some hrun hbuilt.linked hbuilt.head 5 0x100 found hfound x.1
    ((hat x.1).2 ⟨x.2, hx, hboard⟩)
  have hlt := board.devfn.isLt
  rw [hdevfn] at hlt
  exact absurd hlt (by decide)

end BcmPcie
