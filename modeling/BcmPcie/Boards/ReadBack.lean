import BcmPcie.Boards.Attrs

/-! # Searching by what was read

What `LibGetBoardAttrsA` reports of a board, given to `LibFindBoardA` as the values to search by. Each of
the two calls has a `switch` of its own over the tags.

* `reported` — what a query stores; `libGetBoardAttrsA_stores`.
* `meets_iff_boardAttr` — a board meets a value reported of another one if it has that value itself.
* `DeviceList` — the list of an enumerated tree, at any time after.
* `findBoard_of_getBoardAttrs` — the search finds the board that was read, or one in front of it that
  reads the same. -/

namespace BcmPcie

open LinkedLists TagLists

/-- The tags that a board can be searched by. -/
def searchTags : List (BitVec 32) :=
  [prmVendor, prmDevice, prmClass, prmSubClass, prmInterface, prmRevision, prmSubsysVendor, prmSubsysId,
    prmBusNumber, prmSlotNumber, prmFunctionNumber]

/-! ## What a query stores -/

/-- The value of the attribute of an item, with where it is to be stored. -/
def attrStore (ctrl : AttrController) (board : Board) (t : TagItem) : Option (BitVec 32 × BitVec 32) :=
  if t.tiTag = tagIgnore ∨ t.tiData = 0 then none
  else (boardAttr ctrl board t.tiTag).map (t.tiData, ·)

/-- What a query stores of a board. -/
def reported (ctrl : AttrController) (board : Board) (query : List TagItem) :
    List (BitVec 32 × BitVec 32) :=
  query.filterMap (attrStore ctrl board)

@[simp] theorem reported_nil (ctrl : AttrController) (board : Board) : reported ctrl board [] = [] := rfl

/-- A query that is answered reports its value first. -/
theorem reported_cons {ctrl : AttrController} {board : Board} {t : TagItem} {query : List TagItem}
    (htag : t.tiTag ≠ tagIgnore) (hdata : t.tiData ≠ 0) {value : BitVec 32}
    (h : boardAttr ctrl board t.tiTag = some value) :
    reported ctrl board (t :: query) = (t.tiData, value) :: reported ctrl board query := by
  unfold reported
  refine List.filterMap_cons_some ?_
  unfold attrStore
  rw [if_neg (not_or.2 ⟨htag, hdata⟩), h, Option.map_some]

/-- A step of the loop over the tags adds the store of its attribute, if it has one. -/
theorem getStep_stores (ctrl : AttrController) (board : Board) (s : GetState) (t : TagItem) :
    (getStep ctrl board s t).stores = s.stores ++ (attrStore ctrl board t).toList := by
  unfold getStep attrStore
  by_cases hi : t.tiTag = tagIgnore
  · simp [hi]
  · by_cases hd : t.tiData = 0
    · simp [hd]
    · rw [if_neg hi, if_neg hd, if_neg (not_or.2 ⟨hi, hd⟩)]
      cases boardAttr ctrl board t.tiTag <;> simp

/-- The stores of the loop are those of what is reported. -/
theorem foldl_getStep_stores (ctrl : AttrController) (board : Board) (query : List TagItem)
    (s : GetState) :
    (query.foldl (getStep ctrl board) s).stores = s.stores ++ reported ctrl board query := by
  induction query generalizing s with
  | nil => simp [reported]
  | cons t query ih =>
    rw [List.foldl_cons, ih, getStep_stores, List.append_assoc]
    unfold reported
    cases h : attrStore ctrl board t <;> simp [h]

/-- The call goes over a row, if it comes back. -/
theorem row_of_libGetBoardAttrsA {ctrl : AttrController} {mem : Memory} {tags : BitVec 32}
    (hnull : tags ≠ 0) {board : Board} {regs : RcRegisters} {fuel : ℕ} {s : GetState}
    (h : libGetBoardAttrsA ctrl mem fuel (some board) tags regs = some s) :
    ∃ items, Row mem tags items ∧ items.length < fuel := by
  unfold libGetBoardAttrsA at h
  dsimp only at h
  rw [if_neg hnull] at h
  exact row_of_forTags (fun _ => rfl) h

/-- Over a row of items `GetBoardAttrsA` is the loop over them. -/
theorem libGetBoardAttrsA_row {mem : Memory} {tags : BitVec 32} (hnull : tags ≠ 0)
    {query : List TagItem} (hrow : Row mem tags query) (ctrl : AttrController) (board : Board)
    (regs : RcRegisters) {fuel : ℕ} (hfuel : query.length < fuel) :
    libGetBoardAttrsA ctrl mem fuel (some board) tags regs
      = some (query.foldl (getStep ctrl board) { regs := regs }) := by
  have hall := @upTo_of_never _ (getStep ctrl board) never (fun _ => rfl) { regs := regs } query
  unfold libGetBoardAttrsA
  dsimp only
  rw [if_neg hnull, forTags_eq_map, hrow.visited_eq _ hfuel, hall]
  rfl

/-- A query over a row stores what is reported of the board. -/
theorem libGetBoardAttrsA_stores {mem : Memory} {tags : BitVec 32} (hnull : tags ≠ 0)
    {query : List TagItem} (hrow : Row mem tags query) (ctrl : AttrController) (board : Board)
    (regs : RcRegisters) {fuel : ℕ} (hfuel : query.length < fuel) :
    ∃ s, libGetBoardAttrsA ctrl mem fuel (some board) tags regs = some s ∧
      s.stores = reported ctrl board query := by
  refine ⟨_, libGetBoardAttrsA_row hnull hrow ctrl board regs hfuel, ?_⟩
  rw [foldl_getStep_stores]
  rfl

/-! ## The two switches -/

/-- Widening words keeps them apart. -/
theorem setWidth_inj {v w : ℕ} (h : v ≤ w) {x y : BitVec v} :
    x.setWidth w = y.setWidth w ↔ x = y := by
  refine ⟨fun heq => ?_, fun heq => by rw [heq]⟩
  apply BitVec.eq_of_toNat_eq
  rw [← BitVec.toNat_setWidth_of_le h, heq, BitVec.toNat_setWidth_of_le h]

/-- A narrow register that is read into 32 bits, and compared in its own width. -/
theorem narrow_iff {v w : ℕ} (h : v ≤ w) {x y : BitVec v} :
    decide (x = (y.setWidth w).setWidth v) = true ↔
      some (x.setWidth w) = some (y.setWidth w) := by
  rw [decide_eq_true_iff, Option.some_inj, BitVec.setWidth_setWidth_of_le _ h, BitVec.setWidth_eq,
    setWidth_inj h]

/-- A byte that is read, and compared as a byte. -/
theorem byte_iff {w : ℕ} {x y mask : BitVec w} :
    decide (x &&& mask = y &&& mask &&& mask) = true ↔ some (x &&& mask) = some (y &&& mask) := by
  rw [decide_eq_true_iff, Option.some_inj, BitVec.and_assoc, BitVec.and_self]

/-- A number that is read, and compared as it is. -/
theorem whole_iff {w : ℕ} {x y : BitVec w} : decide (x = y) = true ↔ some x = some y := by
  rw [decide_eq_true_iff, Option.some_inj]

/-- Every tag of a search is that of an attribute, and a board meets the value that was reported of
another one if and only if it is reported of it too. -/
theorem meets_iff_boardAttr (ctrl : AttrController) (board board' : Board) {tag : BitVec 32}
    (htag : tag ∈ searchTags) :
    ∃ value, boardAttr ctrl board tag = some value ∧
      (meets board' ⟨tag, value⟩ = true ↔ boardAttr ctrl board' tag = some value) := by
  simp only [searchTags, List.mem_cons, List.not_mem_nil, or_false] at htag
  rcases htag with rfl | rfl | rfl | rfl | rfl | rfl | rfl | rfl | rfl | rfl | rfl
  · exact ⟨_, rfl, @narrow_iff 16 32 (by decide) board'.vendor board.vendor⟩
  · exact ⟨_, rfl, @narrow_iff 16 32 (by decide) board'.device board.device⟩
  · exact ⟨_, rfl, @byte_iff 32 (board'.devclass >>> 16) (board.devclass >>> 16) 0xff⟩
  · exact ⟨_, rfl, @byte_iff 32 (board'.devclass >>> 8) (board.devclass >>> 8) 0xff⟩
  · exact ⟨_, rfl, @byte_iff 32 board'.devclass board.devclass 0xff⟩
  · exact ⟨_, rfl, @narrow_iff 8 32 (by decide) board'.reserved.revision board.reserved.revision⟩
  · exact ⟨_, rfl, @narrow_iff 16 32 (by decide) board'.reserved.subsysVendor
      board.reserved.subsysVendor⟩
  · exact ⟨_, rfl, @narrow_iff 16 32 (by decide) board'.reserved.subsysId board.reserved.subsysId⟩
  · exact ⟨_, rfl, @whole_iff 32 (BitVec.ofNat 32 board'.busNumber) (BitVec.ofNat 32 board.busNumber)⟩
  · exact ⟨_, rfl, @whole_iff 32 ((board'.devfn >>> 3).setWidth 32) ((board.devfn >>> 3).setWidth 32)⟩
  · exact ⟨_, rfl, @whole_iff 32 ((board'.devfn &&& 7).setWidth 32) ((board.devfn &&& 7).setWidth 32)⟩

/-- What a query stores, as the items of a search. -/
def searchItems (query : List TagItem) (stores : List (BitVec 32 × BitVec 32)) : List TagItem :=
  query.zipWith (fun t store => ⟨t.tiTag, store.2⟩) stores

/-- No search tag is to be ignored. -/
theorem tagIgnore_not_mem : tagIgnore ∉ searchTags := by
  simp [searchTags, tagIgnore, prmVendor, prmDevice, prmClass, prmSubClass, prmInterface, prmRevision,
    prmSubsysVendor, prmSubsysId, prmBusNumber, prmSlotNumber, prmFunctionNumber]

/-- The items of a query are all answered: each has a tag of a search, and a place for its value. -/
def Answered (query : List TagItem) : Prop := ∀ t ∈ query, t.tiTag ∈ searchTags ∧ t.tiData ≠ 0

/-- A board meets all that was reported of another one if and only if the same is reported of it. -/
theorem all_meets_iff (ctrl : AttrController) (board board' : Board) {query : List TagItem}
    (hquery : Answered query) :
    (searchItems query (reported ctrl board query)).all (meets board') = true ↔
      reported ctrl board' query = reported ctrl board query := by
  induction query with
  | nil => simp [searchItems]
  | cons t query ih =>
    obtain ⟨⟨htag, hdata⟩, hrest⟩ := List.forall_mem_cons.1 hquery
    obtain ⟨value, hattr, hmeets⟩ := meets_iff_boardAttr ctrl board board' htag
    obtain ⟨value', hattr', -⟩ := meets_iff_boardAttr ctrl board' board htag
    have hitems : searchItems (t :: query) ((t.tiData, value) :: reported ctrl board query)
        = ⟨t.tiTag, value⟩ :: searchItems query (reported ctrl board query) := rfl
    have hignore : t.tiTag ≠ tagIgnore := ne_of_mem_of_not_mem htag tagIgnore_not_mem
    rw [reported_cons hignore hdata hattr, reported_cons hignore hdata hattr', hitems, List.all_cons,
      Bool.and_eq_true, hmeets, ih hrest, hattr', Option.some_inj, List.cons.injEq, Prod.mk.injEq]
    exact and_congr_left fun _ => ⟨fun h => ⟨rfl, h⟩, fun h => h.2⟩

/-- Of two boards of which the same is reported each attribute of the query is the same. -/
theorem boardAttr_of_reported {ctrl : AttrController} {board board' : Board} {query : List TagItem}
    (hquery : Answered query) (h : reported ctrl board' query = reported ctrl board query)
    {tag : BitVec 32} (htag : tag ∈ query.map TagItem.tiTag) :
    boardAttr ctrl board' tag = boardAttr ctrl board tag := by
  induction query with
  | nil => exact absurd htag List.not_mem_nil
  | cons t query ih =>
    obtain ⟨⟨hsearch, hdata⟩, hrest⟩ := List.forall_mem_cons.1 hquery
    obtain ⟨value, hattr, -⟩ := meets_iff_boardAttr ctrl board board' hsearch
    obtain ⟨value', hattr', -⟩ := meets_iff_boardAttr ctrl board' board hsearch
    have hignore : t.tiTag ≠ tagIgnore := ne_of_mem_of_not_mem hsearch tagIgnore_not_mem
    rw [reported_cons hignore hdata hattr, reported_cons hignore hdata hattr', List.cons.injEq,
      Prod.mk.injEq] at h
    rcases List.mem_cons.1 htag with rfl | htag
    · rw [hattr, hattr', h.1.2]
    · exact ih hrest h.2 htag

/-! ## Positions -/

/-- The slot and the function number are all of `devfn`. -/
theorem devfn_eq {d e : BitVec 8} (hslot : (d >>> 3).setWidth 32 = (e >>> 3).setWidth 32)
    (hfunction : (d &&& 7).setWidth 32 = (e &&& 7).setWidth 32) : d = e := by
  have hs := (setWidth_inj (by decide)).1 hslot
  have hf := (setWidth_inj (by decide)).1 hfunction
  have hparts : ∀ d : BitVec 8, d = (d >>> 3) <<< 3 ||| (d &&& 7) := by decide
  rw [hparts d, hparts e, hs, hf]

/-- The device list of an enumerated tree. What else stands in the records may have changed since
`pcie_build_dev_list` has made them. -/
structure DeviceList {Addr : Type} (base : BoardBase Addr) (root : PciBus)
    (functions : Forest ConfiguredFunction) (nodes : List (Addr × Board)) : Prop where
  linked : Linked base.heap nodes
  head : base.devListHead = address nodes 0
  ready : base.ctrlReady = true
  enumerated : Enumerated functions
  number_lt : ∀ bus ∈ ctrlBuses root functions, bus.busNumber < 2 ^ 32
  positions : (nodes.map fun x => (x.2.busNumber, x.2.devfn))
    = (boardsOf (ctrlBuses root functions)).map fun board => (board.busNumber, board.devfn)

section DeviceList

variable {Addr : Type} {base : BoardBase Addr} {root : PciBus} {functions : Forest ConfiguredFunction}
  {nodes : List (Addr × Board)}

/-- The bus numbers of the list fit a word. -/
theorem DeviceList.busNumber_lt (h : DeviceList base root functions nodes) {x : Addr × Board}
    (hx : x ∈ nodes) : x.2.busNumber < 2 ^ 32 := by
  have hmem : (x.2.busNumber, x.2.devfn) ∈ nodes.map fun x => (x.2.busNumber, x.2.devfn) :=
    List.mem_map_of_mem hx
  rw [h.positions] at hmem
  obtain ⟨board, hboard, heq⟩ := List.mem_map.1 hmem
  obtain ⟨bus, hbus, hboard⟩ := List.mem_flatMap.1 hboard
  obtain ⟨n, -, hbus⟩ := List.mem_filterMap.1 hbus
  rw [← (Prod.mk.inj heq).1, busNumber_of_mem_boards hboard]
  exact h.number_lt bus (pciGetBus_some hbus).1

/-- No two nodes are for one position. -/
theorem DeviceList.index_eq (h : DeviceList base root functions nodes) {i k : ℕ} {x y : Addr × Board}
    (hi : nodes[i]? = some x) (hk : nodes[k]? = some y) (hbus : y.2.busNumber = x.2.busNumber)
    (hdevfn : y.2.devfn = x.2.devfn) : k = i := by
  have hapart : (nodes.map fun x => (x.2.busNumber, x.2.devfn)).Nodup := by
    rw [h.positions]
    refine List.pairwise_map.2 ((pairwise_position h.enumerated).imp fun {board board'} hne heq => ?_)
    obtain ⟨hbus, hdevfn⟩ := Prod.mk.inj heq
    exact hne.elim (· hbus) (· hdevfn)
  have hi' : (nodes.map fun x => (x.2.busNumber, x.2.devfn))[i]? = some (x.2.busNumber, x.2.devfn) := by
    rw [List.getElem?_map, hi, Option.map_some]
  have hk' : (nodes.map fun x => (x.2.busNumber, x.2.devfn))[k]? = some (x.2.busNumber, x.2.devfn) := by
    rw [List.getElem?_map, hk, Option.map_some, hbus, hdevfn]
  obtain ⟨hlt, -⟩ := List.getElem?_eq_some_iff.1 hk'
  exact (List.getElem?_inj hlt hapart).1 (hk'.trans hi'.symm)

end DeviceList

/-! ## Reading and searching -/

/-- **What was read of a board finds it**: a search by the values that were reported, from anywhere in
front of the board, finds it or an earlier board that reports the same values; and it finds the board
itself if its position is among them. -/
theorem findBoard_of_getBoardAttrs {Addr : Type} {base : BoardBase Addr} {root : PciBus}
    {functions : Forest ConfiguredFunction} {nodes : List (Addr × Board)}
    (hlist : DeviceList base root functions nodes) (ctrl : AttrController)
    {i : ℕ} {a : Addr} {board : Board} (hboard : nodes[i]? = some (a, board))
    -- the query
    {mem : Memory} {queryAt : BitVec 32} (hnull : queryAt ≠ 0) {query : List TagItem}
    (hrow : Row mem queryAt query) (hquery : Answered query) {regs : RcRegisters} {getFuel : ℕ}
    {s : GetState} (hget : libGetBoardAttrsA ctrl mem getFuel (some board) queryAt regs = some s)
    -- the search
    {mem' : Memory} {searchAt : BitVec 32} (hrow' : Row mem' searchAt (searchItems query s.stores))
    {j : ℕ} (hj : j ≤ i) {fuel tagFuel : ℕ} (hfuel : nodes.length < fuel)
    (htagFuel : query.length < tagFuel) :
    ∃ k found board', j ≤ k ∧ k ≤ i ∧ nodes[k]? = some (found, board') ∧
      libFindBoardA base mem' fuel tagFuel searchAt (before nodes j) = some (some found) ∧
      (∀ regs', ∃ s', libGetBoardAttrsA ctrl mem getFuel (some board') queryAt regs' = some s' ∧
        s'.stores = s.stores) ∧
      (prmBusNumber ∈ query.map TagItem.tiTag → prmSlotNumber ∈ query.map TagItem.tiTag →
        prmFunctionNumber ∈ query.map TagItem.tiTag → found = a) := by
  obtain ⟨hi, -⟩ := List.getElem?_eq_some_iff.1 hboard
  obtain ⟨items, hitems, hgetFuel⟩ := row_of_libGetBoardAttrsA hnull hget
  rw [hitems.unique hrow] at hgetFuel
  have hstores (b : Board) (regs : RcRegisters) :=
    libGetBoardAttrsA_stores hnull hrow ctrl b regs hgetFuel
  have hs : s.stores = reported ctrl board query := by
    obtain ⟨s₁, hget₁, hs₁⟩ := hstores board regs
    rw [← hs₁, Option.some.inj (hget.symm.trans hget₁)]
  have hlength : (searchItems query s.stores).length < tagFuel := by
    unfold searchItems
    rw [List.length_zipWith]
    omega
  have htest (x : Addr × Board) (_ : x ∈ nodes) := matchTags_row hrow' hlength x.2
  rw [hs] at htest
  -- the board that was read passes
  have hpass : (searchItems query (reported ctrl board query)).all (meets board) = true :=
    (all_meets_iff ctrl board board hquery).2 rfl
  obtain ⟨k, ⟨found, board'⟩, hjk, hki, hfound, hpass', hsearch⟩ :=
    @Linked.find_of_passing _ _ _ _ (matchTags mem' searchAt tagFuel)
      (fun b => (searchItems query (reported ctrl board query)).all (meets b)) hlist.linked htest i j
      fuel hj _ hboard hpass (by omega)
  have hsame := (all_meets_iff ctrl board board' hquery).1 hpass'
  refine ⟨k, found, board', hjk, hki, hfound, ?_, fun regs' => ?_, fun hbus hslot hfunction => ?_⟩
  · unfold libFindBoardA BoardBase.search
    rw [hlist.ready, if_neg (by decide), hlist.head, hlist.linked.start_before (by omega),
      Option.bind_some]
    exact hsearch
  · obtain ⟨s', hget', hs'⟩ := hstores board' regs'
    exact ⟨s', hget', by rw [hs', hsame, hs]⟩
  · have hbus : BitVec.ofNat 32 board'.busNumber = BitVec.ofNat 32 board.busNumber :=
      Option.some.inj (boardAttr_of_reported hquery hsame hbus)
    have hslot : (board'.devfn >>> 3).setWidth 32 = (board.devfn >>> 3).setWidth 32 :=
      Option.some.inj (boardAttr_of_reported hquery hsame hslot)
    have hfunction : (board'.devfn &&& 7).setWidth 32 = (board.devfn &&& 7).setWidth 32 :=
      Option.some.inj (boardAttr_of_reported hquery hsame hfunction)
    have hlt := hlist.busNumber_lt (List.mem_of_getElem? hboard)
    have hlt' := hlist.busNumber_lt (List.mem_of_getElem? hfound)
    have hnumber := congrArg BitVec.toNat hbus
    rw [BitVec.toNat_ofNat, BitVec.toNat_ofNat, Nat.mod_eq_of_lt hlt, Nat.mod_eq_of_lt hlt'] at hnumber
    obtain rfl := hlist.index_eq hboard hfound hnumber (devfn_eq hslot hfunction)
    rw [hboard] at hfound
    exact (Prod.mk.inj (Option.some.inj hfound)).1.symm

/-- The tags of a position with places for their values, and with the position of the controller. -/
def positionTags : Memory := fun a =>
  if a = 0x1000 then some ⟨prmBusNumber, 0x2000⟩ else if a = 0x1008 then some ⟨prmSlotNumber, 0x2004⟩
  else if a = 0x1010 then some ⟨prmFunctionNumber, 0x2008⟩ else if a = 0x1018 then some ⟨tagDone, 0⟩
  else if a = 0x3000 then some ⟨prmBusNumber, 5⟩ else if a = 0x3008 then some ⟨prmSlotNumber, 0⟩
  else if a = 0x3010 then some ⟨prmFunctionNumber, 0⟩ else if a = 0x3018 then some ⟨tagDone, 0⟩
  else none

/-- The controller behind the gap is found by its position. -/
theorem findBoard_position :
    ∃ s' nodes a, pcieBuildDevListAt some (ctrlBuses {} gapTree) { heap := fun _ => none } = .ok () s' ∧
      Linked s'.heap nodes ∧ address nodes 1 = some a ∧
      libFindBoardA (⟨s'.heap, s'.devListHead, true⟩ : BoardBase ℕ) positionTags 3 4 0x3000 none
        = some (some a) := by
  obtain ⟨s', nodes, hrun, hbuilt, hnodes⟩ := @built_pcieBuildDevListAt ℕ some _ freshBlocks_some
    (ctrlBuses {} gapTree) (fun _ _ => rfl) fun _ => none
  have hlist : DeviceList (⟨s'.heap, s'.devListHead, true⟩ : BoardBase ℕ) {} gapTree nodes :=
    { linked := hbuilt.linked
      head := hbuilt.head
      ready := rfl
      enumerated := gapTree_enumerated
      number_lt := by decide
      positions := by
        rw [← hnodes, List.map_map]
        rfl }
  -- two boards: the bridge, and the controller on bus 5 behind it
  have hlength : nodes.length = 2 := by
    rw [← List.length_map Prod.snd, hnodes]
    rfl
  obtain ⟨⟨a, board⟩, hsecond⟩ : ∃ x, nodes[1]? = some x := ⟨_, List.getElem?_eq_getElem (by omega)⟩
  have hboard : some board = (boardsOf (ctrlBuses {} gapTree))[1]? := by
    rw [← hnodes, List.getElem?_map, hsecond, Option.map_some]
  obtain rfl : board = Board.of 5 (bareFunction 0x1106 0x3483 0x0c0330) := Option.some.inj hboard
  have hrow : Row positionTags 0x1000
      [⟨prmBusNumber, 0x2000⟩, ⟨prmSlotNumber, 0x2004⟩, ⟨prmFunctionNumber, 0x2008⟩] :=
    .next rfl (by decide) (.next rfl (by decide) (.next rfl (by decide) (.done rfl rfl)))
  have hrow' : Row positionTags 0x3000 [⟨prmBusNumber, 5⟩, ⟨prmSlotNumber, 0⟩, ⟨prmFunctionNumber, 0⟩] :=
    .next rfl (by decide) (.next rfl (by decide) (.next rfl (by decide) (.done rfl rfl)))
  have hquery : Answered
      [⟨prmBusNumber, 0x2000⟩, ⟨prmSlotNumber, 0x2004⟩, ⟨prmFunctionNumber, 0x2008⟩] := by
    unfold Answered
    decide
  obtain ⟨k, found, -, -, -, -, hfind, -, hself⟩ := @findBoard_of_getBoardAttrs ℕ _ {} gapTree nodes
    hlist ⟨0, none⟩ 1 a _ hsecond positionTags 0x1000 (by decide) _ hrow hquery (fun _ => 0) 4 _ rfl
    positionTags 0x3000 hrow' 0 (Nat.zero_le 1) 3 4 (by omega) (by decide)
  refine ⟨s', nodes, a, hrun, hbuilt.linked, address_of_getElem? hsecond, ?_⟩
  rw [← hself (by decide) (by decide) (by decide)]
  exact hfind

end BcmPcie
